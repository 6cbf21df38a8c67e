import TemplateAudit.Command.Run

/-!
# TemplateAudit.Main

The command line program. It looks at the files that the arguments name, works out what to do,
and does it.
-/

namespace TemplateAudit.Program

open TemplateAudit.Files

/-- What is on the disk at a path. -/
def probe (path : String) : IO (Option Entry) := do
  try
    let octets ← IO.FS.readBinFile path
    return some (.file octets.toList)
  catch
    | .inappropriateType .. => return some .directory
    | _ => return none

/-- The paths on the way to a path, and the path itself. -/
def onTheWay (p : Path) : List Path :=
  (List.range p.parts.length).map fun n => { p with parts := p.parts.take (n + 1) }

/-- The files that some paths lead to. -/
def survey (paths : List String) : IO Tree := do
  let mut entries : List (Place × Entry) := []
  for text in paths do
    for p in onTheWay (Path.ofText text) do
      if let some e ← probe p.text then
        entries := entries ++ [(Place.ofPath p, e)]
  return { entries }

/-- All that is on standard input. -/
def readAll (input : IO.FS.Stream) : IO (List UInt8) := do
  let mut octets : ByteArray := .empty
  repeat
    let block ← input.read 65536
    if block.isEmpty then break
    octets := octets ++ block
  return octets.toList

/-- Brings the files on the disk to what they should be. -/
def carryOut (changes : List (Place × Entry)) : IO Unit := do
  for (place, entry) in changes do
    match entry with
    | .directory => IO.FS.createDirAll place.path.text
    | .file octets => IO.FS.writeBinFile place.path.text ⟨octets.toArray⟩

/-- Runs the program. -/
def run (words : List String) : IO UInt32 := do
  let files ← survey (Command.pathsNamed words)
  let stdin ← if Command.readsStdin words then readAll (← IO.getStdin) else pure []
  let now ← IO.monoMsNow
  let time := toString (now / 1000) ++ "," ++ Data.padded 3 (now % 1000)
  let clock : Clock := fun _ => .real (Number.Binary64.ofDecimal false now (-3))
  let effect := Command.call { files, stdin, time, clock } words
  carryOut (effect.files.changesSince files)
  IO.print effect.stdout.string
  IO.eprint effect.stderr
  match effect.ending with
  | .exit code => return code.toUInt32
  | .failed cause =>
    IO.eprintln cause.message
    return 1

end TemplateAudit.Program

/-- The program. -/
def main (words : List String) : IO UInt32 := TemplateAudit.Program.run words
