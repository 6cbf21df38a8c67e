import TemplateAudit.Yaml.Node
import TemplateAudit.Yaml.Tag
import TemplateAudit.Yaml.Token.Lexer

/-!
# TemplateAudit.Yaml.Node.Reader

From tokens to the nodes of a document.

A reader descends through the grammar with one token of lookahead. It keeps the tokens still to
come, the tag handles of the document, and the anchors met so far. A collection is known by its
anchor from its start: until its end an alias to it gives `Node.enclosing`. If there was such an
alias, the collection keeps its anchor, and at its end the nodes that were made known inside of
it are closed over it.

Every function that may call itself takes fuel. Of two nested calls at least one takes a token,
so three for each token are enough.
-/

namespace TemplateAudit.Yaml

/-- What an anchor stands for: where the node starts, and the node as far as it is known. -/
structure Anchored where
  name : String
  start : Mark
  node : Node
  /-- Whether an alias to the node was met before its end. -/
  inside : Bool

/-- The state of a reader. -/
structure NodeReader where
  tokens : List Token
  final : Except Fault Token
  handles : List (String × String)
  /-- The anchors met so far, last first. -/
  anchors : List Anchored

/-- A step of a reader. -/
abbrev ReadM := StateT NodeReader (Except Fault)

namespace NodeReader

/-- An error of the grammar. -/
def grammarError (activity : Option Activity) (since : Option Mark) (problem : Problem)
    (mark : Mark) : Fault :=
  .marked { stage := .grammar, activity, since, problem, mark }

/-- An error about anchors or about the number of documents. -/
def nodeError (activity : Option Activity) (since : Option Mark) (problem : Problem)
    (mark : Mark) : Fault :=
  .marked { stage := .nodes, activity, since, problem, mark }

/-- The next token. -/
def peek : ReadM Token := do
  let r ← get
  match r.tokens with
  | t :: _ => return t
  | [] => r.final

/-- The next token, which is taken. -/
def take : ReadM Token := do
  let t ← peek
  modify fun r => { r with tokens := r.tokens.drop 1 }
  return t

/-- Whether the next token is of a kind. -/
def at? (p : TokenKind → Bool) : ReadM Bool := do
  return p (← peek).kind

/-! ## Directives -/

/-- The handles that every document has. -/
def defaultHandles : List (String × String) := [("!", "!"), ("!!", Tag.standard)]

/-- The directives before a document: the handles they declare. -/
def directives : (fuel : Nat) → (version : Bool) → (handles : List (String × String)) →
    ReadM (List (String × String))
  | 0, _, handles => return handles
  | fuel + 1, version, handles => do
    let t ← peek
    match t.kind with
    | .directive d =>
      let _ ← take
      match d with
      | .version major _ =>
        if version then throw (grammarError none none .duplicateVersion t.start)
        if major != 1 then throw (grammarError none none .incompatibleVersion t.start)
        directives fuel true handles
      | .tagHandle handle text =>
        if (handles.lookup handle).isSome then
          throw (grammarError none none (.duplicateHandle handle) t.start)
        directives fuel version (handles ++ [(handle, text)])
      | .unknown _ => directives fuel version handles
    | _ => return handles

/-- Takes the tokens for the end of a document, as many as there are. -/
def skipDocumentEnds : (fuel : Nat) → ReadM Unit
  | 0 => return
  | fuel + 1 => do
    if ← at? (· == .documentEnd) then
      let _ ← take
      skipDocumentEnds fuel

/-- The line that starts a document, with the directives before it: where they start, or none at
the end of the text. -/
def explicitStart (fuel : Nat) : ReadM (Option Mark) := do
  skipDocumentEnds fuel
  let t ← peek
  if t.kind == .streamEnd then return none
  let handles ← directives fuel false []
  let found ← peek
  if found.kind != .documentStart then
    throw (grammarError none none (.expectedDocumentStart found.kind.name) found.start)
  let _ ← take
  modify fun r => { r with handles := handles ++ defaultHandles }
  return some t.start

/-! ## Properties and anchors -/

/-- What is written before the content of a node. -/
structure Properties where
  anchor : Option String
  tag : Option String
  /-- Where the first of them starts and the last of them stops. -/
  place : Option (Mark × Mark)

/-- The full tag for a tag as it is written. -/
def resolveHandle (handle : Option String) (suffix : String) (start tagMark : Mark) :
    ReadM String := do
  match handle with
  | none => return suffix
  | some h =>
    match (← get).handles.lookup h with
    | some text => return text ++ suffix
    | none => throw (grammarError (some .node) start (.undefinedHandle h) tagMark)

/-- The properties of a node: an anchor and a tag, in either order. -/
def properties : ReadM Properties := do
  let t ← peek
  match t.kind with
  | .anchor name =>
    let _ ← take
    let u ← peek
    match u.kind with
    | .tag handle suffix =>
      let _ ← take
      let tag ← resolveHandle handle suffix t.start u.start
      return { anchor := some name, tag := some tag, place := some (t.start, u.stop) }
    | _ => return { anchor := some name, tag := none, place := some (t.start, t.stop) }
  | .tag handle suffix =>
    let _ ← take
    let u ← peek
    match u.kind with
    | .anchor name =>
      let _ ← take
      let tag ← resolveHandle handle suffix t.start t.start
      return { anchor := some name, tag := some tag, place := some (t.start, u.stop) }
    | _ =>
      let tag ← resolveHandle handle suffix t.start t.start
      return { anchor := none, tag := some tag, place := some (t.start, t.stop) }
  | _ => return { anchor := none, tag := none, place := none }

/-- The tag of a node, where `byContent` is the one that its content gives it. -/
def Properties.tagOr (p : Properties) (byContent : String) : String :=
  match p.tag with
  | some tag => if tag == Tag.unspecific then byContent else tag
  | none => byContent

/-- Refuses an anchor that was used before. -/
def checkAnchor (p : Properties) (start : Mark) : ReadM Unit := do
  match p.anchor with
  | none => return
  | some name =>
    match (← get).anchors.find? (·.name == name) with
    | some first =>
      throw (nodeError (some (.firstAnchor name)) first.start .secondAnchor start)
    | none => return

/-- Makes a node known by its anchor. -/
def register (p : Properties) (start : Mark) (node : String → Node) : ReadM Unit := do
  match p.anchor with
  | none => return
  | some name =>
    modify fun r => { r with
      anchors := { name, start, node := node name, inside := false } :: r.anchors }

/-- The anchors after the end of a collection, `make` of its anchor or of none, and the collection
itself. Only the anchors met after its own can lie inside of it. -/
def completeIn (name : String) (make : Option String → Node) : List Anchored →
    List Anchored × Node
  | [] => ([], make none)
  | a :: earlier =>
    if a.name == name then
      let node := make (if a.inside then some name else none)
      ({ a with node } :: earlier, node)
    else
      let (earlier, node) := completeIn name make earlier
      match node with
      | .sequence (some _) .. | .mapping (some _) .. =>
        ({ a with node := .close name node a.node } :: earlier, node)
      | _ => (a :: earlier, node)

/-- Makes a collection known that was read to its end. -/
def complete (p : Properties) (make : Option String → Node) : ReadM Node := do
  match p.anchor with
  | none => return make none
  | some name =>
    let r ← get
    let (anchors, node) := completeIn name make r.anchors
    set { r with anchors }
    return node

/-- The node that an alias stands for. -/
def aliased (name : String) (mark : Mark) : ReadM Node := do
  match (← get).anchors.find? (·.name == name) with
  | none => throw (nodeError none none (.undefinedAlias name) mark)
  | some a =>
    if let .enclosing _ := a.node then
      modify fun r => { r with
        anchors := r.anchors.map fun a => if a.name == name then { a with inside := true } else a }
    return a.node

/-- A scalar. -/
def scalar (p : Properties) (text : Text) (plain : Bool) (start stop : Mark) : ReadM Node := do
  checkAnchor p start
  let byText := p.tag == some Tag.unspecific || plain
  let node := Node.scalar (p.tagOr (if byText then plainTag text else Tag.text)) text start stop
  register p start fun _ => node
  return node

/-- A scalar that is left out. -/
def missing (mark : Mark) : Node := .scalar Tag.null [] mark mark

/-! ## Content -/

mutual

/-- A node. `block` tells whether block collections may stand here, and `flat` whether a
sequence may that is not indented more than its parent. -/
def node (block flat : Bool) : (fuel : Nat) → ReadM Node
  | 0 => return default
  | fuel + 1 => do
    let first ← peek
    match first.kind with
    | .alias name =>
      let _ ← take
      aliased name first.start
    | _ =>
      let p ← properties
      let t ← peek
      let start := (p.place.map (·.1)).getD t.start
      let sequence (content : ReadM (List Node × Mark)) : ReadM Node := do
        checkAnchor p start
        register p start .enclosing
        let (items, stop) ← content
        complete p fun anchor => .sequence anchor (p.tagOr Tag.sequence) items start stop
      let mapping (content : ReadM (List (Node × Node) × Mark)) : ReadM Node := do
        checkAnchor p start
        register p start .enclosing
        let (entries, stop) ← content
        complete p fun anchor => .mapping anchor (p.tagOr Tag.mapping) entries start stop
      match t.kind, block, flat with
      | .blockEntry, _, true => sequence (flatItems fuel)
      | .scalar text plain, _, _ =>
        let _ ← take
        scalar p text plain start t.stop
      | .flowSequenceStart, _, _ => sequence (flowItems t.start true fuel)
      | .flowMappingStart, _, _ => mapping (flowEntries t.start true fuel)
      | .blockSequenceStart, true, _ => sequence (blockSequence fuel)
      | .blockMappingStart, true, _ => mapping (blockMapping fuel)
      | kind, _, _ =>
        match p.place with
        | some (_, stop) => scalar p [] true start stop
        | none =>
          let activity := if block then Activity.blockNode else Activity.flowNode
          throw (grammarError (some activity) start (.expectedContent kind.name) t.start)

/-- A node, or a scalar that is left out if a token follows that can only come after a node. -/
def nodeUnless (stops : TokenKind → Bool) (block flat : Bool) (mark : Mark) : (fuel : Nat) →
    ReadM Node
  | 0 => return default
  | fuel + 1 => do
    if ← at? stops then return missing mark else node block flat fuel

/-- A value with the token before it, or a scalar that is left out if there is no such token. -/
def valueUnless (stops : TokenKind → Bool) (block : Bool) : (fuel : Nat) → ReadM Node
  | 0 => return default
  | fuel + 1 => do
    let t ← peek
    if t.kind == .value then
      let _ ← take
      nodeUnless stops block block t.stop fuel
    else return missing t.start

/-- A block sequence, from the token for its start. -/
def blockSequence : (fuel : Nat) → ReadM (List Node × Mark)
  | 0 => return default
  | fuel + 1 => do
    let t ← take
    blockItems t.start fuel

/-- The items of a block sequence, and where it stops. -/
def blockItems (since : Mark) : (fuel : Nat) → ReadM (List Node × Mark)
  | 0 => return default
  | fuel + 1 => do
    let t ← peek
    match t.kind with
    | .blockEntry =>
      let _ ← take
      let stops (k : TokenKind) : Bool := k == .blockEntry || k == .blockEnd
      let item ← nodeUnless stops true false t.stop fuel
      let (items, stop) ← blockItems since fuel
      return (item :: items, stop)
    | .blockEnd =>
      let _ ← take
      return ([], t.stop)
    | kind =>
      throw (grammarError (some .blockCollection) since (.expectedBlockEnd kind.name) t.start)

/-- The items of a sequence that is not indented more than its parent, and where it stops. -/
def flatItems : (fuel : Nat) → ReadM (List Node × Mark)
  | 0 => return default
  | fuel + 1 => do
    let t ← peek
    match t.kind with
    | .blockEntry =>
      let _ ← take
      let stops (k : TokenKind) : Bool :=
        k == .blockEntry || k == .key || k == .value || k == .blockEnd
      let item ← nodeUnless stops true false t.stop fuel
      let (items, stop) ← flatItems fuel
      return (item :: items, stop)
    | _ => return ([], t.start)

/-- A block mapping, from the token for its start. -/
def blockMapping : (fuel : Nat) → ReadM (List (Node × Node) × Mark)
  | 0 => return default
  | fuel + 1 => do
    let t ← take
    blockEntries t.start fuel

/-- The keys and values of a block mapping, and where it stops. -/
def blockEntries (since : Mark) : (fuel : Nat) → ReadM (List (Node × Node) × Mark)
  | 0 => return default
  | fuel + 1 => do
    let t ← peek
    match t.kind with
    | .key =>
      let _ ← take
      let stops (k : TokenKind) : Bool := k == .key || k == .value || k == .blockEnd
      let key ← nodeUnless stops true true t.stop fuel
      let value ← valueUnless stops true fuel
      let (entries, stop) ← blockEntries since fuel
      return ((key, value) :: entries, stop)
    | .blockEnd =>
      let _ ← take
      return ([], t.stop)
    | kind =>
      throw (grammarError (some .blockMapping) since (.expectedBlockEnd kind.name) t.start)

/-- The items of a sequence in brackets, from the token before the next one, and where it
stops. -/
def flowItems (since : Mark) (isFirst : Bool) : (fuel : Nat) → ReadM (List Node × Mark)
  | 0 => return default
  | fuel + 1 => do
    let t ← peek
    match t.kind, isFirst with
    | .flowSequenceEnd, false =>
      let _ ← take
      return ([], t.stop)
    | .flowSequenceStart, true | .flowEntry, false =>
      let _ ← take
      let t ← peek
      match t.kind with
      | .flowSequenceEnd =>
        let _ ← take
        return ([], t.stop)
      | .key =>
        let item ← flowPair fuel
        let (items, stop) ← flowItems since false fuel
        return (item :: items, stop)
      | _ =>
        let item ← node false false fuel
        let (items, stop) ← flowItems since false fuel
        return (item :: items, stop)
    | kind, _ =>
      throw (grammarError (some .flowSequence) since (.expectedCommaOrBracket kind.name) t.start)

/-- A mapping of one key and value, written as an item. -/
def flowPair : (fuel : Nat) → ReadM Node
  | 0 => return default
  | fuel + 1 => do
    let t ← take
    let stops (k : TokenKind) : Bool := k == .flowEntry || k == .flowSequenceEnd
    let key ← nodeUnless (fun k => k == .value || stops k) false false t.stop fuel
    let value ← valueUnless stops false fuel
    let after ← peek
    return .mapping none Tag.mapping [(key, value)] t.start after.start

/-- The keys and values of a mapping in braces, from the token before the next one, and where
it stops. -/
def flowEntries (since : Mark) (isFirst : Bool) : (fuel : Nat) →
    ReadM (List (Node × Node) × Mark)
  | 0 => return default
  | fuel + 1 => do
    let stops (k : TokenKind) : Bool := k == .flowEntry || k == .flowMappingEnd
    let t ← peek
    match t.kind, isFirst with
    | .flowMappingEnd, false =>
      let _ ← take
      return ([], t.stop)
    | .flowMappingStart, true | .flowEntry, false =>
      let _ ← take
      let t ← peek
      match t.kind with
      | .flowMappingEnd =>
        let _ ← take
        return ([], t.stop)
      | .key =>
        let _ ← take
        let key ← nodeUnless (fun k => k == .value || stops k) false false t.stop fuel
        let value ← valueUnless stops false fuel
        let (entries, stop) ← flowEntries since false fuel
        return ((key, value) :: entries, stop)
      | _ =>
        let key ← node false false fuel
        let value := missing (← peek).start
        let (entries, stop) ← flowEntries since false fuel
        return ((key, value) :: entries, stop)
    | kind, _ =>
      throw (grammarError (some .flowMapping) since (.expectedCommaOrBrace kind.name) t.start)

end

/-! ## Documents -/

/-- The root of the next document, if there is one. -/
def root (fuel : Nat) : ReadM (Option Node) := do
  match (← peek).kind with
  | .directive _ | .documentStart | .streamEnd =>
    match ← explicitStart fuel with
    | none => return none
    | some _ =>
      let t ← peek
      match t.kind with
      | .directive _ | .documentStart | .documentEnd | .streamEnd =>
        return some (missing t.start)
      | _ => return some (← node true false fuel)
  | _ => return some (← node true false fuel)

/-- The root of the only document, or none if there is no document. -/
def singleRoot (fuel : Nat) : ReadM (Option Node) := do
  match ← root fuel with
  | none => return none
  | some root =>
    if ← at? (· == .documentEnd) then
      let _ ← take
    match ← explicitStart fuel with
    | some mark => throw (nodeError (some .singleDocument) root.start .anotherDocument mark)
    | none => return some root

/-- The root of the only document that some tokens are, or none if there is no document. -/
def read (stream : TokenStream) : Except Fault (Option Node) :=
  let reader : NodeReader :=
    { tokens := stream.tokens, final := stream.final, handles := defaultHandles, anchors := [] }
  (singleRoot (3 * stream.tokens.length + 8)).run' reader

end NodeReader

/-- The root of the only document of a text, or none for an empty text. -/
def compose (cs : List Char) : Except Fault (Option Node) := NodeReader.read (tokenize cs)

end TemplateAudit.Yaml
