import TemplateAudit.Yaml.Graph
import TemplateAudit.Yaml.Value.Scalar

/-!
# TemplateAudit.Yaml.Value

The value that a document stands for.

Values are made level by level: a scalar has its value at once, and a collection is a
`Value.shared` that waits to be filled until all collections before it are filled. So each
node is made once, however often it is named, and a collection may contain itself.

A mapping takes in the entries of the mappings that it merges, before its own. That changes the
nodes for good, and so does the key that stands for the default, which becomes an ordinary text
when its mapping is filled or merged.
-/

namespace TemplateAudit.Yaml

open TemplateAudit.Data

/-- The kinds of collections. -/
inductive Collection
  | list
  | mapping
  | set
  | orderedMapping
  | pairs
  deriving DecidableEq, Repr

/-- The kind of collection that a tag asks for. -/
def collection? (tag : String) : Option Collection :=
  [(Tag.sequence, .list), (Tag.mapping, .mapping), (Tag.set, .set),
    (Tag.orderedMapping, .orderedMapping), (Tag.pairs, .pairs)].lookup tag

/-- The values of a document as far as they are made. -/
structure Construction where
  vertices : Array Vertex
  /-- The values of nodes, by number. -/
  made : Array (Option Value)
  /-- What the collections hold. Those of nodes have the numbers of the nodes. -/
  store : Store
  /-- The collections that are still to be filled, last first. -/
  waiting : List (Nat × Collection)
  /-- How many entries asked for a mapping to be merged at the start. -/
  mergeCount : Nat

/-- A step of making values. -/
abbrev MakeM := StateT Construction (Except ValueFault)

namespace Construction

/-- The node with a number. -/
def vertex (c : Construction) (n : Nat) : Vertex := c.vertices.getD n default

/-- The entries of a mapping. -/
def entries (c : Construction) (n : Nat) : List (Nat × Nat) :=
  match (c.vertex n).content with
  | .mapping entries => entries
  | _ => []

/-- The construction with other entries of a mapping. -/
def setEntries (c : Construction) (n : Nat) (entries : List (Nat × Nat)) : Construction :=
  { c with vertices := c.vertices.modify n fun v => { v with content := .mapping entries } }

/-- Whether an entry asks for a mapping to be merged. -/
def isMerge (vertices : Array Vertex) (entry : Nat × Nat) : Bool :=
  (vertices.getD entry.1 default).tag == Tag.merge

/-- How many entries ask for a mapping to be merged. -/
def countMerges (vertices : Array Vertex) : Nat :=
  vertices.foldl
    (fun count v =>
      match v.content with
      | .mapping entries => count + (entries.filter (isMerge vertices)).length
      | _ => count) 0

/-- The start: nothing is made. -/
def start (vertices : Array Vertex) : Construction :=
  { vertices, made := Array.replicate vertices.size none
    store := Array.replicate vertices.size .null, waiting := []
    mergeCount := countMerges vertices }

/-- The construction with the keys of a mapping that stand for the default as ordinary texts. -/
def settleDefaults (c : Construction) (n : Nat) : Construction :=
  let settle (v : Vertex) : Vertex := if v.tag == Tag.value then { v with tag := Tag.text } else v
  { c with
    vertices := (c.entries n).foldl (fun vertices entry => vertices.modify entry.1 settle)
      c.vertices }

/-- The construction with a value of a node. -/
def setMade (c : Construction) (n : Nat) (v : Value) : Construction :=
  { c with made := c.made.setIfInBounds n (some v) }

/-- The construction with a collection that is to be filled. -/
def await (c : Construction) (n : Nat) (kind : Collection) : Construction :=
  { c with waiting := (n, kind) :: c.waiting }

/-- The construction with what a collection holds. -/
def setStored (c : Construction) (n : Nat) (v : Value) : Construction :=
  { c with store := c.store.setIfInBounds n v }

end Construction

namespace Make

/-- An error about the value of a document. -/
def error {α : Type} (activity : Option Activity) (since : Option Mark) (problem : Problem)
    (mark : Mark) : Except ValueFault α :=
  .error (.document (.marked { stage := .values, activity, since, problem, mark }))

/-! ## Scalars -/

/-- The text of a scalar. A mapping with a default has the text of its default. -/
def text (c : Construction) : (fuel : Nat) → (n : Nat) → Except ValueFault Text
  | 0, _ => .error (.scalar .endless)
  | fuel + 1, n =>
    let v := c.vertex n
    match v.content with
    | .scalar text => .ok text
    | .sequence _ => error none none (.expectedScalarNode v.content.kind) v.start
    | .mapping entries =>
      match entries.find? fun entry => (c.vertex entry.1).tag == Tag.value with
      | some (_, value) => text c fuel value
      | none => error none none (.expectedScalarNode v.content.kind) v.start

/-- The value of a node with the tag of a scalar. -/
def scalar (c : Construction) (n : Nat) : Except ValueFault Value :=
  let v := c.vertex n
  if Scalar.isTag v.tag then do
    let text ← text c (c.vertices.size + 1) n
    match v.content, v.tag == Tag.timestamp with
    | .mapping _, true => Scalar.fail .timeOfMapping
    | _, _ => Scalar.value v.tag text v.start
  else error none none (.unknownTag v.tag) v.start

/-- The value of a node; a collection is filled later. -/
def object (n : Nat) : MakeM Value := do
  let c ← get
  match c.made.getD n none with
  | some v => return v
  | none =>
    let v ← match collection? (c.vertex n).tag with
      | some kind => do
        modify (·.await n kind)
        pure (Value.shared n)
      | none => scalar c n
    modify (·.setMade n v)
    return v

/-! ## Merging -/

/-- Takes the first entry out of a mapping that asks for a merge, and gives what is to be
merged. -/
def takeMerge (n : Nat) : MakeM (Option Nat) := do
  let c ← get
  let entries := c.entries n
  let isMerge := Construction.isMerge c.vertices
  match entries.findIdx? isMerge, entries.find? isMerge with
  | some k, some (_, value) =>
    set (c.setEntries n (entries.eraseIdx k))
    return some value
  | _, _ => return none

mutual

/-- Merges into a mapping what it asks for. Each merge is taken out of its mapping before it is
done, so that three units of fuel for each of them are enough. -/
def flatten : (fuel : Nat) → (n : Nat) → MakeM Unit
  | 0, _ => return
  | fuel + 1, n => do
    modify (·.settleDefaults n)
    let merged ← merges ((← get).vertex n).start fuel n
    if !merged.isEmpty then
      modify fun c => c.setEntries n (merged ++ c.entries n)

/-- The entries of all mappings that a mapping merges. -/
def merges (since : Mark) : (fuel : Nat) → (n : Nat) → MakeM (List (Nat × Nat))
  | 0, _ => return []
  | fuel + 1, n => do
    match ← takeMerge n with
    | none => return []
    | some source =>
      let v := (← get).vertex source
      let first ← match v.content with
        | .mapping _ => do
          flatten fuel source
          pure ((← get).entries source)
        | .sequence items => do
          let rows ← items.mapM (flattenItem since fuel)
          pure rows.reverse.flatten
        | .scalar _ =>
          error (some .mappingValue) since (.expectedMergeMappings v.content.kind) v.start
      let more ← merges since fuel n
      return first ++ more

/-- The entries of a mapping in a list of mappings that are merged. -/
def flattenItem (since : Mark) : (fuel : Nat) → (n : Nat) → MakeM (List (Nat × Nat))
  | 0, _ => return []
  | fuel + 1, n => do
    let v := (← get).vertex n
    match v.content with
    | .mapping _ =>
      flatten fuel n
      return (← get).entries n
    | _ => error (some .mappingValue) since (.expectedMergeMapping v.content.kind) v.start

end

/-! ## Filling -/

/-- An entry of a mapping, with what tells it apart if its key is not a number. -/
structure Entry where
  key : Value
  identity : Nat
  value : Value

/-- Whether a value is not-a-number. -/
def isNan : Value → Bool
  | .float .nan => true
  | _ => false

/-- Whether an entry has a key. One that is not a number equals nothing but itself. -/
def Entry.hasKey (e : Entry) (key : Value) (identity : Nat) : Bool :=
  e.key.same key || (isNan e.key && isNan key && e.identity == identity)

/-- The entries with one more: a key that is there already keeps its place and its spelling and
gets the new value. -/
def Entry.put (entries : Array Entry) (new : Entry) : Array Entry :=
  match entries.findIdx? fun e => e.hasKey new.key new.identity with
  | some k => entries.modify k fun e => { e with value := new.value }
  | none => entries.push new

/-- What tells the node of not-a-number apart from others as a key. All nodes that name it are
one. -/
def identity (c : Construction) (n : Nat) : Nat :=
  match text c (c.vertices.size + 1) n with
  | .ok t => if Scalar.namesNan t then c.vertices.size else n
  | .error _ => n

/-- The values of keys and values, after those that come before them. -/
def entries (since : Mark) (before : Array Entry) : List (Nat × Nat) → MakeM (Array Entry)
  | [] => return before
  | (k, v) :: rest => do
    let key ← object k
    if !key.isKey then
      error (some .mappingValue) since .unhashableKey ((← get).vertex k).start
    let value ← object v
    let c ← get
    let identity := if isNan key then identity c k else k
    entries since (Entry.put before { key, identity, value }) rest

/-- The entries of a mapping with what it merges. -/
def mapping (n : Nat) : MakeM (Array Entry) := do
  let v := (← get).vertex n
  match v.content with
  | .mapping _ =>
    flatten (3 * (← get).mergeCount + 3) n
    entries v.start #[] ((← get).entries n)
  | content => error none none (.expectedMappingNode content.kind) v.start

/-- The pair that a mapping of one key and value is. -/
def pair (activity : Activity) (since : Mark) (n : Nat) : MakeM Value := do
  let v := (← get).vertex n
  match v.content with
  | .mapping [(key, value)] =>
    let key ← object key
    let value ← object value
    let c ← get
    set { c with store := c.store.push (.tuple [key, value]) }
    return .shared c.store.size
  | .mapping entries => error (some activity) since (.expectedOneItem entries.length) v.start
  | content => error (some activity) since (.expectedPair content.kind) v.start

/-- Fills a collection. -/
def fill (n : Nat) (kind : Collection) : MakeM Unit := do
  let v := (← get).vertex n
  let content ← match kind, v.content with
    | .list, .sequence items => (items.mapM object).map Value.list
    | .list, content => error none none (.expectedSequenceNode content.kind) v.start
    | .mapping, _ =>
      (mapping n).map fun es => Value.mapping (es.toList.map fun e => (e.key, e.value))
    | .set, _ => (mapping n).map fun es => Value.ofMembers (es.toList.map Entry.key)
    | .orderedMapping, .sequence items => (items.mapM (pair .orderedMap v.start)).map Value.list
    | .orderedMapping, content =>
      error (some .orderedMap) (some v.start) (.expectedSequence content.kind) v.start
    | .pairs, .sequence items => (items.mapM (pair .pairs v.start)).map Value.list
    | .pairs, content =>
      error (some .pairs) (some v.start) (.expectedSequence content.kind) v.start
  modify (·.setStored n content)

/-- Fills the collections that wait, and then those that wait after that. Each collection waits
once, so that fuel for the number of nodes is enough. -/
def fillAll : (fuel : Nat) → MakeM Unit
  | 0 => return
  | fuel + 1 => do
    let c ← get
    match c.waiting.reverse with
    | [] => return
    | waiting =>
      set { c with waiting := [] }
      waiting.forM fun (n, kind) => fill n kind
      fillAll fuel

/-- The value of the node with the number 0. -/
def document (size : Nat) : MakeM Value := do
  let v ← object 0
  fillAll (size + 1)
  return v

end Make

/-- The value that a document stands for, and its collections. -/
def valueOf (root : Node) : Except ValueFault (Value × Store) := do
  let vertices := Graph.ofTree root
  let (v, c) ← (Make.document vertices.size).run (.start vertices)
  return (v, c.store)

end TemplateAudit.Yaml
