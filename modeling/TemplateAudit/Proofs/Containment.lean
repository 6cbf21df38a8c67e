import Mathlib.Logic.Relation
import TemplateAudit.Yaml.Node

/-!
# TemplateAudit.Proofs.Containment

Trees in which no node **contains itself**.

What a node holds is what one sees from it (`Node.children`): where an alias lies inside the
collection that it names, that collection. A node contains itself if a walk down from it comes back
to it. `Node.isFinite` is a check of the tree as it is written instead, for `enclosing` places.

The two agree on trees that are closed, in which every `enclosing` place lies inside a collection
with its anchor (`IsClosed.isFinite_iff_isAcyclic`). A finite tree is walked down as it is written,
and every walk ends. In any other closed tree some collection is referred to from the inside. It is
put there whole, and what is closed stays whole when more is closed over it, so it is met again on
the way down (`reaches_of_within`).

Sequences and mappings are not told apart here: `Node.written` lists the nodes that are written
inside a node, and the first section says of each function on trees what it does to those.
-/

namespace TemplateAudit.Yaml.Node

/-! ### Nodes inside nodes -/

/-- The nodes written inside a node: its items, or its keys and values. -/
def written : Node → List Node
  | .sequence _ _ items _ _ => items
  | .mapping _ _ entries _ _ => entries.flatMap fun e => [e.1, e.2]
  | _ => []

/-- Whether a node is only a place for a collection around it. -/
def isReference : Node → Bool
  | .enclosing _ => true
  | _ => false

theorem mem_flatMap_pair {entries : List (Node × Node)} {m : Node} :
    (m ∈ entries.flatMap fun e => [e.1, e.2]) ↔ ∃ e ∈ entries, m = e.1 ∨ m = e.2 := by
  simp only [List.mem_flatMap, List.mem_cons, List.not_mem_nil, or_false]

theorem forall_mem_flatMap_pair {P : Node → Prop} {entries : List (Node × Node)} :
    (∀ m ∈ entries.flatMap fun e => [e.1, e.2], P m) ↔ ∀ e ∈ entries, P e.1 ∧ P e.2 := by
  simp only [mem_flatMap_pair]
  constructor
  · exact fun h e he => ⟨h _ ⟨e, he, .inl rfl⟩, h _ ⟨e, he, .inr rfl⟩⟩
  · rintro h m ⟨e, he, rfl | rfl⟩
    · exact (h e he).1
    · exact (h e he).2

/-- Induction over a tree: what holds of the nodes written inside a node holds of the node. -/
@[elab_as_elim]
theorem induction {P : Node → Prop} (reference : ∀ anchor, P (.enclosing anchor))
    (inside : ∀ n : Node, n.isReference = false → (∀ m ∈ n.written, P m) → P n) (n : Node) : P n :=
  @Node.rec P (fun items => ∀ item ∈ items, P item)
    (fun entries => ∀ entry ∈ entries, P entry.1 ∧ P entry.2) (fun entry => P entry.1 ∧ P entry.2)
    (fun _ _ _ _ => inside _ rfl fun _ h => nomatch h)
    (fun _ _ _ _ _ ih => inside _ rfl ih)
    (fun _ _ _ _ _ ih => inside _ rfl (forall_mem_flatMap_pair.mpr ih))
    reference
    (fun _ h => nomatch h)
    (fun _ _ hitem hitems => List.forall_mem_cons.mpr ⟨hitem, hitems⟩)
    (fun _ h => nomatch h)
    (fun _ _ hentry hentries => List.forall_mem_cons.mpr ⟨hentry, hentries⟩)
    (fun _ _ hkey hvalue => ⟨hkey, hvalue⟩) n

variable {anchor : String} {node n m : Node}

theorem closeItems_eq_map (items : List Node) :
    closeItems anchor node items = items.map (close anchor node) := by
  induction items with
  | nil => rfl
  | cons item items ih => rw [closeItems, ih, List.map_cons]

theorem closeEntries_eq_map (entries : List (Node × Node)) :
    closeEntries anchor node entries =
      entries.map fun e => (close anchor node e.1, close anchor node e.2) := by
  induction entries with
  | nil => rfl
  | cons entry entries ih => rw [closeEntries, ih, List.map_cons]

/-- A collection with the anchor itself hides what lies around it. -/
theorem close_of_anchor (h : n.anchor? = some anchor) : close anchor node n = n := by
  cases n with
  | scalar | enclosing => cases h
  | sequence own | mapping own =>
      cases h
      rw [close, if_pos (beq_self_eq_true _)]

theorem isReference_close (h : n.isReference = false) :
    (close anchor node n).isReference = false := by
  cases n with
  | scalar => rfl
  | enclosing => cases h
  | sequence | mapping =>
      rw [close]
      split <;> rfl

theorem anchor?_close (h : n.isReference = false) :
    (close anchor node n).anchor? = n.anchor? := by
  cases n with
  | scalar => rfl
  | enclosing => cases h
  | sequence | mapping =>
      rw [close]
      split <;> rfl

theorem written_close (h : n.isReference = false) (hanchor : n.anchor? ≠ some anchor) :
    (close anchor node n).written = n.written.map (close anchor node) := by
  cases n with
  | scalar => rfl
  | enclosing => cases h
  | sequence =>
      rw [close, if_neg (by simpa [anchor?] using hanchor), closeItems_eq_map]
      rfl
  | mapping =>
      rw [close, if_neg (by simpa [anchor?] using hanchor), closeEntries_eq_map]
      simp only [written, List.flatMap_map, List.map_flatMap, List.map_cons, List.map_nil]

/-- Closing a collection leaves it as it is if it does so with what is inside. -/
theorem close_eq_self (h : n.isReference = false)
    (hsame : ∀ m ∈ n.written, close anchor node m = m) : close anchor node n = n := by
  cases n with
  | scalar => rfl
  | enclosing => cases h
  | sequence own tag items =>
      have hitems : items.map (close anchor node) = items :=
        (List.map_congr_left hsame).trans (List.map_id' _)
      rw [close, closeItems_eq_map, hitems, ite_self]
  | mapping own tag entries =>
      have hentries : ∀ e ∈ entries, (close anchor node e.1, close anchor node e.2) = e := by
        intro e he
        have := forall_mem_flatMap_pair.mp hsame e he
        rw [this.1, this.2]
      rw [close, closeEntries_eq_map, List.map_congr_left hentries, List.map_id', ite_self]

theorem allFinite_iff {items : List Node} :
    allFinite items = true ↔ ∀ m ∈ items, m.isFinite = true := by
  induction items with
  | nil => simp [allFinite]
  | cons item items ih => simp [allFinite, ih]

theorem entriesFinite_iff {entries : List (Node × Node)} :
    entriesFinite entries = true ↔
      ∀ e ∈ entries, e.1.isFinite = true ∧ e.2.isFinite = true := by
  induction entries with
  | nil => simp [entriesFinite]
  | cons entry entries ih =>
      rw [entriesFinite, Bool.and_eq_true, Bool.and_eq_true, ih, List.forall_mem_cons]

theorem isFinite_iff (h : n.isReference = false) :
    n.isFinite = true ↔ ∀ m ∈ n.written, m.isFinite = true := by
  cases n with
  | scalar => simp [isFinite, written]
  | enclosing => cases h
  | sequence => rw [isFinite, allFinite_iff, written]
  | mapping => rw [isFinite, entriesFinite_iff, written, forall_mem_flatMap_pair]

theorem isReference_of_mem_written (h : m ∈ n.written) : n.isReference = false := by
  cases n with
  | enclosing => cases h
  | scalar | sequence | mapping => rfl

/-! ### Containment -/

/-- What a node holds: its items, or its keys and values. -/
def children (n : Node) : List Node := n.items ++ n.entries.flatMap fun e => [e.1, e.2]

/-- A node holds another one. -/
def Holds (n m : Node) : Prop := m ∈ n.children

/-- A node is met on a walk down from another one, or is that one. -/
def Reaches : Node → Node → Prop := Relation.ReflTransGen Holds

/-- A walk down from a node comes back to it. -/
def ContainsItself (n : Node) : Prop := Relation.TransGen Holds n n

/-- No node of a tree contains itself. -/
def IsAcyclic (n : Node) : Prop := ∀ m, n.Reaches m → ¬ m.ContainsItself

/-- What a node holds is what is written inside of it, with itself in the places that refer to
it. -/
theorem children_eq (n : Node) :
    n.children = match n.anchor? with
      | some anchor => n.written.map (close anchor n)
      | none => n.written := by
  cases n with
  | scalar | enclosing => rfl
  | sequence own =>
      cases own with
      | none => exact List.append_nil _
      | some anchor => exact (List.append_nil _).trans (closeItems_eq_map _)
  | mapping own =>
      cases own with
      | none => rfl
      | some anchor =>
          simp only [children, items, entries, anchor?, written, closeEntries_eq_map,
            List.nil_append, List.flatMap_map, List.map_flatMap, List.map_cons, List.map_nil]

theorem IsAcyclic.of_reaches (h : n.IsAcyclic) (hm : n.Reaches m) : m.IsAcyclic :=
  fun k hk => h k (hm.trans hk)

/-! ### References -/

/-- A tree refers to a collection with an anchor that lies around it. -/
inductive Refers (anchor : String) : Node → Prop
  | here : Refers anchor (.enclosing anchor)
  | inside {n m : Node} (hanchor : n.anchor? ≠ some anchor) (hm : m ∈ n.written)
      (h : Refers anchor m) : Refers anchor n

/-- A tree refers to nothing that lies around it. -/
def IsClosed (n : Node) : Prop := ∀ anchor, ¬ n.Refers anchor

theorem refers_enclosing_iff {name : String} :
    (Node.enclosing name).Refers anchor ↔ name = anchor := by
  constructor
  · rintro (_ | ⟨_, hm, _⟩)
    · rfl
    · cases hm
  · rintro rfl
    exact .here

theorem refers_iff (h : n.isReference = false) :
    n.Refers anchor ↔ n.anchor? ≠ some anchor ∧ ∃ m ∈ n.written, m.Refers anchor := by
  constructor
  · rintro (_ | ⟨hanchor, hm, hrefers⟩)
    · cases h
    · exact ⟨hanchor, _, hm, hrefers⟩
  · rintro ⟨hanchor, m, hm, hrefers⟩
    exact .inside hanchor hm hrefers

theorem isClosed_scalar {tag : String} {value : Text} {start stop : Mark} :
    (Node.scalar tag value start stop).IsClosed := by
  intro anchor hrefers
  obtain ⟨_, m, hm, _⟩ := (refers_iff rfl).mp hrefers
  cases hm

/-- Closing a tree changes nothing where there is no reference. -/
theorem close_of_not_refers (h : ¬ n.Refers anchor) : close anchor node n = n := by
  induction n using induction with
  | reference name =>
      rw [close, if_neg (by simpa [refers_enclosing_iff] using h)]
  | inside n hn ih =>
      by_cases hanchor : n.anchor? = some anchor
      · exact close_of_anchor hanchor
      · exact close_eq_self hn fun m hm => ih m hm fun hrefers => h (.inside hanchor hm hrefers)

/-- A tree closed over a node refers to what the node does, and to the rest of what it did. -/
theorem Refers.of_close {name : String} (h : (Node.close anchor node n).Refers name) :
    (name ≠ anchor ∧ n.Refers name) ∨ node.Refers name := by
  induction n using induction with
  | reference own =>
      rw [Node.close] at h
      split at h
      case isTrue => exact .inr h
      case isFalse hown =>
          have hname := refers_enclosing_iff.mp h
          refine .inl ⟨fun heq => hown ?_, h⟩
          rw [hname, heq, beq_self_eq_true]
  | inside n hn ih =>
      by_cases hanchor : n.anchor? = some anchor
      · rw [close_of_anchor hanchor] at h
        exact .inl ⟨fun heq => ((refers_iff hn).mp h).1 (heq ▸ hanchor), h⟩
      · rw [refers_iff (isReference_close hn), anchor?_close hn, written_close hn hanchor] at h
        obtain ⟨hname, _, hclosed, hrefers⟩ := h
        obtain ⟨m, hm, rfl⟩ := List.mem_map.mp hclosed
        exact (ih m hm hrefers).imp_left fun hleft => ⟨hleft.1, .inside hname hm hleft.2⟩

/-- Where no node inside a node refers to it, what it holds is what is written. -/
theorem children_of_not_refers (h : ∀ anchor, n.anchor? = some anchor →
    ∀ m ∈ n.written, ¬ m.Refers anchor) : n.children = n.written := by
  rw [children_eq]
  split
  case h_1 anchor hanchor =>
      rw [List.map_congr_left fun m hm => close_of_not_refers (h anchor hanchor m hm),
        List.map_id']
  case h_2 => rfl

theorem not_refers_of_isFinite (h : n.isFinite = true) : ¬ n.Refers anchor := by
  intro hrefers
  induction hrefers with
  | here => cases h
  | inside _ hm _ ih => exact ih ((isFinite_iff (isReference_of_mem_written hm)).mp h _ hm)

/-! ### Finite trees -/

theorem children_of_isFinite (hn : n.isReference = false) (h : n.isFinite = true) :
    n.children = n.written :=
  children_of_not_refers fun _ _ m hm => not_refers_of_isFinite ((isFinite_iff hn).mp h m hm)

/-- All that is met on a walk down a finite tree is finite. -/
theorem isFinite_of_reaches (h : n.isFinite = true) (hm : n.Reaches m) : m.isFinite = true := by
  induction hm with
  | refl => exact h
  | @tail k m _ hstep ih =>
      have hk : k.isReference = false := by
        cases k with
        | enclosing => cases ih
        | scalar | sequence | mapping => rfl
      rw [Holds, children_of_isFinite hk ih] at hstep
      exact (isFinite_iff hk).mp ih m hstep

/-- A node over acyclic trees is acyclic: a walk that came back to it would do so through one of
these. -/
theorem isAcyclic_of_children (h : ∀ m ∈ n.children, m.IsAcyclic) : n.IsAcyclic := by
  intro k hk hself
  rcases hk.cases_head with rfl | ⟨m, hm, hmk⟩
  · obtain ⟨m, hm, hback⟩ := Relation.TransGen.head'_iff.mp hself
    exact h m hm n hback hself
  · exact h m hm k hmk hself

theorem isAcyclic_of_isFinite (h : n.isFinite = true) : n.IsAcyclic := by
  induction n using induction with
  | reference => cases h
  | inside n hn ih =>
      refine isAcyclic_of_children ?_
      rw [children_of_isFinite hn h]
      exact fun m hm => ih m hm ((isFinite_iff hn).mp h m hm)

/-! ### Closed trees -/

/-- A node is written at some depth in a tree. -/
inductive Within (node : Node) : Nat → Node → Prop
  | here : Within node 0 node
  | deeper {depth : Nat} {n m : Node} (hm : m ∈ n.written) (h : Within node depth m) :
      Within node (depth + 1) n

/-- What is closed stays where it is when the tree around it is closed. -/
theorem Within.close {depth : Nat} {outer : Node} (hclosed : node.IsClosed)
    (h : Within node depth n) : Within node depth (Node.close anchor outer n) := by
  induction h with
  | here =>
      rw [close_of_not_refers (hclosed anchor)]
      exact .here
  | @deeper _ n m hm h ih =>
      by_cases hanchor : n.anchor? = some anchor
      · rw [close_of_anchor hanchor]
        exact .deeper hm h
      · refine .deeper ?_ ih
        rw [written_close (isReference_of_mem_written hm) hanchor]
        exact List.mem_map_of_mem hm

/-- What is closed and written in a tree is met on a walk down. -/
theorem reaches_of_within {depth : Nat} (hclosed : node.IsClosed) (h : Within node depth n) :
    n.Reaches node := by
  -- On the way down the tree below changes, as it is closed over what lies above; the depth stays.
  induction depth generalizing n with
  | zero => cases h; exact .refl
  | succ depth ih =>
      cases h with
      | @deeper _ _ m hm h =>
          have hchild : ∃ c ∈ n.children, Within node depth c := by
            rw [children_eq]
            split
            · exact ⟨_, List.mem_map_of_mem hm, h.close hclosed⟩
            · exact ⟨m, hm, h⟩
          obtain ⟨c, hc, hwithin⟩ := hchild
          exact .head hc (ih hwithin)

/-- Closing puts the node where there was a reference. -/
theorem Refers.within_close (h : n.Refers anchor) (node : Node) :
    ∃ depth, Within node depth (Node.close anchor node n) := by
  induction h with
  | here =>
      rw [Node.close, if_pos (beq_self_eq_true _)]
      exact ⟨0, .here⟩
  | inside hanchor hm _ ih =>
      obtain ⟨depth, hwithin⟩ := ih
      refine ⟨depth + 1, .deeper ?_ hwithin⟩
      rw [written_close (isReference_of_mem_written hm) hanchor]
      exact List.mem_map_of_mem hm

/-- A closed collection that is referred to from the inside contains itself. -/
theorem IsClosed.containsItself (hclosed : n.IsClosed) (hanchor : n.anchor? = some anchor)
    (hm : m ∈ n.written) (hrefers : m.Refers anchor) : n.ContainsItself := by
  obtain ⟨depth, hwithin⟩ := hrefers.within_close n
  refine .head' ?_ (reaches_of_within hclosed hwithin)
  rw [Holds, children_eq, hanchor]
  exact List.mem_map_of_mem hm

/-- In a closed tree no node contains itself exactly if no place is left for a collection around
it. -/
theorem IsClosed.isFinite_iff_isAcyclic (hclosed : n.IsClosed) :
    n.isFinite = true ↔ n.IsAcyclic := by
  refine ⟨isAcyclic_of_isFinite, fun hacyclic => ?_⟩
  induction n using induction with
  | reference anchor => exact absurd .here (hclosed anchor)
  | inside n hn ih =>
      have hown : ∀ anchor, n.anchor? = some anchor → ∀ m ∈ n.written, ¬ m.Refers anchor :=
        fun anchor hanchor m hm hrefers =>
          hacyclic n .refl (hclosed.containsItself hanchor hm hrefers)
      refine (isFinite_iff hn).mpr fun m hm => ih m hm ?_ ?_
      · intro anchor hrefers
        exact hclosed anchor (.inside (fun hanchor => hown anchor hanchor m hm hrefers) hm hrefers)
      · refine hacyclic.of_reaches (.single ?_)
        rw [Holds, children_of_not_refers hown]
        exact hm

end TemplateAudit.Yaml.Node
