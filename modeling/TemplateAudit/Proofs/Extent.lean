import Mathlib.Data.List.Basic
import Mathlib.Order.Bounds.Basic
import TemplateAudit.Proofs.Containment
import TemplateAudit.Template.Span

/-!
# TemplateAudit.Proofs.Extent

How far down a node **reaches** (`span_covers_leaves`).

The last line of a tree is computed from the inside: that of a collection is the greatest among what
it holds, and only leaves look at their marks. `exists_lastLine` says what comes out of that: the
greatest line on which a leaf ends that is met on a walk down (`leafLines`). Sequences and mappings
are not told apart, as `written` lists the nodes in both.

From there on only sets of lines are compared. The leaves of what is met on a walk down are leaves
of the whole, and a tree that grows keeps the leaves it has (`Grows.leafLines_subset`).
-/

namespace TemplateAudit.Yaml.Node

variable {n n' m : Node}

/-! ### Leaves -/

/-- The line on which a node without children ends: the one before its end mark's if that mark is at
the start of a line below its first one. -/
def leafEnd (leaf : Node) : Nat :=
  leaf.stop.line + 1 - if leaf.stop.column = 0 ∧ leaf.start.line < leaf.stop.line then 1 else 0

/-- The lines on which the leaves end that are met on a walk down. -/
def leafLines (n : Node) : Set Nat :=
  {line | ∃ leaf, n.Reaches leaf ∧ leaf.children = [] ∧ line = leaf.leafEnd}

theorem leafLines_subset_of_reaches (h : n.Reaches m) : m.leafLines ⊆ n.leafLines := by
  rintro line ⟨leaf, hleaf, hnone, rfl⟩
  exact ⟨leaf, h.trans hleaf, hnone, rfl⟩

theorem leafLines_of_leaf (h : n.children = []) : n.leafLines = {n.leafEnd} := by
  ext line
  constructor
  · rintro ⟨leaf, hleaf, -, rfl⟩
    rcases hleaf.cases_head with rfl | ⟨m, hm, -⟩
    · rfl
    · rw [Holds, h] at hm
      cases hm
  · rintro rfl
    exact ⟨n, .refl, h, rfl⟩

theorem leafLines_of_inner (h : n.children ≠ []) :
    n.leafLines = {line | ∃ m ∈ n.children, line ∈ m.leafLines} := by
  ext line
  constructor
  · rintro ⟨leaf, hleaf, hnone, rfl⟩
    rcases hleaf.cases_head with rfl | ⟨m, hm, hleaf⟩
    · exact absurd hnone h
    · exact ⟨m, hm, leaf, hleaf, hnone, rfl⟩
  · rintro ⟨m, hm, hline⟩
    exact leafLines_subset_of_reaches (.single hm) hline

/-! ### Last lines -/

theorem ownLastLine_eq (n : Node) : ownLastLine n.start n.stop = n.leafEnd := by
  unfold ownLastLine leafEnd
  by_cases h : n.stop.column = 0 ∧ n.start.line < n.stop.line
  · simp [h]
  · simp [h]

/-- Keys and values count like items. -/
theorem lastLineOfEntries?_eq (entries : List (Node × Node)) :
    lastLineOfEntries? entries = lastLineOfItems? (entries.flatMap fun e => [e.1, e.2]) := by
  induction entries with
  | nil => rfl
  | cons entry entries ih =>
      obtain ⟨key, value⟩ := entry
      rw [lastLineOfEntries?, ih, List.flatMap_cons, List.cons_append, List.singleton_append,
        lastLineOfItems?, lastLineOfItems?]
      generalize lastLineOfItems? _ = rest
      cases key.lastLine? <;> cases value.lastLine? <;> cases rest <;> simp [Nat.max_assoc]

theorem lastLine?_of_leaf (hn : n.isReference = false) (h : n.written = []) :
    n.lastLine? = some n.leafEnd := by
  rw [← ownLastLine_eq]
  cases n with
  | scalar => rfl
  | enclosing => cases hn
  | sequence own tag items =>
      cases items with
      | nil => rfl
      | cons => cases h
  | mapping own tag entries =>
      cases entries with
      | nil => rfl
      | cons => cases h

theorem lastLine?_of_inner (h : n.written ≠ []) : n.lastLine? = lastLineOfItems? n.written := by
  cases n with
  | scalar | enclosing => exact absurd rfl h
  | sequence own tag items =>
      cases items with
      | nil => exact absurd rfl h
      | cons => rfl
  | mapping own tag entries =>
      cases entries with
      | nil => exact absurd rfl h
      | cons => exact lastLineOfEntries?_eq _

/-- The last line of some nodes is the greatest of theirs. -/
theorem exists_lastLineOfItems {items : List Node} (hne : items ≠ [])
    (h : ∀ m ∈ items, ∃ line, m.lastLine? = some line ∧ IsGreatest m.leafLines line) :
    ∃ line, lastLineOfItems? items = some line ∧
      IsGreatest {line | ∃ m ∈ items, line ∈ m.leafLines} line := by
  induction items with
  | nil => exact absurd rfl hne
  | cons item items ih =>
      obtain ⟨⟨line, hline, hgreatest⟩, hitems⟩ := List.forall_mem_cons.mp h
      cases items with
      | nil =>
          refine ⟨line, ?_, ?_⟩
          · rw [lastLineOfItems?, hline, lastLineOfItems?]
            exact congrArg some (Nat.max_zero line)
          · simpa using hgreatest
      | cons next items =>
          obtain ⟨rest, hrest, hrestGreatest⟩ := ih (List.cons_ne_nil next items) hitems
          refine ⟨max line rest, ?_, ?_⟩
          · rw [lastLineOfItems?, hline, hrest]
            rfl
          · have hunion : {line | ∃ m ∈ item :: next :: items, line ∈ m.leafLines} =
                item.leafLines ∪ {line | ∃ m ∈ next :: items, line ∈ m.leafLines} := by
              ext x
              exact List.exists_mem_cons_iff ..
            rw [hunion]
            exact hgreatest.union hrestGreatest

/-- A finite tree has a last line, the greatest one on which a leaf of it ends. -/
theorem exists_lastLine (h : n.isFinite = true) :
    ∃ line, n.lastLine? = some line ∧ IsGreatest n.leafLines line := by
  induction n using induction with
  | reference => cases h
  | inside n hn ih =>
      have hchildren := children_of_isFinite hn h
      by_cases hleaf : n.written = []
      · refine ⟨n.leafEnd, lastLine?_of_leaf hn hleaf, ?_⟩
        rw [leafLines_of_leaf (hchildren.trans hleaf)]
        exact isGreatest_singleton
      · have hinside := exists_lastLineOfItems hleaf fun m hm =>
          ih m hm ((isFinite_iff hn).mp h m hm)
        rwa [← lastLine?_of_inner hleaf, ← hchildren,
          ← leafLines_of_inner (by rwa [hchildren])] at hinside

/-! ### Growing -/

/-- A tree grows at one place: a node is put into a sequence of its own, or a collection that is not
empty gets more children, wherever among those that it has. -/
inductive Grows : Node → Node → Prop
  | wrapped (n : Node) (own : Option String) (tag : String) (start stop : Mark) :
      Grows n (.sequence own tag [n] start stop)
  | items {own : Option String} {tag : String} {items items' : List Node} {start stop stop' : Mark}
      (hne : items ≠ []) (h : items.Sublist items') :
      Grows (.sequence own tag items start stop) (.sequence own tag items' start stop')
  | entries {own : Option String} {tag : String} {entries entries' : List (Node × Node)}
      {start stop stop' : Mark} (hne : entries ≠ []) (h : entries.Sublist entries') :
      Grows (.mapping own tag entries start stop) (.mapping own tag entries' start stop')
  | item {own : Option String} {tag : String} {before after : List Node} {m m' : Node}
      {start stop : Mark} (h : Grows m m') :
      Grows (.sequence own tag (before ++ m :: after) start stop)
        (.sequence own tag (before ++ m' :: after) start stop)
  | key {own : Option String} {tag : String} {before after : List (Node × Node)}
      {k k' v : Node} {start stop : Mark} (h : Grows k k') :
      Grows (.mapping own tag (before ++ (k, v) :: after) start stop)
        (.mapping own tag (before ++ (k', v) :: after) start stop)
  | value {own : Option String} {tag : String} {before after : List (Node × Node)}
      {k v v' : Node} {start stop : Mark} (h : Grows v v') :
      Grows (.mapping own tag (before ++ (k, v) :: after) start stop)
        (.mapping own tag (before ++ (k, v') :: after) start stop)

theorem mem_replaced {α : Type} {before after : List α} {x y z : α} (h : z ∈ before ++ x :: after) :
    z = x ∨ z ∈ before ++ y :: after := by
  rw [List.mem_append, List.mem_cons, or_left_comm] at h
  exact h.imp_right fun h => List.mem_append.mpr (h.imp_right (List.mem_cons_of_mem y))

namespace Grows

/-- Keys and values that stay or grow with their entries. -/
theorem of_entries {entries entries' : List (Node × Node)}
    (h : ∀ e ∈ entries, ∃ e' ∈ entries',
      (e.1 = e'.1 ∨ Grows e.1 e'.1) ∧ (e.2 = e'.2 ∨ Grows e.2 e'.2)) :
    ∀ m ∈ entries.flatMap fun e => [e.1, e.2],
      ∃ m' ∈ entries'.flatMap fun e => [e.1, e.2], m = m' ∨ Grows m m' := by
  refine forall_mem_flatMap_pair.mpr fun e he => ?_
  obtain ⟨e', he', hkey, hvalue⟩ := h e he
  exact ⟨⟨e'.1, mem_flatMap_pair.mpr ⟨e', he', .inl rfl⟩, hkey⟩,
    ⟨e'.2, mem_flatMap_pair.mpr ⟨e', he', .inr rfl⟩, hvalue⟩⟩

/-- A node that grows is put into a sequence, or each of its children is still there or has
grown. -/
theorem inv (h : Grows n n') :
    (∃ own tag start stop, n' = .sequence own tag [n] start stop) ∨
      (n.written ≠ [] ∧ ∀ m ∈ n.written, ∃ m' ∈ n'.written, m = m' ∨ Grows m m') := by
  cases h with
  | wrapped _ own tag start stop => exact .inl ⟨own, tag, start, stop, rfl⟩
  | items hne h => exact .inr ⟨hne, fun m hm => ⟨m, h.subset hm, .inl rfl⟩⟩
  | @entries _ _ entries entries' _ _ _ hne h =>
      refine .inr ⟨?_, of_entries fun e he => ⟨e, h.subset he, .inl rfl, .inl rfl⟩⟩
      obtain ⟨e, entries, rfl⟩ := List.exists_cons_of_ne_nil hne
      exact List.cons_ne_nil _ _
  | @item _ _ before after m m' _ _ h =>
      refine .inr ⟨by simp [written], fun x hx => ?_⟩
      rcases mem_replaced (y := m') hx with rfl | hx
      · exact ⟨m', by simp [written], .inr h⟩
      · exact ⟨x, hx, .inl rfl⟩
  | @key _ _ before after k k' v _ _ h =>
      refine .inr ⟨by simp [written], of_entries fun e he => ?_⟩
      rcases mem_replaced (y := (k', v)) he with rfl | he
      · exact ⟨(k', v), by simp, .inr h, .inl rfl⟩
      · exact ⟨e, he, .inl rfl, .inl rfl⟩
  | @value _ _ before after k v v' _ _ h =>
      refine .inr ⟨by simp [written], of_entries fun e he => ?_⟩
      rcases mem_replaced (y := (k, v')) he with rfl | he
      · exact ⟨(k, v'), by simp, .inl rfl, .inr h⟩
      · exact ⟨e, he, .inl rfl, .inl rfl⟩

/-- What grew to a finite tree was one. -/
theorem isFinite (h : Grows n n') (h' : n'.isFinite = true) : n.isFinite = true := by
  induction n using induction generalizing n' with
  | reference anchor =>
      rcases h.inv with ⟨own, tag, start, stop, rfl⟩ | ⟨hne, -⟩
      · exact (isFinite_iff rfl).mp h' _ (List.mem_singleton_self _)
      · exact absurd rfl hne
  | inside n hn ih =>
      rcases h.inv with ⟨own, tag, start, stop, rfl⟩ | ⟨-, hinside⟩
      · exact (isFinite_iff rfl).mp h' n (List.mem_singleton_self n)
      · refine (isFinite_iff hn).mpr fun m hm => ?_
        obtain ⟨m', hm', hstep⟩ := hinside m hm
        have hfinite := (isFinite_iff (isReference_of_mem_written hm')).mp h' m' hm'
        rcases hstep with rfl | hgrows
        · exact hfinite
        · exact ih m hm hgrows hfinite

/-- A finite tree that grew has the leaves that it had. -/
theorem leafLines_subset (h : Grows n n') (h' : n'.isFinite = true) :
    n.leafLines ⊆ n'.leafLines := by
  have hfinite := h.isFinite h'
  -- on the tree before it grew: a step inside it is a step of one of its children
  induction n using induction generalizing n' with
  | reference => cases hfinite
  | inside n hn ih =>
      rcases h.inv with ⟨own, tag, start, stop, rfl⟩ | ⟨hne, hinside⟩
      · refine leafLines_subset_of_reaches (.single ?_)
        rw [Holds, children_of_isFinite rfl h']
        exact List.mem_singleton_self n
      · -- a collection that grew is no leaf, so only what it holds counts, before and after
        rw [← children_of_isFinite hn hfinite] at hne
        rw [leafLines_of_inner hne, children_of_isFinite hn hfinite]
        rintro line ⟨m, hm, hline⟩
        obtain ⟨m', hm', hstep⟩ := hinside m hm
        have hn' := isReference_of_mem_written hm'
        have hline' : line ∈ m'.leafLines := by
          rcases hstep with rfl | hgrows
          · exact hline
          · have hm'finite := (isFinite_iff hn').mp h' m' hm'
            exact ih m hm hgrows hm'finite (hgrows.isFinite hm'finite) hline
        refine leafLines_subset_of_reaches (.single ?_) hline'
        rwa [Holds, children_of_isFinite hn' h']

/-- So it is after any number of steps. -/
theorem leafLines_subset_of_run (h : Relation.ReflTransGen Grows n n') (h' : n'.isFinite = true) :
    n.leafLines ⊆ n'.leafLines := by
  induction h with
  | refl => exact Set.Subset.rfl
  | tail _ hstep ih => exact (ih (hstep.isFinite h')).trans (hstep.leafLines_subset h')

end Grows

/-! ### Spans -/

theorem spanFrom?_eq {line : Nat} (h : n.lastLine? = some line) (anchor : Node) :
    n.spanFrom? anchor =
      some { first := anchor.start.line + 1, last := max (anchor.start.line + 1) line } := by
  rw [spanFrom?, h]
  rfl

/-- The lines of a node in which no node contains itself, from the line of a key if there is one and
else from its own. They go down to the greatest line on which a leaf ends that is met on a walk
down, or to the first line if that is further down. So

* nothing that is met on the way ends below them;
* as long as the anchor stays, they go down at least as far when the tree has grown, in any number
  of places: by nodes put into sequences of their own and by more children of collections that were
  not empty. -/
theorem span_covers_leaves (node : Node) (key : Option Node) (hclosed : node.IsClosed)
    (hacyclic : node.IsAcyclic) :
    let anchor := key.getD node
    ∃ first last deepest,
      key.elim node.span? node.spanFrom? = some { first, last } ∧
      first = anchor.start.line + 1 ∧ first ≤ last ∧ last = max first deepest ∧
      IsGreatest node.leafLines deepest ∧
      (∀ inner, node.Reaches inner → ∃ line, inner.lastLine? = some line ∧ line ≤ last) ∧
      ∀ node', Relation.ReflTransGen Grows node node' → node'.IsClosed → node'.IsAcyclic →
        ∃ last', node'.spanFrom? anchor = some { first, last := last' } ∧ last ≤ last' := by
  intro anchor
  have hfinite := hclosed.isFinite_iff_isAcyclic.mpr hacyclic
  obtain ⟨deepest, hline, hgreatest⟩ := exists_lastLine hfinite
  refine ⟨_, _, deepest, ?_, rfl, Nat.le_max_left _ _, rfl, hgreatest, ?_, ?_⟩
  · cases key with
    | none => exact spanFrom?_eq hline node
    | some key => exact spanFrom?_eq hline key
  · intro inner hinner
    have hinnerFinite := isFinite_of_reaches hfinite hinner
    obtain ⟨line, hinnerLine, hinnerGreatest⟩ := exists_lastLine hinnerFinite
    refine ⟨line, hinnerLine, Nat.le_trans ?_ (Nat.le_max_right _ _)⟩
    exact hinnerGreatest.mono hgreatest (leafLines_subset_of_reaches hinner)
  · intro node' hgrown hclosed' hacyclic'
    have hfinite' := hclosed'.isFinite_iff_isAcyclic.mpr hacyclic'
    obtain ⟨deepest', hline', hgreatest'⟩ := exists_lastLine hfinite'
    have hle : deepest ≤ deepest' :=
      hgreatest.mono hgreatest' (Grows.leafLines_subset_of_run hgrown hfinite')
    exact ⟨_, spanFrom?_eq hline' anchor, by omega⟩

/-- An entry with a text that starts on a line and stops at the start of another one. -/
def noteOn (first stop : Nat) : Node × Node :=
  (.scalar "tag:yaml.org,2002:str" "Note" ⟨0, first, 2⟩ ⟨0, first, 6⟩,
    .scalar "tag:yaml.org,2002:str" "text" ⟨0, first, 8⟩ ⟨0, stop, 0⟩)

/-- A mapping that is said to stop far below its entries. -/
def notesOf (entries : List (Node × Node)) : Node :=
  .mapping none "tag:yaml.org,2002:map" entries ⟨0, 3, 2⟩ ⟨0, 20, 0⟩

theorem span_covers_leaves_notes :
    let node := notesOf [noteOn 3 6]
    let node' := notesOf [noteOn 3 6, noteOn 7 9]
    let key : Node := .scalar "tag:yaml.org,2002:str" "Notes" ⟨0, 2, 0⟩ ⟨0, 2, 5⟩
    node.IsClosed ∧ node.IsAcyclic ∧ Grows node node' ∧
      node.spanFrom? key = some { first := 3, last := 6 } ∧ IsGreatest node.leafLines 6 ∧
      ∃ last', node'.spanFrom? key = some { first := 3, last := last' } ∧ 6 ≤ last' := by
  intro node node' key
  have hfinite : node.isFinite = true := rfl
  have hfinite' : node'.isFinite = true := rfl
  have hclosed : node.IsClosed := fun _ => not_refers_of_isFinite hfinite
  have hacyclic : node.IsAcyclic := isAcyclic_of_isFinite hfinite
  have hgrows : Grows node node' :=
    .entries (List.cons_ne_nil _ _) ((List.nil_sublist _).cons_cons _)
  obtain ⟨first, last, deepest, hspan, hfirst, -, hlast, hgreatest, -, hgrown⟩ :=
    span_covers_leaves node (some key) hclosed hacyclic
  obtain ⟨rfl, rfl⟩ : 3 = first ∧ 6 = last := Span.mk.inj (Option.some.inj hspan)
  obtain rfl : deepest = 6 := by omega
  exact ⟨hclosed, hacyclic, hgrows, hspan, hgreatest,
    hgrown node' (.single hgrows) (fun _ => not_refers_of_isFinite hfinite')
      (isAcyclic_of_isFinite hfinite')⟩

end TemplateAudit.Yaml.Node
