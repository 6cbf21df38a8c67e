import TemplateAudit.Proofs.Containment
import TemplateAudit.Yaml.Node.Reader

/-!
# TemplateAudit.Proofs.Anchors

What anchors stand for while a document is read.

A node that was read may hold `enclosing` places for collections that are not yet read to their end.
The invariant is about the list of anchors (`Scoped`): all that a known node refers to is awaited,
that is, a collection that is still open and that an alias is known to name. A step of the reader
only adds nodes that are known to their end and notes aliases (`Grows`), so what was awaited stays
so.

The end of a collection is where this is at stake. The collection takes its own anchor if an alias
was noted, and all nodes that were made known since its start are closed over it; after that nothing
refers to it any more (`Scoped.complete`). Everything else is put together from steps, by the
rules for `Keeps` and `Yields`.
-/

namespace TemplateAudit.Yaml

open Node (isClosed_scalar)

/-! ### What is awaited -/

/-- A collection with an anchor is still open, and an alias inside of it names it. -/
def Awaited (as : List Anchored) (name : String) : Prop :=
  ∃ a ∈ as, a.name = name ∧ a.node.isReference = true ∧ a.inside = true

/-- All that a node refers to is awaited. -/
def InScope (as : List Anchored) (n : Node) : Prop := ∀ name, n.Refers name → Awaited as name

/-- The anchors of a reader, as they are at any time. -/
structure Scoped (as : List Anchored) : Prop where
  nodup : (as.map Anchored.name).Nodup
  /-- A collection that is still open stands for itself. -/
  own : ∀ a ∈ as, a.node.isReference = true → a.node = .enclosing a.name
  inScope : ∀ a ∈ as, a.node.isReference = false → InScope as a.node

/-- What an anchor stands for, with the aliases noted that name one of some anchors. -/
def Anchored.mark (p : String → Bool) (a : Anchored) : Anchored :=
  { a with inside := a.inside || p a.name }

/-- Aliases were noted, and nodes were made known to their end. -/
def Grows (as as' : List Anchored) : Prop :=
  ∃ newer p, (∀ a ∈ newer, a.node.isReference = false) ∧ as' = newer ++ as.map (Anchored.mark p)

variable {as as' newer older : List Anchored} {name : String} {p : String → Bool} {n : Node}

theorem Awaited.of_subset (h : Awaited as name) (hsub : as ⊆ as') : Awaited as' name := by
  obtain ⟨a, ha, hname, hopen, hinside⟩ := h
  exact ⟨a, hsub ha, hname, hopen, hinside⟩

theorem Awaited.mark (h : Awaited as name) (p : String → Bool) :
    Awaited (as.map (Anchored.mark p)) name := by
  obtain ⟨a, ha, hname, hopen, hinside⟩ := h
  refine ⟨a.mark p, List.mem_map_of_mem ha, hname, hopen, ?_⟩
  rw [Anchored.mark, hinside, Bool.true_or]

theorem InScope.of_subset (h : InScope as n) (hsub : as ⊆ as') : InScope as' n :=
  fun name hrefers => (h name hrefers).of_subset hsub

theorem InScope.of_isClosed (h : n.IsClosed) : InScope as n :=
  fun name hrefers => absurd hrefers (h name)

/-- What is known to its end is not awaited. -/
theorem Awaited.of_append (h : Awaited (newer ++ older) name)
    (hnewer : ∀ a ∈ newer, a.node.isReference = false) : Awaited older name := by
  obtain ⟨a, ha, hname, hopen, hinside⟩ := h
  rcases List.mem_append.mp ha with ha | ha
  · rw [hnewer a ha] at hopen
    cases hopen
  · exact ⟨a, ha, hname, hopen, hinside⟩

namespace Grows

theorem refl (as : List Anchored) : Grows as as := by
  refine ⟨[], fun _ => false, by simp, ?_⟩
  have hmark : Anchored.mark (fun _ => false) = id := by
    funext a
    simp [Anchored.mark]
  rw [hmark, List.map_id, List.nil_append]

theorem trans {as₁ as₂ as₃ : List Anchored} (h₁ : Grows as₁ as₂) (h₂ : Grows as₂ as₃) :
    Grows as₁ as₃ := by
  obtain ⟨newer₁, p₁, hnewer₁, rfl⟩ := h₁
  obtain ⟨newer₂, p₂, hnewer₂, rfl⟩ := h₂
  refine ⟨newer₂ ++ newer₁.map (Anchored.mark p₂), fun name => p₁ name || p₂ name, ?_, ?_⟩
  · intro a ha
    rcases List.mem_append.mp ha with ha | ha
    · exact hnewer₂ a ha
    · obtain ⟨b, hb, rfl⟩ := List.mem_map.mp ha
      exact hnewer₁ b hb
  · have hmark : Anchored.mark p₂ ∘ Anchored.mark p₁ =
        Anchored.mark fun name => p₁ name || p₂ name := by
      funext a
      simp [Anchored.mark, Bool.or_assoc]
    rw [List.map_append, List.map_map, hmark, List.append_assoc]

theorem awaited (h : Grows as as') (hname : Awaited as name) : Awaited as' name := by
  obtain ⟨newer, p, _, rfl⟩ := h
  exact (hname.mark p).of_subset (List.subset_append_right _ _)

theorem inScope (h : Grows as as') (hn : InScope as n) : InScope as' n :=
  fun name hrefers => h.awaited (hn name hrefers)

/-- At the end of a document nothing is awaited. -/
theorem not_awaited (h : Grows [] as) : ¬ Awaited as name := by
  obtain ⟨newer, p, hnewer, rfl⟩ := h
  intro hname
  obtain ⟨a, ha, _⟩ := hname.of_append hnewer
  cases ha

theorem append (h : Grows as as') (hnewer : ∀ a ∈ newer, a.node.isReference = false) :
    Grows as (newer ++ as') := by
  obtain ⟨more, p, hmore, rfl⟩ := h
  refine ⟨newer ++ more, p, ?_, (List.append_assoc ..).symm⟩
  exact List.forall_mem_append.mpr ⟨hnewer, hmore⟩

theorem mark (as : List Anchored) (p : String → Bool) : Grows as (as.map (Anchored.mark p)) :=
  ⟨[], p, by simp, rfl⟩

end Grows

/-- Notes of aliases leave the anchors in order. -/
theorem Scoped.mark (h : Scoped as) (p : String → Bool) : Scoped (as.map (Anchored.mark p)) where
  nodup := by
    rw [List.map_map]
    exact h.nodup
  own := by
    intro b hb
    obtain ⟨a, ha, rfl⟩ := List.mem_map.mp hb
    exact h.own a ha
  inScope := by
    intro b hb hdone
    obtain ⟨a, ha, rfl⟩ := List.mem_map.mp hb
    exact (Grows.mark as p).inScope (h.inScope a ha hdone)

/-- An alias to a collection that is still open is in scope once it is noted. -/
theorem Scoped.inScope_mark {a : Anchored} (h : Scoped as) (ha : a ∈ as)
    (hopen : a.node.isReference = true) :
    InScope (as.map (Anchored.mark (· == a.name))) a.node := by
  intro name hrefers
  rw [h.own a ha hopen, Node.refers_enclosing_iff] at hrefers
  refine ⟨a.mark (· == a.name), List.mem_map_of_mem ha, hrefers, hopen, ?_⟩
  rw [Anchored.mark, beq_self_eq_true, Bool.or_true]

theorem map_inside_eq_mark (name : String) (as : List Anchored) :
    (as.map fun a => if a.name == name then { a with inside := true } else a) =
      as.map (Anchored.mark (· == name)) := by
  refine List.map_congr_left fun a _ => ?_
  rw [Anchored.mark]
  cases a.name == name <;> simp

/-- Nodes made known to their end under new anchors. -/
theorem Scoped.append (h : Scoped older)
    (hnewer : ∀ a ∈ newer, a.node.isReference = false ∧ InScope older a.node)
    (hnodup : ((newer ++ older).map Anchored.name).Nodup) : Scoped (newer ++ older) where
  nodup := hnodup
  own := by
    intro a ha hopen
    rcases List.mem_append.mp ha with ha | ha
    · rw [(hnewer a ha).1] at hopen
      cases hopen
    · exact h.own a ha hopen
  inScope := by
    intro a ha hdone
    refine InScope.of_subset ?_ (List.subset_append_right newer older)
    rcases List.mem_append.mp ha with ha | ha
    · exact (hnewer a ha).2
    · exact h.inScope a ha hdone

theorem Scoped.nodup_cons {a : Anchored} (h : Scoped as) (hnew : ∀ b ∈ as, b.name ≠ a.name) :
    ((a :: as).map Anchored.name).Nodup := by
  rw [List.map_cons, List.nodup_cons, List.mem_map]
  exact ⟨fun ⟨b, hb, hname⟩ => hnew b hb hname, h.nodup⟩

/-- A scalar under a new anchor. -/
theorem Scoped.register {a : Anchored} (h : Scoped as) (hnew : ∀ b ∈ as, b.name ≠ a.name)
    (hdone : a.node.isReference = false) (hclosed : a.node.IsClosed) :
    Scoped (a :: as) ∧ Grows as (a :: as) := by
  rw [← List.singleton_append]
  constructor
  · exact h.append (List.forall_mem_singleton.mpr ⟨hdone, .of_isClosed hclosed⟩)
      (h.nodup_cons hnew)
  · exact (Grows.refl as).append (List.forall_mem_singleton.mpr hdone)

/-- An anchor whose collection is about to be read. -/
def Anchored.opened (name : String) (start : Mark) : Anchored :=
  { name, start, node := .enclosing name, inside := false }

theorem Scoped.open (h : Scoped as) (hnew : ∀ a ∈ as, a.name ≠ name) (start : Mark) :
    Scoped (.opened name start :: as) where
  nodup := h.nodup_cons hnew
  own := List.forall_mem_cons.mpr ⟨fun _ => rfl, h.own⟩
  inScope := by
    intro a ha hdone
    rcases List.mem_cons.mp ha with rfl | ha
    · cases hdone
    · exact (h.inScope a ha hdone).of_subset (List.subset_cons_self _ _)

/-! ### The end of a collection -/

/-- A collection, `make` of its anchor or of none, around some nodes. -/
structure IsCollection (make : Option String → Node) (inner : List Node) : Prop where
  isReference : ∀ anchor, (make anchor).isReference = false
  anchor? : ∀ anchor, (make anchor).anchor? = anchor
  written : ∀ anchor, (make anchor).written = inner

/-- A collection refers to what the nodes inside of it refer to, but for itself. -/
theorem IsCollection.exists_refers {make : Option String → Node} {inner : List Node}
    (hmake : IsCollection make inner) {anchor : Option String} (h : (make anchor).Refers name) :
    anchor ≠ some name ∧ ∃ m ∈ inner, m.Refers name := by
  rwa [Node.refers_iff (hmake.isReference anchor), hmake.anchor?, hmake.written] at h

namespace Anchored

/-- The collection that an anchor was opened for, once it is read to its end. -/
def collection (own : Anchored) (make : Option String → Node) : Node :=
  make (if own.inside then some own.name else none)

/-- What an anchor stands for, closed over a collection if that one keeps its anchor. -/
def closedOver (name : String) (node : Node) (a : Anchored) : Anchored :=
  if node.anchor?.isSome then { a with node := .close name node a.node } else a

theorem name_closedOver (name : String) (node : Node) (a : Anchored) :
    (a.closedOver name node).name = a.name := by
  rw [closedOver]
  split <;> rfl

theorem isReference_closedOver {a : Anchored} {node : Node} (h : a.node.isReference = false) :
    (a.closedOver name node).node.isReference = false := by
  rw [closedOver]
  split
  · exact Node.isReference_close h
  · exact h

/-- The anchors since the start of a collection, its own one the first of them, once it is read to
its end. -/
def completed (own : Anchored) (make : Option String → Node) (newer : List Anchored) :
    List Anchored :=
  newer.map (closedOver own.name (own.collection make)) ++
    [{ own with node := own.collection make }]

end Anchored

section Completion

variable {own : Anchored} {make : Option String → Node} {inner : List Node}

theorem NodeReader.completeIn_append (hnewer : ∀ a ∈ newer, a.name ≠ own.name) :
    completeIn own.name make (newer ++ own :: older) =
      (own.completed make newer ++ older, own.collection make) := by
  induction newer with
  | nil =>
      rw [List.nil_append, completeIn, if_pos (beq_self_eq_true _)]
      rfl
  | cons a newer ih =>
      obtain ⟨ha, hnewer⟩ := List.forall_mem_cons.mp hnewer
      rw [List.cons_append, completeIn, if_neg (by simpa using ha), ih hnewer]
      simp only [Anchored.completed, Anchored.closedOver, List.map_cons, List.cons_append]
      generalize own.collection make = node
      cases node with
      | scalar | enclosing => rfl
      | sequence anchor | mapping anchor => cases anchor <;> rfl

/-- All that is awaited at the end of a collection is the collection itself, if an alias named it,
and what was so before. -/
theorem Awaited.of_inside (h : Awaited (newer ++ own :: older) name)
    (hnewer : ∀ a ∈ newer, a.node.isReference = false) :
    (name = own.name ∧ own.inside = true) ∨ Awaited older name := by
  obtain ⟨a, ha, hname, hopen, hinside⟩ := h.of_append hnewer
  rcases List.mem_cons.mp ha with rfl | ha
  · exact .inl ⟨hname.symm, hinside⟩
  · exact .inr ⟨a, ha, hname, hopen, hinside⟩

/-- A collection that is read to its end refers to what lies around it, not to itself. -/
theorem IsCollection.inScope_collection (hmake : IsCollection make inner)
    (hnewer : ∀ a ∈ newer, a.node.isReference = false)
    (hinner : ∀ m ∈ inner, InScope (newer ++ own :: older) m) :
    InScope older (own.collection make) := by
  intro name hrefers
  obtain ⟨hanchor, m, hm, hrefers⟩ := hmake.exists_refers hrefers
  rcases (hinner m hm name hrefers).of_inside hnewer with ⟨rfl, hinside⟩ | hname
  · rw [if_pos hinside] at hanchor
    exact absurd rfl hanchor
  · exact hname

/-- Nor does what was made known inside of it, once that is closed over it. -/
theorem IsCollection.inScope_closedOver (hmake : IsCollection make inner) {a : Anchored}
    (hnewer : ∀ a ∈ newer, a.node.isReference = false)
    (hnode : InScope older (own.collection make)) (ha : InScope (newer ++ own :: older) a.node) :
    InScope older (a.closedOver own.name (own.collection make)).node := by
  intro name hrefers
  rw [Anchored.closedOver, Anchored.collection, hmake.anchor?] at hrefers
  cases hinside : own.inside with
  | true =>
      rw [Anchored.collection, hinside] at hnode
      rw [hinside] at hrefers
      rcases hrefers.of_close with ⟨hne, hrefers⟩ | hrefers
      · exact ((ha name hrefers).of_inside hnewer).resolve_left fun h => hne h.1
      · exact hnode name hrefers
  | false =>
      rw [hinside] at hrefers
      refine ((ha name hrefers).of_inside hnewer).resolve_left fun h => ?_
      rw [hinside] at h
      cases h.2

/-- The end of a collection leaves the anchors in order. -/
theorem Scoped.completed (h : Scoped (newer ++ own :: older)) (holder : Scoped older)
    (hnewer : ∀ a ∈ newer, a.node.isReference = false) (hmake : IsCollection make inner)
    (hnode : InScope older (own.collection make)) :
    Scoped (own.completed make newer ++ older) ∧
      ∀ a ∈ own.completed make newer, a.node.isReference = false := by
  have hknown : ∀ a ∈ own.completed make newer,
      a.node.isReference = false ∧ InScope older a.node := by
    intro b hb
    rcases List.mem_append.mp hb with hb | hb
    · obtain ⟨a, ha, rfl⟩ := List.mem_map.mp hb
      have hscope := h.inScope a (List.mem_append_left _ ha) (hnewer a ha)
      exact ⟨Anchored.isReference_closedOver (hnewer a ha),
        hmake.inScope_closedOver hnewer hnode hscope⟩
    · rw [List.mem_singleton.mp hb]
      exact ⟨hmake.isReference _, hnode⟩
  refine ⟨holder.append hknown ?_, fun a ha => (hknown a ha).1⟩
  -- The names are those from before the end.
  have hnames : (own.completed make newer ++ older).map Anchored.name =
      (newer ++ own :: older).map Anchored.name := by
    simp [Anchored.completed, Anchored.name_closedOver, Function.comp_def]
  rw [hnames]
  exact h.nodup

/-- The end of a collection, with all that was read since its start. -/
theorem Scoped.complete {start : Mark} (h : Scoped as)
    (hgrows : Grows (.opened name start :: as) as') (h' : Scoped as')
    (hmake : IsCollection make inner) (hinner : ∀ m ∈ inner, InScope as' m) :
    let done := NodeReader.completeIn name make as'
    Scoped done.1 ∧ Grows as done.1 ∧ InScope done.1 done.2 := by
  obtain ⟨newer, p, hnewer, rfl⟩ := hgrows
  rw [List.map_cons] at h' hinner ⊢
  have hfresh : ∀ a ∈ newer, a.name ≠ ((Anchored.opened name start).mark p).name := by
    have hnames := h'.nodup
    rw [List.map_append, List.map_cons, List.nodup_append] at hnames
    exact fun a ha => hnames.2.2 a.name (List.mem_map_of_mem ha) _ List.mem_cons_self
  have hnode := hmake.inScope_collection hnewer hinner
  obtain ⟨hscoped, hknown⟩ := h'.completed (h.mark p) hnewer hmake hnode
  intro done
  have hdone : done = (Anchored.completed _ make newer ++ as.map (Anchored.mark p), _) :=
    NodeReader.completeIn_append hfresh
  rw [hdone]
  exact ⟨hscoped, (Grows.mark as p).append hknown,
    hnode.of_subset (List.subset_append_right _ _)⟩

end Completion

/-! ### Steps that keep the anchors -/

namespace NodeReader

variable {α β : Type} {m : ReadM α} {f : α → ReadM β}

/-- A run of two steps is a run of each. -/
theorem bind_inv {r r₂ : NodeReader} {y : β} (h : (m >>= f).run r = .ok (y, r₂)) :
    ∃ x r₁, m.run r = .ok (x, r₁) ∧ (f x).run r₁ = .ok (y, r₂) := by
  rw [StateT.run_bind] at h
  cases hm : m.run r with
  | error fault => rw [hm] at h; cases h
  | ok done => rw [hm] at h; exact ⟨done.1, done.2, rfl, h⟩

/-- A step leaves the anchors as they are. -/
def Keeps (m : ReadM α) : Prop := ∀ r x r', m.run r = .ok (x, r') → r'.anchors = r.anchors

namespace Keeps

theorem bind (hm : Keeps m) (hf : ∀ x, Keeps (f x)) : Keeps (m >>= f) := by
  intro r y r₂ h
  obtain ⟨x, r₁, h₁, h₂⟩ := bind_inv h
  rw [hf x r₁ y r₂ h₂, hm r x r₁ h₁]

theorem pure (x : α) : Keeps (Pure.pure x : ReadM α) := by
  rintro r _ _ ⟨⟩
  rfl

theorem throw (fault : Fault) : Keeps (throw fault : ReadM α) := by
  rintro _ _ _ ⟨⟩

theorem get : Keeps (get : ReadM NodeReader) := by
  rintro r _ _ ⟨⟩
  rfl

theorem peek : Keeps peek := by
  refine bind get fun r => ?_
  split
  case h_1 => exact pure _
  case h_2 =>
      cases r.final with
      | ok t => exact pure t
      | error fault => exact throw fault

theorem take : Keeps take := by
  refine bind peek fun t => bind ?_ fun _ => pure t
  rintro r _ _ ⟨⟩
  rfl

theorem at? (p : TokenKind → Bool) : Keeps (at? p) := bind peek fun _ => pure _

theorem resolveHandle {handle : Option String} {suffix : String} {start tagMark : Mark} :
    Keeps (resolveHandle handle suffix start tagMark) := by
  cases handle with
  | none => exact pure _
  | some h =>
      refine bind get fun r => ?_
      split
      · exact pure _
      · exact throw _

theorem properties : Keeps properties := by
  refine bind peek fun t => ?_
  -- An anchor first, a tag first, or neither.
  split
  case h_1 =>
      refine bind take fun _ => bind peek fun u => ?_
      split
      · exact bind take fun _ => bind resolveHandle fun _ => pure _
      · exact pure _
  case h_2 =>
      refine bind take fun _ => bind peek fun u => ?_
      split
      · exact bind take fun _ => bind resolveHandle fun _ => pure _
      · exact bind resolveHandle fun _ => pure _
  case h_3 => exact pure _

end Keeps

/-! ### Steps that yield nodes -/

/-- A step leaves the anchors in order, and all parts of what it gives are in scope after it, if
the nodes known before it were. -/
def Yields (known : List Node) (m : ReadM α) (parts : α → List Node) : Prop :=
  ∀ r x r', m.run r = .ok (x, r') → Scoped r.anchors → (∀ n ∈ known, InScope r.anchors n) →
    Scoped r'.anchors ∧ Grows r.anchors r'.anchors ∧ ∀ n ∈ parts x, InScope r'.anchors n

namespace Yields

variable {known : List Node} {parts : α → List Node} {parts' : β → List Node}

theorem bind (hm : Yields known m parts) (hf : ∀ x, Yields (parts x ++ known) (f x) parts') :
    Yields known (m >>= f) parts' := by
  intro r y r₂ h hscoped hknown
  obtain ⟨x, r₁, h₁, h₂⟩ := bind_inv h
  obtain ⟨hscoped₁, hgrows₁, hparts₁⟩ := hm r x r₁ h₁ hscoped hknown
  have hknown₁ : ∀ n ∈ known, InScope r₁.anchors n := fun n hn => hgrows₁.inScope (hknown n hn)
  obtain ⟨hscoped₂, hgrows₂, hparts₂⟩ :=
    hf x r₁ y r₂ h₂ hscoped₁ (List.forall_mem_append.mpr ⟨hparts₁, hknown₁⟩)
  exact ⟨hscoped₂, hgrows₁.trans hgrows₂, hparts₂⟩

/-- A step that keeps the anchors may come first. -/
theorem after (hm : Keeps m) (hf : ∀ x, Yields known (f x) parts') :
    Yields known (m >>= f) parts' := by
  intro r y r₂ h hscoped hknown
  obtain ⟨x, r₁, h₁, h₂⟩ := bind_inv h
  have hsame := hm r x r₁ h₁
  rw [← hsame] at hscoped hknown ⊢
  exact hf x r₁ y r₂ h₂ hscoped hknown

/-- It may also be left out. -/
theorem afterIf {c : Prop} [Decidable c] {rest : ReadM β} (hm : Keeps m)
    (hrest : Yields known rest parts') :
    Yields known (if c then m >>= fun _ => rest else rest) parts' := by
  split
  · exact after hm fun _ => hrest
  · exact hrest

/-- What refers to no more than known nodes do. -/
theorem pure_of_refers {x : α}
    (h : ∀ n ∈ parts x, ∀ name, n.Refers name → ∃ k ∈ known, k.Refers name) :
    Yields known (pure x) parts := by
  rintro r _ _ ⟨⟩ hscoped hknown
  refine ⟨hscoped, .refl _, fun n hn name hrefers => ?_⟩
  obtain ⟨k, hk, hrefers⟩ := h n hn name hrefers
  exact hknown k hk name hrefers

/-- Known nodes. -/
theorem pure {x : α} (h : parts x ⊆ known) : Yields known (pure x) parts :=
  pure_of_refers fun n hn _ hrefers => ⟨n, h hn, hrefers⟩

/-- A closed node may be taken as known. -/
theorem of_closed {n : Node} (hn : n.IsClosed) (h : Yields (n :: known) m parts) :
    Yields known m parts := fun r x r' hrun hscoped hknown =>
  h r x r' hrun hscoped (List.forall_mem_cons.mpr ⟨.of_isClosed hn, hknown⟩)

theorem pure_closed {n : Node} (hn : n.IsClosed) : Yields known (Pure.pure n) ([·]) :=
  of_closed hn (pure (List.cons_subset_cons n (List.nil_subset _)))

theorem throw (fault : Fault) : Yields known (throw fault : ReadM α) parts := by
  rintro _ _ _ ⟨⟩

end Yields

/-! ### Anchors and aliases -/

/-- An anchor that passes is new. -/
theorem checkAnchor_inv {p : Properties} {start : Mark} {r r' : NodeReader} {u : Unit}
    (h : (checkAnchor p start).run r = .ok (u, r')) :
    r' = r ∧ ∀ name, p.anchor = some name → ∀ a ∈ r.anchors, a.name ≠ name := by
  rcases p with ⟨_ | name, tag, place⟩
  · cases h
    exact ⟨rfl, fun _ hnone => nomatch hnone⟩
  · obtain ⟨_, r₁, hget, h⟩ := bind_inv h
    cases hget
    split at h
    case h_1 => cases h
    case h_2 hfind =>
        cases h
        refine ⟨rfl, ?_⟩
        rintro _ ⟨⟩ a ha
        simpa using List.find?_eq_none.mp hfind a ha

namespace Yields

variable {known : List Node} {p : Properties} {start : Mark}

theorem aliased (name : String) (mark : Mark) : Yields known (aliased name mark) ([·]) := by
  intro r n r' h hscoped _
  obtain ⟨_, _, hget, h⟩ := bind_inv h
  cases hget
  split at h
  case h_1 => cases h
  case h_2 a hfind =>
      have ha := List.mem_of_find?_eq_some hfind
      obtain rfl : a.name = name := by simpa using List.find?_some hfind
      split at h
      case h_1 own hnode =>
          cases h
          show Scoped (r.anchors.map _) ∧ Grows r.anchors (r.anchors.map _) ∧
            ∀ n ∈ [a.node], InScope (r.anchors.map _) n
          rw [map_inside_eq_mark]
          refine ⟨hscoped.mark _, .mark _ _, List.forall_mem_singleton.mpr ?_⟩
          exact hscoped.inScope_mark ha (by rw [hnode]; rfl)
      case h_2 hnode =>
          cases h
          refine ⟨hscoped, .refl _, List.forall_mem_singleton.mpr (hscoped.inScope a ha ?_)⟩
          cases hcase : a.node with
          | enclosing own => exact absurd hcase (hnode own)
          | scalar | sequence | mapping => rfl

theorem scalar (text : Text) (plain : Bool) (stop : Mark) :
    Yields known (scalar p text plain start stop) ([·]) := by
  intro r n r₂ h hscoped _
  obtain ⟨_, r₁, hcheck, hrest⟩ := bind_inv h
  obtain ⟨rfl, hnew⟩ := checkAnchor_inv hcheck
  -- A scalar is known to its end at once.
  rcases p with ⟨_ | name, tag, place⟩
  · cases hrest
    exact ⟨hscoped, .refl _, List.forall_mem_singleton.mpr (.of_isClosed isClosed_scalar)⟩
  · cases hrest
    refine and_assoc.mp ⟨hscoped.register (hnew name rfl) rfl isClosed_scalar, ?_⟩
    exact List.forall_mem_singleton.mpr (.of_isClosed isClosed_scalar)

/-- A collection, from its start to its end. -/
theorem collection {content : ReadM α} {inner : α → List Node} {finish : α → ReadM Node}
    (hcontent : Yields known content inner)
    (hfinish : ∀ x, ∃ make, finish x = complete p make ∧ IsCollection make (inner x)) :
    Yields known (do checkAnchor p start; register p start .enclosing; content >>= finish)
      ([·]) := by
  intro r n r₄ h hscoped hknown
  obtain ⟨_, r₁, hcheck, hrest⟩ := bind_inv h
  obtain ⟨rfl, hnew⟩ := checkAnchor_inv hcheck
  obtain ⟨_, r₂, hregister, hrest₂⟩ := bind_inv hrest
  obtain ⟨x, r₃, hread, hcomplete⟩ := bind_inv hrest₂
  obtain ⟨make, hmake, hcollection⟩ := hfinish x
  rw [hmake] at hcomplete
  rcases p with ⟨_ | name, tag, place⟩
  · cases hregister
    cases hcomplete
    obtain ⟨hscoped₃, hgrows₃, hinner⟩ := hcontent _ x _ hread hscoped hknown
    refine ⟨hscoped₃, hgrows₃, List.forall_mem_singleton.mpr fun name hrefers => ?_⟩
    obtain ⟨_, m, hm, hrefers⟩ := hcollection.exists_refers hrefers
    exact hinner m hm name hrefers
  · cases hregister
    cases hcomplete
    have hopen := hscoped.open (hnew name rfl) start
    have hknown₂ : ∀ n ∈ known, InScope (.opened name start :: r₁.anchors) n :=
      fun n hn => (hknown n hn).of_subset (List.subset_cons_self _ _)
    obtain ⟨hscoped₃, hgrows₃, hinner⟩ := hcontent _ x r₃ hread hopen hknown₂
    obtain ⟨hscoped₄, hgrows₄, hnode⟩ := hscoped.complete hgrows₃ hscoped₃ hcollection hinner
    exact ⟨hscoped₄, hgrows₄, List.forall_mem_singleton.mpr hnode⟩

end Yields

end NodeReader

end TemplateAudit.Yaml
