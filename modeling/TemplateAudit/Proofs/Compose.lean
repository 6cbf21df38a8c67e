import TemplateAudit.Proofs.Anchors

/-!
# TemplateAudit.Proofs.Compose

The root of a document is **closed** (`compose_isClosed`): every `enclosing` place in it lies inside
the collection that it is for.

The functions of the grammar call each other with one unit of fuel less, so what they yield is shown
for all of them at once, by induction on the fuel (`inScopeReads`). Each has a step lemma, which
follows its own text: peek at a token, take it, read the parts, put them together.

A document is read from no anchors at all, and when it is over no collection is left open, so what
is in scope then refers to nothing.
-/

namespace TemplateAudit.Yaml

open Node (isClosed_scalar)

namespace NodeReader

/-- The keys and values of a mapping that was read. -/
def entryNodes (x : List (Node × Node) × Mark) : List Node := x.1.flatMap fun e => [e.1, e.2]

/-- With some fuel, all that the functions of the grammar read is in scope. -/
structure InScopeReads (fuel : Nat) : Prop where
  node (block flat : Bool) (known : List Node) : Yields known (node block flat fuel) ([·])
  nodeUnless (stops : TokenKind → Bool) (block flat : Bool) (mark : Mark) (known : List Node) :
    Yields known (nodeUnless stops block flat mark fuel) ([·])
  valueUnless (stops : TokenKind → Bool) (block : Bool) (known : List Node) :
    Yields known (valueUnless stops block fuel) ([·])
  blockSequence (known : List Node) : Yields known (blockSequence fuel) Prod.fst
  blockItems (since : Mark) (known : List Node) : Yields known (blockItems since fuel) Prod.fst
  flatItems (known : List Node) : Yields known (flatItems fuel) Prod.fst
  blockMapping (known : List Node) : Yields known (blockMapping fuel) entryNodes
  blockEntries (since : Mark) (known : List Node) :
    Yields known (blockEntries since fuel) entryNodes
  flowItems (since : Mark) (isFirst : Bool) (known : List Node) :
    Yields known (flowItems since isFirst fuel) Prod.fst
  flowPair (known : List Node) : Yields known (flowPair fuel) ([·])
  flowEntries (since : Mark) (isFirst : Bool) (known : List Node) :
    Yields known (flowEntries since isFirst fuel) entryNodes

theorem inScopeReads_zero : InScopeReads 0 where
  node _ _ _ := .pure_closed isClosed_scalar
  nodeUnless _ _ _ _ _ := .pure_closed isClosed_scalar
  valueUnless _ _ _ := .pure_closed isClosed_scalar
  blockSequence _ := .pure (List.nil_subset _)
  blockItems _ _ := .pure (List.nil_subset _)
  flatItems _ := .pure (List.nil_subset _)
  blockMapping _ := .pure (List.nil_subset _)
  blockEntries _ _ := .pure (List.nil_subset _)
  flowItems _ _ _ := .pure (List.nil_subset _)
  flowPair _ := .pure_closed isClosed_scalar
  flowEntries _ _ _ := .pure (List.nil_subset _)

theorem isCollection_sequence {tag : String} {items : List Node} {start stop : Mark} :
    IsCollection (fun anchor => .sequence anchor tag items start stop) items where
  isReference _ := rfl
  anchor? _ := rfl
  written _ := rfl

theorem isCollection_mapping {tag : String} {entries : List (Node × Node)} {start stop : Mark} :
    IsCollection (fun anchor => .mapping anchor tag entries start stop)
      (entries.flatMap fun e => [e.1, e.2]) where
  isReference _ := rfl
  anchor? _ := rfl
  written _ := rfl

namespace InScopeReads

variable {fuel : Nat} {known : List Node}

theorem node_succ (h : InScopeReads fuel) (block flat : Bool) :
    Yields known (NodeReader.node block flat (fuel + 1)) ([·]) := by
  refine .after .peek fun first => ?_
  split
  case h_1 => exact .after .take fun _ => .aliased _ first.start
  case h_2 =>
      refine .after .properties fun p => .after .peek fun t => ?_
      -- One case for each kind of content, in the order of the text.
      split
      · exact .collection (h.flatItems known) fun ⟨_, _⟩ => ⟨_, rfl, isCollection_sequence⟩
      · exact .after .take fun _ => .scalar _ _ _
      · exact .collection (h.flowItems t.start true known) fun ⟨_, _⟩ =>
          ⟨_, rfl, isCollection_sequence⟩
      · exact .collection (h.flowEntries t.start true known) fun ⟨_, _⟩ =>
          ⟨_, rfl, isCollection_mapping⟩
      · exact .collection (h.blockSequence known) fun ⟨_, _⟩ => ⟨_, rfl, isCollection_sequence⟩
      · exact .collection (h.blockMapping known) fun ⟨_, _⟩ => ⟨_, rfl, isCollection_mapping⟩
      · split
        · exact .scalar _ _ _
        · exact .throw _

theorem nodeUnless_succ (h : InScopeReads fuel) (stops : TokenKind → Bool) (block flat : Bool)
    (mark : Mark) :
    Yields known (NodeReader.nodeUnless stops block flat mark (fuel + 1)) ([·]) := by
  refine .after (.at? stops) fun stopped => ?_
  split
  · exact .pure_closed isClosed_scalar
  · exact h.node block flat known

theorem valueUnless_succ (h : InScopeReads fuel) (stops : TokenKind → Bool) (block : Bool) :
    Yields known (NodeReader.valueUnless stops block (fuel + 1)) ([·]) := by
  refine .after .peek fun t => ?_
  split
  · exact .after .take fun _ => h.nodeUnless stops block block t.stop known
  · exact .pure_closed isClosed_scalar

theorem blockSequence_succ (h : InScopeReads fuel) :
    Yields known (NodeReader.blockSequence (fuel + 1)) Prod.fst :=
  .after .take fun t => h.blockItems t.start known

theorem blockItems_succ (h : InScopeReads fuel) (since : Mark) :
    Yields known (NodeReader.blockItems since (fuel + 1)) Prod.fst := by
  refine .after .peek fun t => ?_
  split
  case h_1 =>
      refine .after .take fun _ => .bind (h.nodeUnless _ true false t.stop known) fun item => ?_
      refine .bind (h.blockItems since _) fun ⟨items, stop⟩ => .pure ?_
      simp
  case h_2 => exact .after .take fun _ => .pure (List.nil_subset _)
  case h_3 => exact .throw _

theorem flatItems_succ (h : InScopeReads fuel) :
    Yields known (NodeReader.flatItems (fuel + 1)) Prod.fst := by
  refine .after .peek fun t => ?_
  split
  case h_1 =>
      refine .after .take fun _ => .bind (h.nodeUnless _ true false t.stop known) fun item => ?_
      refine .bind (h.flatItems _) fun ⟨items, stop⟩ => .pure ?_
      simp
  case h_2 => exact .pure (List.nil_subset _)

theorem blockMapping_succ (h : InScopeReads fuel) :
    Yields known (NodeReader.blockMapping (fuel + 1)) entryNodes :=
  .after .take fun t => h.blockEntries t.start known

theorem blockEntries_succ (h : InScopeReads fuel) (since : Mark) :
    Yields known (NodeReader.blockEntries since (fuel + 1)) entryNodes := by
  refine .after .peek fun t => ?_
  split
  case h_1 =>
      refine .after .take fun _ => .bind (h.nodeUnless _ true true t.stop known) fun key => ?_
      refine .bind (h.valueUnless _ true _) fun value => ?_
      refine .bind (h.blockEntries since _) fun ⟨entries, stop⟩ => .pure ?_
      simp [entryNodes]
  case h_2 => exact .after .take fun _ => .pure (List.nil_subset _)
  case h_3 => exact .throw _

theorem flowItems_succ (h : InScopeReads fuel) (since : Mark) (isFirst : Bool) :
    Yields known (NodeReader.flowItems since isFirst (fuel + 1)) Prod.fst := by
  refine .after .peek fun t => ?_
  split
  case h_1 => exact .after .take fun _ => .pure (List.nil_subset _)
  case h_2 | h_3 =>
      refine .after .take fun _ => .after .peek fun t => ?_
      split
      case h_1 => exact .after .take fun _ => .pure (List.nil_subset _)
      case h_2 =>
          refine .bind (h.flowPair known) fun item => ?_
          refine .bind (h.flowItems since false _) fun ⟨items, stop⟩ => .pure ?_
          simp
      case h_3 =>
          refine .bind (h.node false false known) fun item => ?_
          refine .bind (h.flowItems since false _) fun ⟨items, stop⟩ => .pure ?_
          simp
  case h_4 => exact .throw _

theorem flowPair_succ (h : InScopeReads fuel) :
    Yields known (NodeReader.flowPair (fuel + 1)) ([·]) := by
  refine .after .take fun t => .bind (h.nodeUnless _ false false t.stop known) fun key => ?_
  refine .bind (h.valueUnless _ false _) fun value => .after .peek fun after => ?_
  refine .pure_of_refers fun n hn name hrefers => ?_
  rw [List.mem_singleton.mp hn] at hrefers
  obtain ⟨_, m, hm, hrefers⟩ := isCollection_mapping.exists_refers hrefers
  have hm : m = key ∨ m = value := by simpa using hm
  refine ⟨m, ?_, hrefers⟩
  rcases hm with rfl | rfl <;> simp

theorem flowEntries_succ (h : InScopeReads fuel) (since : Mark) (isFirst : Bool) :
    Yields known (NodeReader.flowEntries since isFirst (fuel + 1)) entryNodes := by
  refine .after .peek fun t => ?_
  split
  case h_1 => exact .after .take fun _ => .pure (List.nil_subset _)
  case h_2 | h_3 =>
      refine .after .take fun _ => .after .peek fun t => ?_
      split
      case h_1 => exact .after .take fun _ => .pure (List.nil_subset _)
      case h_2 =>
          refine .after .take fun _ => .bind (h.nodeUnless _ false false t.stop known) fun key => ?_
          refine .bind (h.valueUnless _ false _) fun value => ?_
          refine .bind (h.flowEntries since false _) fun ⟨entries, stop⟩ => .pure ?_
          simp [entryNodes]
      case h_3 =>
          refine .bind (h.node false false known) fun key => .after .peek fun after => ?_
          -- The value is left out.
          refine .of_closed (n := missing after.start) isClosed_scalar ?_
          refine .bind (h.flowEntries since false _) fun ⟨entries, stop⟩ => .pure ?_
          simp [entryNodes]
  case h_4 => exact .throw _

end InScopeReads

/-- All that the functions of the grammar read is in scope. -/
theorem inScopeReads (fuel : Nat) : InScopeReads fuel := by
  induction fuel with
  | zero => exact inScopeReads_zero
  | succ fuel ih =>
      exact {
        node := fun block flat _ => ih.node_succ block flat
        nodeUnless := fun stops block flat mark _ => ih.nodeUnless_succ stops block flat mark
        valueUnless := fun stops block _ => ih.valueUnless_succ stops block
        blockSequence := fun _ => ih.blockSequence_succ
        blockItems := fun since _ => ih.blockItems_succ since
        flatItems := fun _ => ih.flatItems_succ
        blockMapping := fun _ => ih.blockMapping_succ
        blockEntries := fun since _ => ih.blockEntries_succ since
        flowItems := fun since isFirst _ => ih.flowItems_succ since isFirst
        flowPair := fun _ => ih.flowPair_succ
        flowEntries := fun since isFirst _ => ih.flowEntries_succ since isFirst }

/-! ### Documents -/

/-- A step may be refused before the rest. -/
theorem Keeps.refuse {α : Type} {c : Prop} [Decidable c] {fault : Fault} {rest : Unit → ReadM α}
    (h : ∀ u, Keeps (rest u)) :
    Keeps (if c then MonadExcept.throw fault >>= rest else rest ()) := by
  split
  · exact .bind (.throw fault) h
  · exact h ()

theorem Keeps.skipDocumentEnds (fuel : Nat) : Keeps (skipDocumentEnds fuel) := by
  induction fuel with
  | zero => exact .pure _
  | succ fuel ih =>
      refine .bind (.at? _) fun more => ?_
      split
      · exact .bind .take fun _ => ih
      · exact .pure _

theorem Keeps.directives (fuel : Nat) (version : Bool) (handles : List (String × String)) :
    Keeps (directives fuel version handles) := by
  induction fuel generalizing version handles with
  | zero => exact .pure _
  | succ fuel ih =>
      refine .bind .peek fun t => ?_
      split
      case h_2 => exact .pure _
      case h_1 =>
          refine .bind .take fun _ => ?_
          split
          · exact .refuse fun _ => .refuse fun _ => ih _ _
          · exact .refuse fun _ => ih _ _
          · exact ih _ _

theorem Keeps.explicitStart (fuel : Nat) : Keeps (explicitStart fuel) := by
  refine .bind (.skipDocumentEnds fuel) fun _ => .bind .peek fun t => ?_
  split
  · exact .pure _
  · refine .bind (.directives fuel false []) fun handles => .bind .peek fun found => ?_
    refine .refuse fun _ => .bind .take fun _ => .bind ?_ fun _ => .pure _
    rintro r _ _ ⟨⟩
    rfl

theorem Yields.some_node (fuel : Nat) :
    Yields [] (do return some (← node true false fuel)) Option.toList :=
  .bind ((inScopeReads fuel).node true false []) fun _ => .pure (List.Subset.refl _)

theorem Yields.root (fuel : Nat) : Yields [] (root fuel) Option.toList := by
  refine .after .peek fun t => ?_
  split
  case h_1 | h_2 | h_3 =>
      refine .after (.explicitStart fuel) fun start => ?_
      split
      case h_1 => exact .pure (List.nil_subset _)
      case h_2 =>
          refine .after .peek fun t => ?_
          split
          case h_5 => exact .some_node fuel
          all_goals exact .of_closed isClosed_scalar (.pure (List.Subset.refl _))
  case h_4 => exact .some_node fuel

theorem Yields.singleRoot (fuel : Nat) : Yields [] (singleRoot fuel) Option.toList := by
  refine .bind (.root fuel) fun root => ?_
  split
  case h_1 => exact .pure (List.nil_subset _)
  case h_2 root =>
      refine .after (.at? _) fun _ => .afterIf .take (.after (.explicitStart fuel) fun next => ?_)
      split
      · exact .throw _
      · exact .pure (List.Subset.refl _)

theorem run'_inv {α : Type} {m : ReadM α} {r : NodeReader} {x : α} (h : m.run' r = .ok x) :
    ∃ r', m.run r = .ok (x, r') := by
  rw [StateT.run'_eq] at h
  cases hm : m.run r with
  | error fault => rw [hm] at h; cases h
  | ok done => rw [hm] at h; cases h; exact ⟨done.2, rfl⟩

end NodeReader

theorem scoped_nil : Scoped [] where
  nodup := List.nodup_nil
  own _ h := nomatch h
  inScope _ h := nomatch h

/-- The root of a document is closed. -/
theorem compose_isClosed {cs : List Char} {root : Node} (h : compose cs = .ok (some root)) :
    root.IsClosed := by
  obtain ⟨reader, hrun⟩ := NodeReader.run'_inv h
  obtain ⟨_, hgrows, hscope⟩ :=
    NodeReader.Yields.singleRoot _ _ _ _ hrun scoped_nil fun _ hn => nomatch hn
  intro anchor hrefers
  exact hgrows.not_awaited (hscope root (List.mem_singleton_self root) anchor hrefers)

end TemplateAudit.Yaml
