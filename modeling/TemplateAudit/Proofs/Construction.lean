import TemplateAudit.Yaml.Value

/-!
# TemplateAudit.Proofs.Construction

What can go wrong when the value of a document is made.

Making values has two kinds of faults: a scalar does not say what its tag asks for, or the document
is wrong at a place. Nothing else happens on the way (`placed_valueOf`): the faults of reading a
text are over once there is a document.
-/

namespace TemplateAudit.Yaml

open TemplateAudit.Data (Value)

/-- A fault of a scalar, or one at a place in the document. -/
def ValueFault.IsPlaced : ValueFault → Prop
  | .document fault => ∃ e, fault = .marked e
  | .scalar _ => True

/-- Whatever goes wrong is a fault of a scalar or at a place. -/
def Placed {α : Type} (x : Except ValueFault α) : Prop := ∀ fault, x = .error fault → fault.IsPlaced

namespace Placed

variable {α β : Type}

theorem ok (a : α) : Placed (.ok a) := fun _ h => nomatch h

theorem fail (fault : ScalarFault) : Placed (Scalar.fail (α := α) fault) := by
  intro _ h
  obtain rfl := Except.error.inj h
  trivial

theorem marked (e : Error) : Placed (α := α) (.error (.document (.marked e))) := by
  intro _ h
  obtain rfl := Except.error.inj h
  exact ⟨e, rfl⟩

theorem error (activity : Option Activity) (since : Option Mark) (problem : Problem)
    (mark : Mark) : Placed (Make.error (α := α) activity since problem mark) :=
  marked _

theorem bind {x : Except ValueFault α} {f : α → Except ValueFault β} (hx : Placed x)
    (hf : ∀ a, Placed (f a)) : Placed (x >>= f) := by
  cases x with
  | error fault => exact fun _ h => hx _ (congrArg Except.error (Except.error.inj h))
  | ok a => exact hf a

theorem map {x : Except ValueFault α} (hx : Placed x) (f : α → β) : Placed (x.map f) := by
  cases x with
  | error fault => exact fun _ h => hx _ (congrArg Except.error (Except.error.inj h))
  | ok a => exact ok (f a)

theorem mapM {f : α → Except ValueFault β} (hf : ∀ a, Placed (f a)) (items : List α) :
    Placed (items.mapM f) := by
  induction items with
  | nil => exact ok []
  | cons a items ih =>
      rw [List.mapM_cons]
      exact bind (hf a) fun b => bind ih fun bs => ok (b :: bs)

end Placed

/-! ### Scalars -/

namespace Scalar

theorem placed_intOf (base : Nat) (t : Text) : Placed (intOf base t) := by
  unfold intOf
  split
  · exact .ok _
  · exact .fail _
  · exact .fail _

theorem placed_floatOf (t : Text) : Placed (floatOf t) := by
  unfold floatOf
  split
  · exact .ok _
  · exact .fail _

theorem placed_signed (t : Text) : Placed (signed t) := by
  unfold signed
  split
  · exact .fail _
  · exact .ok _

theorem placed_int (t : Text) : Placed (int t) := by
  refine .bind (placed_signed t) fun ⟨neg, t⟩ => ?_
  dsimp only
  split
  · exact .bind (.fail _) fun n => .ok _
  · exact .ok _
  · exact .bind (placed_intOf 2 _) fun n => .ok _
  · exact .bind (placed_intOf 16 _) fun n => .ok _
  · exact .bind (placed_intOf 8 _) fun n => .ok _
  · split
    · exact .bind (.mapM (placed_intOf 10) _) fun parts => .ok _
    · exact .bind (placed_intOf 10 _) fun n => .ok _

theorem placed_addSixtieths (parts : List Number.Binary64) (total : Number.Binary64)
    (power : Nat) : Placed (addSixtieths total power parts) := by
  induction parts generalizing total power with
  | nil => exact .ok total
  | cons part parts ih =>
      unfold addSixtieths
      split
      · exact ih _ _
      · exact .fail _

theorem placed_float (t : Text) : Placed (float t) := by
  refine .bind (placed_signed _) fun ⟨neg, t⟩ => ?_
  dsimp only
  split
  · exact .ok _
  split
  · exact .ok _
  split
  · refine .bind (.mapM placed_floatOf _) fun parts => ?_
    exact .bind (placed_addSixtieths _ _ _) fun d => .ok _
  · exact .bind (placed_floatOf t) fun d => .ok _

theorem placed_bool (t : Text) : Placed (bool t) := by
  unfold bool
  dsimp only
  split
  · exact .ok _
  split
  · exact .ok _
  · exact .fail _

theorem placed_octets (t : Text) (mark : Mark) : Placed (octets t mark) := by
  unfold octets
  dsimp only
  split
  · split
    · exact .ok _
    · exact .marked _
  · exact .marked _

theorem placed_timestamp (cs : List Char) : Placed (timestamp cs) := by
  unfold timestamp
  dsimp only
  split
  · exact .fail _
  · split
    · exact .ok _
    · exact .fail _

theorem placed_value (tag : String) (t : Text) (mark : Mark) : Placed (value tag t mark) := by
  unfold value
  split
  · exact (placed_bool t).map _
  split
  · exact (placed_int t).map _
  split
  · exact (placed_float t).map _
  split
  · exact (placed_octets t mark).map _
  split
  · exact placed_timestamp _
  split
  · exact .ok _
  · exact .ok _

end Scalar

/-! ### Steps -/

/-- Whatever goes wrong in a step is a fault of a scalar or at a place. -/
def PlacedStep {α : Type} (step : MakeM α) : Prop := ∀ c, Placed (step c)

namespace PlacedStep

variable {α β : Type}

theorem pure (a : α) : PlacedStep (Pure.pure a) := fun c => .ok (a, c)

theorem get : PlacedStep MonadState.get := fun c => .ok (c, c)

theorem set (c : Construction) : PlacedStep (MonadStateOf.set c) := fun _ => .ok ((), c)

theorem modify (f : Construction → Construction) : PlacedStep (modify f) :=
  fun c => .ok ((), f c)

theorem lift {x : Except ValueFault α} (hx : Placed x) : PlacedStep (liftM x) :=
  fun c => hx.bind fun a => .ok (a, c)

theorem bind {x : MakeM α} {f : α → MakeM β} (hx : PlacedStep x) (hf : ∀ a, PlacedStep (f a)) :
    PlacedStep (x >>= f) :=
  fun c => (hx c).bind fun ⟨a, c⟩ => hf a c

theorem map {x : MakeM α} (hx : PlacedStep x) (f : α → β) : PlacedStep (x.map f) :=
  fun c => (hx c).bind fun ⟨a, c⟩ => .ok (f a, c)

theorem mapM {f : α → MakeM β} (hf : ∀ a, PlacedStep (f a)) (items : List α) :
    PlacedStep (items.mapM f) := by
  induction items with
  | nil => exact .pure []
  | cons a items ih =>
      rw [List.mapM_cons]
      exact .bind (hf a) fun b => .bind ih fun bs => .pure (b :: bs)

theorem forM {f : α → MakeM Unit} (hf : ∀ a, PlacedStep (f a)) (items : List α) :
    PlacedStep (items.forM f) := by
  induction items with
  | nil => exact .pure ()
  | cons a items ih => exact .bind (hf a) fun _ => ih

end PlacedStep

namespace Make

theorem placed_text (c : Construction) (fuel n : Nat) : Placed (text c fuel n) := by
  induction fuel generalizing n with
  | zero => exact .fail _
  | succ fuel ih =>
      unfold text
      dsimp only
      split
      · exact .ok _
      · exact .error _ _ _ _
      · split
        · exact ih _
        · exact .error _ _ _ _

theorem placed_scalar (c : Construction) (n : Nat) : Placed (scalar c n) := by
  unfold scalar
  dsimp only
  split
  · refine .bind (placed_text c _ n) fun text => ?_
    split
    · exact .fail _
    · exact Scalar.placed_value _ _ _
  · exact .error _ _ _ _

theorem placed_object (n : Nat) : PlacedStep (object n) := by
  refine .bind .get fun c => ?_
  split
  · exact .pure _
  split
  · refine .bind (.modify _) fun _ => .bind (.pure _) fun _ => ?_
    exact .bind (.modify _) fun _ => .pure _
  · exact .bind (.lift (placed_scalar c n)) fun _ => .bind (.modify _) fun _ => .pure _

theorem placed_takeMerge (n : Nat) : PlacedStep (takeMerge n) := by
  refine .bind .get fun c => ?_
  dsimp only
  split
  · exact .bind (.set _) fun _ => .pure _
  · exact .pure _

/-- The three functions of merging, with some fuel. -/
structure PlacedMerging (fuel : Nat) : Prop where
  flatten (n : Nat) : PlacedStep (flatten fuel n)
  merges (since : Mark) (n : Nat) : PlacedStep (merges since fuel n)
  flattenItem (since : Mark) (n : Nat) : PlacedStep (flattenItem since fuel n)

theorem placedMerging (fuel : Nat) : PlacedMerging fuel := by
  induction fuel with
  | zero => exact ⟨fun _ => .pure (), fun _ _ => .pure [], fun _ _ => .pure []⟩
  | succ fuel ih =>
      refine ⟨fun n => ?_, fun since n => ?_, fun since n => ?_⟩
      · refine .bind (.modify _) fun _ => .bind .get fun c => .bind (ih.merges _ n) fun merged => ?_
        split
        · exact .modify _
        · exact .pure ()
      · refine .bind (placed_takeMerge n) fun source? => ?_
        split
        · exact .pure []
        refine .bind .get fun c => ?_
        dsimp only
        split
        · refine .bind (ih.flatten _) fun _ => .bind .get fun c => .bind (.pure _) fun first => ?_
          exact .bind (ih.merges since n) fun more => .pure _
        · refine .bind (.mapM (ih.flattenItem since) _) fun rows => .bind (.pure _) fun first => ?_
          exact .bind (ih.merges since n) fun more => .pure _
        · exact .bind (.lift (.error _ _ _ _)) fun _ => .bind (ih.merges since n) fun more => .pure _
      · refine .bind .get fun c => ?_
        dsimp only
        split
        · exact .bind (ih.flatten n) fun _ => .bind .get fun c => .pure _
        · exact .lift (.error _ _ _ _)

theorem placed_entries (since : Mark) (numbers : List (Nat × Nat)) (before : Array Entry) :
    PlacedStep (entries since before numbers) := by
  induction numbers generalizing before with
  | nil => exact .pure before
  | cons entry numbers ih =>
      refine .bind (placed_object entry.1) fun key => ?_
      dsimp only
      split
      · refine .bind .get fun c => .bind (.lift (.error _ _ _ _)) fun _ => ?_
        exact .bind (placed_object entry.2) fun value => .bind .get fun c => ih _
      · exact .bind (placed_object entry.2) fun value => .bind .get fun c => ih _

theorem placed_mapping (n : Nat) : PlacedStep (mapping n) := by
  refine .bind .get fun c => ?_
  dsimp only
  split
  · refine .bind .get fun c => .bind ((placedMerging _).flatten n) fun _ => .bind .get fun c => ?_
    exact placed_entries _ _ _
  · exact .lift (.error _ _ _ _)

theorem placed_pair (activity : Activity) (since : Mark) (n : Nat) :
    PlacedStep (pair activity since n) := by
  refine .bind .get fun c => ?_
  dsimp only
  split
  · refine .bind (placed_object _) fun key => .bind (placed_object _) fun value => ?_
    exact .bind .get fun c => .bind (.set _) fun _ => .pure _
  · exact .lift (.error _ _ _ _)
  · exact .lift (.error _ _ _ _)

theorem placed_fill (n : Nat) (kind : Collection) : PlacedStep (fill n kind) := by
  refine .bind .get fun c => ?_
  dsimp only
  split
  · exact .bind (.map (.mapM placed_object _) _) fun content => .modify _
  · exact .bind (.lift (.error _ _ _ _)) fun content => .modify _
  · exact .bind (.map (placed_mapping n) _) fun content => .modify _
  · exact .bind (.map (placed_mapping n) _) fun content => .modify _
  · exact .bind (.map (.mapM (placed_pair _ _) _) _) fun content => .modify _
  · exact .bind (.lift (.error _ _ _ _)) fun content => .modify _
  · exact .bind (.map (.mapM (placed_pair _ _) _) _) fun content => .modify _
  · exact .bind (.lift (.error _ _ _ _)) fun content => .modify _

theorem placed_fillAll (fuel : Nat) : PlacedStep (fillAll fuel) := by
  induction fuel with
  | zero => exact .pure ()
  | succ fuel ih =>
      refine .bind .get fun c => ?_
      split
      · exact .pure ()
      · exact .bind (.set _) fun _ => .bind (.forM (fun entry => placed_fill _ _) _) fun _ => ih

end Make

/-- A document without a value has a scalar without one, or is wrong at a place. -/
theorem placed_valueOf (root : Node) : Placed (valueOf root) := by
  refine .bind ?_ fun result => .ok _
  exact PlacedStep.bind (Make.placed_object 0)
    (fun v => .bind (Make.placed_fillAll _) fun _ => .pure v) _

end TemplateAudit.Yaml
