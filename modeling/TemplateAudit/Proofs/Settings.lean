import Mathlib.Data.List.Nodup
import Mathlib.Data.List.Perm.Subperm
import TemplateAudit.Proofs.Lookup
import TemplateAudit.Settings

/-!
# TemplateAudit.Proofs.Settings

Settings that **passed the check**, and the order that they put severities in.

`Draft.check_eq_ok_iff` takes the check apart once: a configuration passes if each part of it does.
What passes as an order yields the severities, each of them once (`Draft.checkOrder_eq_ok_iff`). For
settings that is a list of severities, so `Settings.rank` tells severities apart and an order that
puts no severity before a graver one ranks graver ones first (`Settings.Checked.rank_lt`).
-/

namespace TemplateAudit

open TemplateAudit.Data (Store Value)

/-- Two steps come to a result if the first does and the second does with that. -/
theorem bind_eq_ok_iff {ε α β : Type} {x : Except ε α} {f : α → Except ε β} {b : β} :
    x >>= f = .ok b ↔ ∃ a, x = .ok a ∧ f a = .ok b := by
  cases x with
  | error e => simp [bind, Except.bind]
  | ok a => simp [bind, Except.bind]

/-- Two steps fail if the first does, or the second with what the first comes to. -/
theorem bind_eq_error_iff {ε α β : Type} {x : Except ε α} {f : α → Except ε β} {e : ε} :
    x >>= f = .error e ↔ x = .error e ∨ ∃ a, x = .ok a ∧ f a = .error e := by
  cases x with
  | error e' => simp [bind, Except.bind]
  | ok a => simp [bind, Except.bind]

/-! ### Severities as values -/

theorem Severity.value_injective : Function.Injective Severity.value := by
  intro v w h
  have hname := Value.ofString_injective h
  cases v <;> cases w <;> first | rfl | exact absurd hname (by decide)

theorem nodup_severityValues : severityValues.Nodup :=
  List.Nodup.map Severity.value_injective (by decide)

theorem mem_severityValues_iff {v : Value} : v ∈ severityValues ↔ ∃ w : Severity, w.value = v := by
  have hall : ∀ w : Severity, w ∈ Severity.all := by
    intro w
    cases w <;> decide
  simp [severityValues, hall]

/-- Values that are all severities are the values of severities. -/
theorem exists_map_value {items : List Value} (h : ∀ v ∈ items, v ∈ severityValues) :
    ∃ order : List Severity, items = order.map Severity.value := by
  induction items with
  | nil => exact ⟨[], rfl⟩
  | cons v items ih =>
      rw [List.forall_mem_cons] at h
      obtain ⟨w, rfl⟩ := mem_severityValues_iff.mp h.1
      obtain ⟨order, rfl⟩ := ih h.2
      exact ⟨w :: order, rfl⟩

theorem map_value_perm_iff {order : List Severity} :
    (order.map Severity.value).Perm severityValues ↔ order.Perm Severity.all :=
  List.map_perm_map_iff Severity.value_injective

/-! ### The check -/

theorem Offered.walked_eq_value_iff {order : Offered} {v : Value} :
    order.walked = .value v ↔ order = .value v := by
  cases order <;> simp [Offered.walked]

namespace Draft

/-- A configuration passes the check if each part of it passes its own. -/
theorem check_eq_ok_iff {store : Store} {d : Draft} {c : Configuration} :
    d.check store = .ok c ↔
      checkMax store d.maxAnnotations = .ok c.maxAnnotations ∧ checkToken d.token = .ok c.token ∧
        checkOrder d.order = .ok c.order ∧ checkTimeout d.timeout = .ok c.timeout ∧
        d.disabled = c.disabled := by
  unfold check
  constructor
  · intro h
    obtain ⟨maxAnnotations, hmax, h⟩ := bind_eq_ok_iff.mp h
    obtain ⟨token, htoken, h⟩ := bind_eq_ok_iff.mp h
    obtain ⟨order, horder, h⟩ := bind_eq_ok_iff.mp h
    obtain ⟨timeout, htimeout, h⟩ := bind_eq_ok_iff.mp h
    obtain rfl := Except.ok.inj h
    exact ⟨hmax, htoken, horder, htimeout, rfl⟩
  · intro h
    obtain ⟨hmax, htoken, horder, htimeout, hdisabled⟩ := h
    rw [hmax, htoken, horder, htimeout, hdisabled]
    rfl

/-- Values are the severities, each of them once, if they are a permutation of them. -/
theorem areSeverities_iff {items : List Value} :
    areSeverities items = true ↔ items.Perm severityValues := by
  have hsame : ∀ {v : Value} {w : Severity}, v.same w.value = true ↔ w.value = v :=
    same_text_iff.trans eq_comm
  have hall : (severityValues.all fun v => items.any fun item => item.same v) = true ↔
      ∀ v ∈ severityValues, v ∈ items := by
    simp [severityValues, hsame]
  have honly : (items.all fun item => severityValues.any fun v => item.same v) = true ↔
      ∀ v ∈ items, v ∈ severityValues := by
    simp [severityValues, hsame]
  rw [areSeverities, Bool.and_eq_true, Bool.and_eq_true, hall, honly, beq_iff_eq]
  constructor
  · intro h
    have hsub : severityValues.Subperm items := List.subperm_of_subset nodup_severityValues h.1.1
    exact (hsub.perm_of_length_le (Nat.le_of_eq h.2)).symm
  · intro h
    exact ⟨⟨fun v => h.mem_iff.mpr, fun v => h.mem_iff.mp⟩, h.length_eq⟩

/-- What passes as an order yields the severities, each of them once. -/
theorem checkOrder_eq_ok_iff {order order' : Offered} :
    checkOrder order = .ok order' ↔
      ∃ items, order.items? = some items ∧ items.Perm severityValues ∧ order' = order.walked := by
  unfold checkOrder
  cases order.items? with
  | none => simp
  | some items =>
      have hkeys : items.Perm severityValues → items.all Value.isKey = true := by
        intro h
        rw [List.all_eq_true]
        intro v hv
        obtain ⟨w, rfl⟩ := mem_severityValues_iff.mp (h.mem_iff.mp hv)
        simp [Severity.value, Value.ofString, Value.isKey]
      simp only [Option.some.injEq, exists_eq_left', ← areSeverities_iff] at hkeys ⊢
      cases hpass : areSeverities items with
      | true => simp [hkeys hpass, eq_comm]
      | false => cases items.all Value.isKey <;> simp

/-- A list of severities passes as an order if it has each of them once. -/
theorem checkOrder_ofSeverities {order : List Severity} {order' : Offered} :
    checkOrder (.ofSeverities order) = .ok order' ↔
      order.Perm Severity.all ∧ order' = .ofSeverities order := by
  rw [checkOrder_eq_ok_iff, ← map_value_perm_iff]
  simp [Offered.ofSeverities, Offered.items?, Value.items?, Offered.walked]

end Draft

/-! ### Orders of severities -/

namespace Settings

/-- Settings that passed the check. -/
def Checked (s : Settings) : Prop :=
  ∃ (store : Store) (d : Draft), d.check store = .ok s.configuration

/-- No severity is placed before one with a graver verdict. -/
def GravestFirst (s : Settings) : Prop := s.order.Pairwise fun a b => b.verdict ≤ a.verdict

theorem checked_default : Settings.default.Checked :=
  ⟨#[], Settings.default.configuration.draft, rfl⟩

theorem gravestFirst_default : Settings.default.GravestFirst := by
  unfold GravestFirst
  decide

namespace Checked

variable {s : Settings}

/-- The order has each severity once. -/
theorem order_perm (hs : s.Checked) : s.order.Perm Severity.all := by
  obtain ⟨store, d, h⟩ := hs
  have horder := (Draft.check_eq_ok_iff.mp h).2.2.1
  obtain ⟨items, -, -, hwalked⟩ := Draft.checkOrder_eq_ok_iff.mp horder
  have hoffered : d.order = .ofSeverities s.order := Offered.walked_eq_value_iff.mp hwalked.symm
  rw [hoffered] at horder
  exact (Draft.checkOrder_ofSeverities.mp horder).1

/-- Every severity has its place in the order. -/
theorem mem_order (hs : s.Checked) (v : Severity) : v ∈ s.order :=
  hs.order_perm.mem_iff.mpr (by cases v <;> decide)

/-- If no severity is placed before a graver one, graver ones rank first. -/
theorem rank_lt (hs : s.Checked) (horder : s.GravestFirst) {a b : Severity}
    (h : a.verdict < b.verdict) : s.rank b < s.rank a := by
  have ha := List.idxOf_lt_length_iff.mpr (hs.mem_order a)
  have hb := List.idxOf_lt_length_iff.mpr (hs.mem_order b)
  unfold Settings.rank
  rcases Nat.lt_trichotomy (s.order.idxOf a) (s.order.idxOf b) with hlt | heq | hgt
  · have hle := List.pairwise_iff_getElem.mp horder _ _ ha hb hlt
    rw [List.getElem_idxOf, List.getElem_idxOf] at hle
    omega
  · -- one place holds one severity, which is not graver than itself
    obtain rfl := (List.idxOf_inj (hs.mem_order a)).mp heq
    omega
  · omega

end Checked

end Settings

end TemplateAudit
