import Mathlib.Order.Interval.Set.Basic
import TemplateAudit.Proofs.Directive
import TemplateAudit.Proofs.SettingsFile

/-!
# TemplateAudit.Proofs.Overrides

What configurations are worth after any number of **overrides**.

A draft that passes the check is kept as it is, except that an iterator is used up
(`Draft.draft_of_check`). So overrides that are accepted change the draft and nothing else, and two
of them in a row are one, unless the first leaves an iterator behind that the second would have to
walk over again (`Configuration.withOverrides_withOverrides`).

Everything that passes the check is valid, so a run of overrides, some of them refused, goes from
valid configurations to valid ones. Ranks are not a part of that: they are there as long as what is
kept as the order has places, and orders that are walked over need not have any.
-/

namespace TemplateAudit

open TemplateAudit.Data (Store Value)

/-! ### Nothing, and something instead -/

namespace Data.Value

variable {v : Value}

theorem isNull_iff : v.isNull = true ↔ v = .null := by
  cases v <;> simp [isNull]

@[simp] theorem null_orElse (w : Value) : null.orElse w = w := rfl

theorem orElse_assoc (v w x : Value) : (v.orElse w).orElse x = v.orElse (w.orElse x) := by
  cases v <;> rfl

@[simp] theorem isNull_orElse (v w : Value) : (v.orElse w).isNull = (v.isNull && w.isNull) := by
  cases v <;> rfl

theorem orElse_of_not_null (h : v.isNull = false) (w : Value) : v.orElse w = v := by
  rw [orElse, h]
  rfl

end Data.Value

namespace Offered

variable {o : Offered}

/-- Whether an iterator is offered. -/
def isOnce : Offered → Bool
  | .value _ => false
  | .once _ => true

theorem isNull_iff : o.isNull = true ↔ o = null := by
  cases o <;> simp [isNull, null, Value.isNull_iff]

@[simp] theorem null_orElse (p : Offered) : null.orElse p = p := rfl

theorem orElse_of_not_null (h : o.isNull = false) (p : Offered) : o.orElse p = o := by
  rw [orElse, h]
  rfl

theorem orElse_assoc (o p q : Offered) : (o.orElse p).orElse q = o.orElse (p.orElse q) := by
  cases h : o.isNull with
  | true => rw [isNull_iff.mp h, null_orElse, null_orElse]
  | false => rw [orElse_of_not_null h, orElse_of_not_null h, orElse_of_not_null h]

@[simp] theorem isNull_orElse (o p : Offered) : (o.orElse p).isNull = (o.isNull && p.isNull) := by
  cases h : o.isNull with
  | true => rw [isNull_iff.mp h, null_orElse, Bool.true_and]
  | false => rw [orElse_of_not_null h, h, Bool.false_and]

theorem walked_of_not_once (h : o.isOnce = false) : o.walked = o := by
  cases o with
  | value v => rfl
  | once items => cases h

theorem not_null_of_once (h : o.isOnce = true) : o.isNull = false := by
  cases o with
  | value v => cases h
  | once items => rfl

theorem walked_of_once (h : o.isOnce = true) : o.walked = .once [] := by
  cases o with
  | value v => cases h
  | once items => rfl

theorem walked_of_row? (h : o.row?.isSome = true) : o.walked = o := by
  cases o with
  | value v => rfl
  | once items => cases h

theorem items?_of_row? {row : List Value} (h : o.row? = some row) : o.items? = some row := by
  unfold row? at h
  split at h
  case h_1 items => exact h
  case h_2 items => exact h
  case h_3 => cases h

end Offered

/-! ### What passes the check -/

/-- What is left of a draft after the check: an iterator is used up. -/
def Draft.walked (d : Draft) : Draft := { d with order := d.order.walked }

/-- What is kept as an order: something that yields the severities, each of them once, whenever it
is walked over, or an iterator that did so once. -/
def Offered.Passed (o : Offered) : Prop :=
  o = .once [] ∨ ∃ v items, o = .value v ∧ v.items? = some items ∧ items.Perm severityValues

/-- A token that has no blanks around it, an order that passed. -/
structure Configuration.Valid (c : Configuration) : Prop where
  token_ne_nil : c.token ≠ []
  strip_token : Text.stripChars c.token.chars = c.token.chars
  order_passed : c.order.Passed

theorem Offered.Passed.walked {o : Offered} (h : o.Passed) : o.walked = o := by
  rcases h with rfl | ⟨v, items, rfl, -, -⟩
  · rfl
  · rfl

namespace Draft

variable {store : Store} {d : Draft} {c : Configuration}

/-- Only whole numbers that are not negative pass, and they are kept. -/
theorem checkMax_eq_ok {v : Value} {n : Nat} (h : checkMax store v = .ok n) : v = .int n := by
  cases v with
  | int i =>
      rw [checkMax] at h
      split at h
      case isTrue => cases h
      case isFalse hnonneg =>
          obtain rfl := Except.ok.inj h
          rw [Int.toNat_of_nonneg (by omega)]
  | _ => cases h

/-- Only texts pass as tokens, and they are kept. -/
theorem checkToken_eq_ok {v : Value} {t : Text} (h : checkToken v = .ok t) :
    v = .text t ∧ t ≠ [] ∧ Text.stripChars t.chars = t.chars := by
  cases v with
  | text t' =>
      rw [checkToken] at h
      split at h
      case isTrue => cases h
      case isFalse hblank =>
          split at h
          case isTrue => cases h
          case isFalse hpadded =>
              obtain rfl := Except.ok.inj h
              have hchars : t'.chars ≠ [] := by
                intro hnil
                simp [hnil] at hblank
              have hends : t'.chars.head?.any Text.isBlank = false ∧
                  t'.chars.getLast?.any Text.isBlank = false := by
                simpa [isPadded] using hpadded
              refine ⟨rfl, ?_, ?_⟩
              · intro hnil
                exact hchars (by rw [hnil]; rfl)
              · have hstrip : Text.stripChars ([] ++ t'.chars ++ []) = t'.chars :=
                  Text.stripChars_padded (by simp) (by simp) hchars hends.1 hends.2
                simpa using hstrip
  | _ => cases h

/-- What is kept of an order that passes the check has passed it. -/
theorem passed_of_checkOrder {order order' : Offered} (h : checkOrder order = .ok order') :
    order'.Passed := by
  obtain ⟨items, hitems, hperm, rfl⟩ := checkOrder_eq_ok_iff.mp h
  cases order with
  | value v => exact .inr ⟨v, items, rfl, hitems, hperm⟩
  | once _ => exact .inl rfl

/-- An iterator that is used up does not pass. -/
theorem checkOrder_once_nil : checkOrder (.once []) = .error (.invalid .orderIncomplete) := rfl

/-- A time that passes is kept. -/
theorem checkTimeout_eq_ok {v : Value} {time : Option Number.Quantity}
    (h : checkTimeout v = .ok time) : time.elim .null .ofQuantity = v := by
  have hkept : ∀ {v : Value} {q : Number.Quantity}, v.quantity? = some q →
      Value.ofQuantity q = v := by
    intro v q hq
    cases v with
    | bool b =>
        obtain rfl := Option.some.inj hq
        rfl
    | int n =>
        obtain rfl := Option.some.inj hq
        rfl
    | float x =>
        obtain rfl := Option.some.inj hq
        rfl
    | _ => cases hq
  unfold checkTimeout at h
  split at h
  case h_1 =>
      obtain rfl := Except.ok.inj h
      rfl
  case h_2 =>
      split at h
      case h_1 => cases h
      case h_2 q hq =>
          split at h
          case isTrue => cases h
          case isFalse =>
              obtain rfl := Except.ok.inj h
              exact hkept hq

/-- The configuration that a draft asks for is, as a draft, what is left of that. -/
theorem draft_of_check (h : d.check store = .ok c) : c.draft = d.walked := by
  obtain ⟨hmax, htoken, horder, htimeout, hdisabled⟩ := check_eq_ok_iff.mp h
  have hmax := checkMax_eq_ok hmax
  have htoken := (checkToken_eq_ok htoken).1
  obtain ⟨-, -, -, horder⟩ := checkOrder_eq_ok_iff.mp horder
  have htimeout := checkTimeout_eq_ok htimeout
  rw [walked, Configuration.draft, ← hmax, ← htoken, horder, htimeout, ← hdisabled]

/-- What passes the check is valid. -/
theorem valid_of_check (h : d.check store = .ok c) : c.Valid := by
  obtain ⟨-, htoken, horder, -, -⟩ := check_eq_ok_iff.mp h
  obtain ⟨-, hne, hstrip⟩ := checkToken_eq_ok htoken
  exact ⟨hne, hstrip, passed_of_checkOrder horder⟩

end Draft

/-! ### Overrides over overrides -/

namespace Overrides

variable {a b o : Overrides}

/-- One override over another: where it has nothing, it is as the other. -/
def laidOver (b a : Overrides) : Overrides :=
  { maxAnnotations := b.maxAnnotations.orElse a.maxAnnotations
    token := b.token.orElse a.token
    order := b.order.orElse a.order
    disabled := b.disabled.orElse a.disabled
    timeout := b.timeout.orElse a.timeout
    others := a.others ++ b.others.filter fun other => !other.2.isNull }

/-- The first name with something for it that is no setting. -/
def stray? (o : Overrides) : Option (String × Offered) :=
  o.others.find? fun other => !other.2.isNull

/-- Laid over a draft one after the other, overrides do what one over the other does. -/
theorem apply_laidOver (b a : Overrides) (d : Draft) :
    (b.laidOver a).apply d = b.apply (a.apply d) := by
  simp only [apply, laidOver, Value.orElse_assoc, Offered.orElse_assoc]

theorem apply_of_isEmpty (h : o.isEmpty = true) (d : Draft) : o.apply d = d := by
  simp only [isEmpty, Bool.and_eq_true, Value.isNull_iff, Offered.isNull_iff] at h
  obtain ⟨⟨⟨⟨⟨hmax, htoken⟩, horder⟩, hdisabled⟩, htimeout⟩, -⟩ := h
  simp [apply, hmax, htoken, horder, hdisabled, htimeout]

/-- An order that is given takes the place of what is left of the one before. -/
theorem apply_walked (h : o.order.isNull = false) (d : Draft) : o.apply d.walked = o.apply d := by
  simp only [apply, Draft.walked, Offered.orElse_of_not_null h]

/-- Nothing is used up if there was no iterator. -/
theorem walked_apply {d : Draft} (hd : d.order.walked = d.order) (h : o.order.isOnce = false) :
    (o.apply d).walked = o.apply d := by
  have horder : (o.order.orElse d.order).walked = o.order.orElse d.order := by
    cases hnull : o.order.isNull with
    | true => rw [Offered.isNull_iff.mp hnull, Offered.null_orElse, hd]
    | false => rw [Offered.orElse_of_not_null hnull, Offered.walked_of_not_once h]
  rw [Draft.walked, apply, horder]

theorem isEmpty_laidOver (b a : Overrides) :
    (b.laidOver a).isEmpty = (b.isEmpty && a.isEmpty) := by
  have hothers : (b.laidOver a).others.all (fun other => other.2.isNull) =
      (b.others.all (fun other => other.2.isNull) && a.others.all fun other => other.2.isNull) := by
    simp [laidOver, List.all_filter, Bool.and_comm]
  simp only [isEmpty, hothers]
  simp only [laidOver, Value.isNull_orElse, Offered.isNull_orElse]
  ac_rfl

theorem stray?_eq_none_of_isEmpty (h : o.isEmpty = true) : o.stray? = Option.none := by
  have hothers := (Bool.and_eq_true_iff.mp h).2
  rw [stray?, List.find?_eq_none]
  simpa using hothers

/-- What is laid over no stray name has its own. -/
theorem stray?_laidOver (h : a.stray? = Option.none) : (b.laidOver a).stray? = b.stray? := by
  rw [stray?, laidOver, List.find?_append]
  rw [stray?] at h
  rw [h, Option.none_or, List.find?_filter]
  simp [stray?]

theorem namesOwn_laidOver (ha : a.namesOwn = false) (hb : b.namesOwn = false) :
    (b.laidOver a).namesOwn = false := by
  simp only [namesOwn, List.any_eq_false] at ha hb ⊢
  intro other hother
  rcases List.mem_append.mp hother with hmem | hmem
  · exact ha other hmem
  · exact hb other (List.mem_filter.mp hmem).1

end Overrides

/-! ### One call -/

namespace Configuration

variable {c c' c'' : Configuration} {a b o : Overrides}

/-- A call that names what it overrides fails, whatever it gives for it. -/
theorem withOverrides_of_namesOwn (h : o.namesOwn = true) :
    c.withOverrides o = .error (.failed .namedTwice) := by
  rw [withOverrides, if_pos h]

/-- Overrides of nothing change nothing. -/
theorem withOverrides_of_isEmpty (hown : o.namesOwn = false) (h : o.isEmpty = true) :
    c.withOverrides o = .ok c := by
  rw [withOverrides, hown, h]
  rfl

/-- Other overrides are checked together with all else, unless they are given for something that
is no setting. -/
theorem withOverrides_of_not_isEmpty (hown : o.namesOwn = false) (h : o.isEmpty = false) :
    c.withOverrides o =
      match o.stray? with
      | some (name, _) => .error (.failed (.unknownSetting name))
      | none => (o.apply c.draft).check #[] := by
  rw [withOverrides, hown, h]
  rfl

/-- Overrides that are accepted change nothing, or pass the check together with all else. -/
theorem withOverrides_eq_ok (h : c.withOverrides o = .ok c') :
    o.namesOwn = false ∧ o.stray? = none ∧
      (o.isEmpty = true ∧ c' = c ∨
        o.isEmpty = false ∧ (o.apply c.draft).check #[] = .ok c') := by
  cases hown : o.namesOwn with
  | true =>
      rw [withOverrides_of_namesOwn hown] at h
      cases h
  | false =>
      refine ⟨rfl, ?_⟩
      cases hempty : o.isEmpty with
      | true =>
          rw [withOverrides_of_isEmpty hown hempty] at h
          exact ⟨Overrides.stray?_eq_none_of_isEmpty hempty, .inl ⟨rfl, (Except.ok.inj h).symm⟩⟩
      | false =>
          rw [withOverrides_of_not_isEmpty hown hempty] at h
          cases hstray : o.stray? with
          | some other =>
              rw [hstray] at h
              cases h
          | none =>
              rw [hstray] at h
              exact ⟨rfl, .inr ⟨rfl, h⟩⟩

/-- A configuration with overrides is, as a draft, what is left of the draft with the overrides
laid over it. -/
theorem draft_withOverrides (hc : c.order.walked = c.order) (h : c.withOverrides o = .ok c') :
    c'.draft = (o.apply c.draft).walked := by
  obtain ⟨-, -, ⟨hempty, rfl⟩ | ⟨-, hcheck⟩⟩ := withOverrides_eq_ok h
  · rw [Overrides.apply_of_isEmpty hempty, Draft.walked, draft, hc]
  · exact Draft.draft_of_check hcheck

theorem order_withOverrides (hc : c.order.walked = c.order) (h : c.withOverrides o = .ok c') :
    c'.order = (o.order.orElse c.order).walked :=
  congrArg Draft.order (draft_withOverrides hc h)

/-- Overrides after others that were accepted are overrides over those, unless they would have to
walk over an iterator that the others used up. -/
theorem withOverrides_withOverrides (hc : c.order.walked = c.order)
    (h : c.withOverrides a = .ok c') (hb : b.namesOwn = false)
    (horder : a.order.isOnce = false ∨ b.order.isNull = false ∨ b.isEmpty = true) :
    c'.withOverrides b = c.withOverrides (b.laidOver a) := by
  obtain ⟨hown, hstray, hcases⟩ := withOverrides_eq_ok h
  have hdraft := draft_withOverrides hc h
  have hboth := Overrides.namesOwn_laidOver hown hb
  have hstray := Overrides.stray?_laidOver (b := b) hstray
  cases hempty : b.isEmpty with
  | true =>
      have hboth_empty : (b.laidOver a).isEmpty = a.isEmpty := by
        rw [Overrides.isEmpty_laidOver, hempty, Bool.true_and]
      rw [withOverrides_of_isEmpty hb hempty]
      rcases hcases with ⟨hnothing, rfl⟩ | ⟨hne, hcheck⟩
      · rw [withOverrides_of_isEmpty hboth (hboth_empty.trans hnothing)]
      · rw [withOverrides_of_not_isEmpty hboth (hboth_empty.trans hne), hstray,
          Overrides.stray?_eq_none_of_isEmpty hempty, Overrides.apply_laidOver,
          Overrides.apply_of_isEmpty hempty]
        exact hcheck.symm
  | false =>
      have hne : (b.laidOver a).isEmpty = false := by
        rw [Overrides.isEmpty_laidOver, hempty, Bool.false_and]
      have happly : b.apply c'.draft = (b.laidOver a).apply c.draft := by
        rw [Overrides.apply_laidOver, hdraft]
        rcases horder with honce | hnull | hnothing
        · rw [Overrides.walked_apply hc honce]
        · exact Overrides.apply_walked hnull _
        · rw [hempty] at hnothing
          cases hnothing
      rw [withOverrides_of_not_isEmpty hb hempty, withOverrides_of_not_isEmpty hboth hne, hstray,
        happly]

/-- Where an iterator was used up, whatever is overridden needs another order. -/
theorem order_of_withOverrides_once (hc : c.order = .once []) (h : c.withOverrides o = .ok c') :
    o.order.isNull = false ∨ o.isEmpty = true := by
  obtain ⟨-, -, ⟨hempty, -⟩ | ⟨-, hcheck⟩⟩ := withOverrides_eq_ok h
  · exact .inr hempty
  · cases hnull : o.order.isNull with
    | false => exact .inl rfl
    | true =>
        have horder := (Draft.check_eq_ok_iff.mp hcheck).2.2.1
        rw [Overrides.apply, Offered.isNull_iff.mp hnull, Offered.null_orElse, draft, hc,
          Draft.checkOrder_once_nil] at horder
        cases horder

/-- Overrides that leave an iterator behind leave it used up. -/
theorem order_eq_once_nil (hc : c.order.walked = c.order) (honce : o.order.isOnce = true)
    (h : c.withOverrides o = .ok c') : c'.order = .once [] := by
  rw [order_withOverrides hc h, Offered.orElse_of_not_null (Offered.not_null_of_once honce),
    Offered.walked_of_once honce]

/-- Two calls that are both accepted are one. -/
theorem withOverrides_laidOver_of_ok (hc : c.order.walked = c.order)
    (h : c.withOverrides a = .ok c') (h' : c'.withOverrides b = .ok c'') :
    c.withOverrides (b.laidOver a) = .ok c'' := by
  have hb := (withOverrides_eq_ok h').1
  rw [← withOverrides_withOverrides hc h hb ?_]
  · exact h'
  · cases honce : a.order.isOnce with
    | false => exact .inl rfl
    | true => exact .inr (order_of_withOverrides_once (order_eq_once_nil hc honce h) h')

/-- After an iterator, some call is refused that could have been made together with the one before
it: it has no order, and the number of annotations only. -/
theorem exists_withOverrides_ne (hc : c.order.walked = c.order) (honce : a.order.isOnce = true)
    (h : c.withOverrides a = .ok c') :
    ∃ b, b.namesOwn = false ∧ c'.withOverrides b ≠ c.withOverrides (b.laidOver a) := by
  have hused := order_eq_once_nil hc honce h
  obtain ⟨hown, hstray, ⟨hempty, -⟩ | ⟨-, hcheck⟩⟩ := withOverrides_eq_ok h
  · simp [Overrides.isEmpty, Offered.not_null_of_once honce] at hempty
  let b : Overrides := { Overrides.none with maxAnnotations := .int 0 }
  have hb : b.namesOwn = false := rfl
  have htogether : c.withOverrides (b.laidOver a) = .ok { c' with maxAnnotations := 0 } := by
    rw [withOverrides_of_not_isEmpty (Overrides.namesOwn_laidOver hown hb)
      (by rw [Overrides.isEmpty_laidOver]; rfl), Overrides.stray?_laidOver hstray,
      Overrides.apply_laidOver]
    obtain ⟨-, htoken, horder, htimeout, hdisabled⟩ := Draft.check_eq_ok_iff.mp hcheck
    exact Draft.check_eq_ok_iff.mpr ⟨rfl, htoken, horder, htimeout, hdisabled⟩
  refine ⟨b, hb, fun hsame => ?_⟩
  rcases order_of_withOverrides_once hused (hsame.trans htogether) with hnull | hempty
  · cases hnull
  · cases hempty

/-! ### Ranks -/

/-- Every severity has a rank of its own, from one to five. -/
def RanksSeverities (c : Configuration) : Prop :=
  ∃ ranks : Severity → Nat, (∀ v, c.rank v = .ok (ranks v)) ∧ Function.Injective ranks ∧
    Set.range ranks = Set.Icc 1 5

/-- The ranks in an order that has each severity once. -/
theorem ranks_of_perm {order : List Severity} (h : order.Perm Severity.all) :
    (∀ v, v ∈ order) ∧ (Function.Injective fun v => order.idxOf v + 1) ∧
      (Set.range fun v => order.idxOf v + 1) = Set.Icc 1 5 := by
  have hmem : ∀ v, v ∈ order := by
    intro v
    exact h.mem_iff.mpr (by cases v <;> decide)
  have hnodup : order.Nodup := h.nodup_iff.mpr (by decide)
  have hlength : order.length = 5 := h.length_eq
  refine ⟨hmem, ?_, ?_⟩
  · intro v w hrank
    exact (List.idxOf_inj (hmem v)).mp (Nat.succ.inj hrank)
  · ext n
    constructor
    · intro hn
      obtain ⟨v, rfl⟩ := hn
      have hplace := List.idxOf_lt_length_iff.mpr (hmem v)
      rw [hlength] at hplace
      exact ⟨Nat.succ_pos _, hplace⟩
    · intro hn
      obtain ⟨hone, hfive⟩ := hn
      have hplace : n - 1 < order.length := by
        rw [hlength]
        omega
      refine ⟨order[n - 1], ?_⟩
      show order.idxOf order[n - 1] + 1 = n
      rw [hnodup.idxOf_getElem _ hplace]
      omega

theorem rank_of_row?_eq_none (h : c.order.row? = none) (v : Severity) :
    c.rank v = .error .noPlaces := by
  rw [rank, h]

/-- In a row of severities, the rank is the place. -/
theorem rank_of_row?_eq_map {order : List Severity} {v : Severity}
    (h : c.order.row? = some (order.map Severity.value)) (hv : v ∈ order) :
    c.rank v = .ok (order.idxOf v + 1) := by
  have hsame : (fun w : Severity => w.value.same v.value) = fun w => w == v := by
    funext w
    rw [Bool.eq_iff_iff, beq_iff_eq]
    exact same_text_iff.trans Severity.value_injective.eq_iff
  have hplace : (order.map Severity.value).findIdx? (fun w => w.same v.value) =
      some (order.idxOf v) := by
    rw [List.findIdx?_map, Function.comp_def, hsame, List.findIdx?_eq_some_iff_findIdx_eq]
    exact ⟨List.idxOf_lt_length_iff.mpr hv, rfl⟩
  rw [rank, h]
  simp only [hplace]

/-- An order that passed and has places is a row of severities. -/
theorem Valid.exists_row {row : List Value} (h : c.Valid) (hrow : c.order.row? = some row) :
    ∃ order : List Severity, row = order.map Severity.value ∧ order.Perm Severity.all := by
  rcases h.order_passed with honce | ⟨v, items, hvalue, hitems, hperm⟩
  · rw [honce] at hrow
    cases hrow
  · have hsame : v.items? = some row := by
      rw [hvalue] at hrow
      exact Offered.items?_of_row? hrow
    obtain rfl := Option.some.inj (hitems.symm.trans hsame)
    obtain ⟨order, rfl⟩ := exists_map_value fun v hv => hperm.mem_iff.mp hv
    exact ⟨order, rfl, map_value_perm_iff.mp hperm⟩

/-- Severities have ranks as long as what is kept as the order has places. -/
theorem Valid.ranksSeverities_iff (h : c.Valid) :
    c.RanksSeverities ↔ c.order.row?.isSome = true := by
  cases hrow : c.order.row? with
  | none =>
      simp only [Option.isSome_none, Bool.false_eq_true, iff_false]
      intro hranks
      obtain ⟨ranks, hok, -, -⟩ := hranks
      have hfault := hok .critical
      rw [rank_of_row?_eq_none hrow] at hfault
      cases hfault
  | some row =>
      simp only [Option.isSome_some, iff_true]
      obtain ⟨order, rfl, hperm⟩ := h.exists_row hrow
      obtain ⟨hmem, hinjective, hrange⟩ := ranks_of_perm hperm
      exact ⟨_, fun v => rank_of_row?_eq_map hrow (hmem v), hinjective, hrange⟩

/-! ### Many calls -/

/-- A configuration to start from: that of a run without any settings, or that of a mapping. -/
def IsGiven (c : Configuration) : Prop :=
  c = Settings.default.configuration ∨
    ∃ store entries s, Settings.ofEntries store entries = .ok s ∧ c = s.configuration

/-- The configuration after a call, which stays as it is if the call fails. -/
def attempt (c : Configuration) (o : Overrides) : Configuration :=
  (c.withOverrides o).toOption.getD c

/-- The configuration after some calls. -/
def attempts (c : Configuration) (calls : List Overrides) : Configuration := calls.foldl attempt c

theorem attempt_of_ok (h : c.withOverrides o = .ok c') : c.attempt o = c' := by
  rw [attempt, h]
  rfl

theorem attempt_of_error {e : SettingsError} (h : c.withOverrides o = .error e) :
    c.attempt o = c := by
  rw [attempt, h]
  rfl

theorem IsGiven.valid (h : c.IsGiven) : c.Valid := by
  rcases h with rfl | ⟨store, entries, s, hentries, rfl⟩
  · obtain ⟨store, d, hcheck⟩ := Settings.checked_default
    exact Draft.valid_of_check hcheck
  · obtain ⟨r, -, -, hcheck⟩ := configuration_of_ofEntries hentries
    exact Draft.valid_of_check hcheck

/-- What is given has an order with places. -/
theorem IsGiven.row? (h : c.IsGiven) : c.order.row?.isSome = true := by
  rcases h with rfl | ⟨store, entries, s, -, rfl⟩
  · rfl
  · rfl

theorem Valid.withOverrides (h : c.Valid) (hc : c.withOverrides o = .ok c') : c'.Valid := by
  obtain ⟨-, -, ⟨-, rfl⟩ | ⟨-, hcheck⟩⟩ := withOverrides_eq_ok hc
  · exact h
  · exact Draft.valid_of_check hcheck

/-- A call keeps configurations valid, whether it fails or not. -/
theorem Valid.attempt (h : c.Valid) (o : Overrides) : (c.attempt o).Valid := by
  cases hcall : c.withOverrides o with
  | error e =>
      rw [attempt_of_error hcall]
      exact h
  | ok c' =>
      rw [attempt_of_ok hcall]
      exact h.withOverrides hcall

theorem Valid.attempts (h : c.Valid) (calls : List Overrides) : (c.attempts calls).Valid := by
  induction calls generalizing c with
  | nil => exact h
  | cons o calls ih => exact ih (h.attempt o)

/-- A call that offers no order, or one with places, keeps the order one with places. -/
theorem row?_attempt (hc : c.order.row?.isSome = true)
    (ho : o.order.isNull = true ∨ o.order.row?.isSome = true) :
    (c.attempt o).order.row?.isSome = true := by
  have hkept : (o.order.orElse c.order).row?.isSome = true := by
    cases hnull : o.order.isNull with
    | true =>
        rw [Offered.isNull_iff.mp hnull, Offered.null_orElse]
        exact hc
    | false =>
        rw [Offered.orElse_of_not_null hnull]
        exact ho.resolve_left (by simp [hnull])
  cases hcall : c.withOverrides o with
  | error e =>
      rw [attempt_of_error hcall]
      exact hc
  | ok c' =>
      rw [attempt_of_ok hcall, order_withOverrides (Offered.walked_of_row? hc) hcall,
        Offered.walked_of_row? hkept]
      exact hkept

theorem row?_attempts {calls : List Overrides} (hc : c.order.row?.isSome = true)
    (h : ∀ o ∈ calls, o.order.isNull = true ∨ o.order.row?.isSome = true) :
    (c.attempts calls).order.row?.isSome = true := by
  induction calls generalizing c with
  | nil => exact hc
  | cons o calls ih =>
      rw [List.forall_mem_cons] at h
      exact ih (row?_attempt hc h.1) h.2

/-- However many calls there are, one call would have done. -/
theorem Valid.exists_withOverrides_attempts (h : c.Valid) (calls : List Overrides) :
    ∃ o, c.withOverrides o = .ok (c.attempts calls) := by
  induction calls generalizing c with
  | nil => exact ⟨.none, rfl⟩
  | cons o calls ih =>
      obtain ⟨later, hlater⟩ := ih (h.attempt o)
      show ∃ o', c.withOverrides o' = .ok ((c.attempt o).attempts calls)
      cases hcall : c.withOverrides o with
      | error e =>
          rw [attempt_of_error hcall] at hlater ⊢
          exact ⟨later, hlater⟩
      | ok c' =>
          rw [attempt_of_ok hcall] at hlater ⊢
          exact ⟨later.laidOver o,
            withOverrides_laidOver_of_ok h.order_passed.walked hcall hlater⟩

/-- The number of annotations that a mapping gives is a whole number that is not negative. -/
theorem max_of_ofEntries {store : Store} {entries : List (Value × Value)} {s : Settings} {v : Value}
    (h : Settings.ofEntries store entries = .ok s)
    (hv : Value.get? entries "max_annotations" = some v) : v = .int s.maxAnnotations := by
  obtain ⟨r, hrequest, -, hcheck⟩ := configuration_of_ofEntries h
  have hmax := (Request.ofEntries_eq_ok_iff.mp hrequest).2.2.2.2.1
  rw [hv, Option.getD_some] at hmax
  rw [← hmax]
  exact Draft.checkMax_eq_ok (Draft.check_eq_ok_iff.mp hcheck).1

/-- So is the one that an override gives. -/
theorem max_of_withOverrides (hc : c.order.walked = c.order) (h : c.withOverrides o = .ok c')
    (hmax : o.maxAnnotations.isNull = false) : o.maxAnnotations = .int c'.maxAnnotations := by
  have hdraft : Value.int c'.maxAnnotations = o.maxAnnotations.orElse _ :=
    congrArg Draft.maxAnnotations (draft_withOverrides hc h)
  rw [Value.orElse_of_not_null hmax] at hdraft
  exact hdraft.symm

end Configuration

/-- Configurations over any number of calls, some of which fail and leave them as they are.

What is there in the end could have been had by one call. The number of annotations was given as a
whole number that is not negative, and the token is not empty and has no blanks to strip. What is
kept as the order yields each severity once, or is an iterator that did so when it was checked.
Ranks tell severities apart and are the numbers from one to five exactly if what is kept has places,
as it does if only orders with places are offered; otherwise no severity has a rank. Overrides of
nothing change nothing, unless they name what is overridden. Overrides that are accepted are what
the configuration then holds. Calls that are accepted one after the other come to the same as one
call with the later laid over the earlier, and so do all calls, with the configuration or the error
that they come to, exactly if the earlier one left no iterator behind. -/
theorem configurations_stay_valid {start : Configuration} (hstart : start.IsGiven)
    (calls : List Overrides) :
    (∀ store entries s v, Settings.ofEntries store entries = .ok s →
        Value.get? entries "max_annotations" = some v → v = .int s.configuration.maxAnnotations) ∧
    (∃ o, start.withOverrides o = .ok (start.attempts calls)) ∧
    ((∀ o ∈ calls, o.order.isNull = true ∨ o.order.row?.isSome = true) →
      (start.attempts calls).RanksSeverities) ∧
    ∀ c, c = start.attempts calls →
      (c.token ≠ [] ∧ Text.stripChars c.token.chars = c.token.chars) ∧
      (c.order = .once [] ∨
        ∃ v items, c.order = .value v ∧ v.items? = some items ∧ items.Perm severityValues) ∧
      (c.RanksSeverities ↔ c.order.row?.isSome = true) ∧
      (c.order.row? = none → ∀ v, c.rank v = .error .noPlaces) ∧
      (∀ o, o.isEmpty = true → o.namesOwn = false → c.withOverrides o = .ok c) ∧
      (∀ o, o.namesOwn = true → c.withOverrides o = .error (.failed .namedTwice)) ∧
      (∀ o c', c.withOverrides o = .ok c' → c'.draft = (o.apply c.draft).walked ∧
        (o.maxAnnotations.isNull = false → o.maxAnnotations = .int c'.maxAnnotations)) ∧
      ∀ a c', c.withOverrides a = .ok c' →
        (∀ b c'', c'.withOverrides b = .ok c'' → c.withOverrides (b.laidOver a) = .ok c'') ∧
        ((∀ b, b.namesOwn = false → c'.withOverrides b = c.withOverrides (b.laidOver a)) ↔
          a.order.isOnce = false) := by
  have hvalid := hstart.valid.attempts calls
  refine ⟨fun store entries s v => Configuration.max_of_ofEntries,
    hstart.valid.exists_withOverrides_attempts calls,
    fun h => hvalid.ranksSeverities_iff.mpr (Configuration.row?_attempts hstart.row? h),
    fun c hc => ?_⟩
  rw [← hc] at hvalid
  have hwalked := hvalid.order_passed.walked
  refine ⟨⟨hvalid.token_ne_nil, hvalid.strip_token⟩, hvalid.order_passed,
    hvalid.ranksSeverities_iff, Configuration.rank_of_row?_eq_none,
    fun o hempty hown => Configuration.withOverrides_of_isEmpty hown hempty,
    fun o => Configuration.withOverrides_of_namesOwn, fun o c' h => ?_, fun a c' h => ?_⟩
  · exact ⟨Configuration.draft_withOverrides hwalked h,
      Configuration.max_of_withOverrides hwalked h⟩
  · refine ⟨fun b c'' => Configuration.withOverrides_laidOver_of_ok hwalked h, ?_, ?_⟩
    · intro hall
      cases honce : a.order.isOnce with
      | false => rfl
      | true =>
          obtain ⟨b, hb, hne⟩ := Configuration.exists_withOverrides_ne hwalked honce h
          exact absurd (hall b hb) hne
    · intro honce b hb
      exact Configuration.withOverrides_withOverrides hwalked h hb (.inl honce)

/-- A truth value is refused as a number, and the order that is turned round after it is not. -/
theorem configurations_stay_valid_refused :
    ∃ s c, Settings.ofEntries #[] [(.ofString "max_annotations", .int 7)] = .ok s ∧
      c = s.configuration.attempts [{ Overrides.none with maxAnnotations := .bool true },
        { Overrides.none with order := .value (.list severityValues.reverse) }] ∧
      c.maxAnnotations = 7 ∧ c.rank .info = .ok 1 ∧ c.RanksSeverities := by
  have hstart : Settings.ofEntries #[] [(.ofString "max_annotations", .int 7)] =
      .ok { Settings.default with maxAnnotations := 7 } := rfl
  have hrun := (configurations_stay_valid (.inr ⟨_, _, _, hstart, rfl⟩)
    [{ Overrides.none with maxAnnotations := .bool true },
      { Overrides.none with order := .value (.list severityValues.reverse) }]).2.2.1
  refine ⟨_, _, hstart, rfl, rfl, rfl, hrun ?_⟩
  intro o ho
  rcases List.mem_pair.mp ho with rfl | rfl
  · exact .inl rfl
  · exact .inr rfl

/-- Three calls that are not what they should be. A set of the severities is accepted as their
order, and no severity has a rank in it. An iterator over them is accepted, and the next call is
refused for it, although both could have been made at once. And a call that gives nothing for the
name of what it overrides fails. -/
theorem withOverrides_misled :
    (∃ c, Settings.default.configuration.withOverrides
        { Overrides.none with order := .value (.set severityValues) } = .ok c ∧
      ∀ v, c.rank v = .error .noPlaces) ∧
    (∃ c c' : Configuration, ∃ a b : Overrides,
      a = { Overrides.none with order := .once severityValues } ∧
      b = { Overrides.none with maxAnnotations := .int 1 } ∧
      Settings.default.configuration.withOverrides a = .ok c ∧
      c.withOverrides b = .error (.invalid .orderIncomplete) ∧
      Settings.default.configuration.withOverrides (b.laidOver a) = .ok c') ∧
    ∃ (c : Configuration) (a b : Overrides),
      a = { Overrides.none with maxAnnotations := .int 1 } ∧
      b = { Overrides.none with others := [("self", .null)] } ∧ b.isEmpty = true ∧
      Settings.default.configuration.withOverrides a = .ok c ∧
      c.withOverrides b = .error (.failed .namedTwice) ∧
      Settings.default.configuration.withOverrides (b.laidOver a) = .ok c :=
  ⟨⟨_, rfl, fun _ => rfl⟩, ⟨_, _, _, _, rfl, rfl, rfl, rfl, rfl⟩,
    ⟨_, _, _, rfl, rfl, rfl, rfl, rfl, rfl⟩⟩

end TemplateAudit
