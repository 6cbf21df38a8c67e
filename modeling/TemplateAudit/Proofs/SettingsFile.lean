import TemplateAudit.Command.Run
import TemplateAudit.Proofs.Annotate
import TemplateAudit.Proofs.Construction
import TemplateAudit.Proofs.Rounding
import TemplateAudit.Proofs.Settings

/-!
# TemplateAudit.Proofs.SettingsFile

How reading a settings file ends.

There are settings, or there is a problem that the program tells as a wrong use of it, or something
fails that it does not handle. What fails is said exactly, in the order in which a content is read:

* `ContentFails`: the text cannot be decoded or named, a scalar has no value, or the document is a
  mapping whose entries fail;
* `EntriesFail`: a key that is no text, an integer too long to be written where a value has to be
  shown, a number of seconds that no double is near.

Each function on the way has a lemma that says when it fails (`…_eq_failed_iff`) or that it never
does (`…_ne_failed`). `load_cases` puts them together, with the limit of time that settings can have
and with what a call of the program makes of each ending.
-/

namespace TemplateAudit

open TemplateAudit.Data (Store Value)
open TemplateAudit.Files (Path Tree)
open TemplateAudit.Number (Binary64)

/-! ### Values without a text -/

/-- A value whose parts are all written out has a text. -/
theorem Data.Value.isUnwritable_eq_false {store : Store} {v : Value}
    (hlong : v.holdsTooLong = false) (hlinks : v.links = []) : v.isUnwritable store = false := by
  simp [Value.isUnwritable, hlong, hlinks, Value.reachable]

theorem errorAbout_eq_failed_iff {store : Store} {problem : String → SettingsProblem} {v : Value}
    {f : SettingsFailure} :
    errorAbout store problem v = .failed f ↔ f = .valueTooLong ∧ v.isUnwritable store = true := by
  unfold errorAbout
  split
  case isTrue h => simp [h, eq_comm]
  case isFalse h => simp [h]

/-! ### Keys -/

/-- A key that is no name of a setting. -/
def IsUnknown (k : Value) : Prop := ∀ name ∈ settingNames, k ≠ .ofString name

theorem mem_unknown_iff {keys : List Value} {k : Value} :
    k ∈ keys.filter (fun k => !settingNames.any fun name => k.same (.ofString name)) ↔
      k ∈ keys ∧ IsUnknown k := by
  have hknown : (settingNames.any fun name => k.same (.ofString name)) = false ↔ IsUnknown k := by
    simp only [List.any_eq_false, Value.ofString, same_text_iff]
    rfl
  rw [List.mem_filter, Bool.not_eq_true', hknown]

theorem mapM_eq_none_iff {α β : Type} {f : α → Option β} {items : List α} :
    items.mapM f = none ↔ ∃ a ∈ items, f a = none := by
  induction items with
  | nil => simp
  | cons a items ih =>
      cases ha : f a with
      | none => simp [ha]
      | some b =>
          cases hitems : items.mapM f with
          | none => simp [ha, hitems, ← ih]
          | some bs =>
              rw [hitems] at ih
              simp [ha, hitems, ← ih]

theorem checkKeys_eq_ok_iff {keys : List Value} :
    checkKeys keys = .ok () ↔ ∀ k ∈ keys, ¬ IsUnknown k := by
  unfold checkKeys
  dsimp only
  split
  case isTrue hempty =>
      rw [List.isEmpty_iff] at hempty
      refine ⟨fun _ k hk hunknown => ?_, fun _ => rfl⟩
      exact List.not_mem_nil (hempty ▸ mem_unknown_iff.mpr ⟨hk, hunknown⟩)
  case isFalse hempty =>
      obtain ⟨k, hk⟩ := List.exists_mem_of_ne_nil _ (mt List.isEmpty_iff.mpr hempty)
      obtain ⟨hmem, hunknown⟩ := mem_unknown_iff.mp hk
      refine ⟨fun h => ?_, fun h => absurd hunknown (h k hmem)⟩
      split at h <;> cases h

theorem checkKeys_eq_failed_iff {keys : List Value} {f : SettingsFailure} :
    checkKeys keys = .error (.failed f) ↔
      f = .keysNotTexts ∧ ∃ k ∈ keys, IsUnknown k ∧ ∀ t, k ≠ .text t := by
  unfold checkKeys
  dsimp only
  split
  case isTrue hempty =>
      rw [List.isEmpty_iff] at hempty
      simp only [reduceCtorEq, false_iff]
      rintro ⟨-, k, hk, hunknown, -⟩
      exact List.not_mem_nil (hempty ▸ mem_unknown_iff.mpr ⟨hk, hunknown⟩)
  case isFalse hempty =>
      split
      case h_1 names hread =>
          simp only [Except.error.injEq, reduceCtorEq, false_iff]
          rintro ⟨-, k, hk, hunknown, htext⟩
          refine absurd (hread.symm.trans (mapM_eq_none_iff.mpr
            ⟨k, mem_unknown_iff.mpr ⟨hk, hunknown⟩, ?_⟩)) (by simp)
          cases k with
          | text t => exact absurd rfl (htext t)
          | _ => rfl
      case h_2 hread =>
          obtain ⟨k, hk, hnone⟩ := mapM_eq_none_iff.mp hread
          obtain ⟨hmem, hunknown⟩ := mem_unknown_iff.mp hk
          have htext : ∀ t, k ≠ .text t := by
            rintro t rfl
            cases hnone
          simp only [Except.error.injEq, SettingsError.failed.injEq]
          exact ⟨fun h => ⟨h.symm, k, hmem, hunknown, htext⟩, fun h => h.1.symm⟩

/-! ### Single settings -/

theorem readSeverity_ne_failed {store : Store} {v : Value} {f : SettingsFailure} :
    readSeverity store v ≠ .error (.failed f) := by
  unfold readSeverity
  split
  · simp
  · split <;> simp

theorem mapM_ne_error {ε α β : Type} {read : α → Except ε β} {e : ε}
    (h : ∀ a, read a ≠ .error e) (items : List α) : items.mapM read ≠ .error e := by
  induction items with
  | nil => exact fun h => nomatch h
  | cons a items ih =>
      rw [List.mapM_cons]
      intro herror
      rcases bind_eq_error_iff.mp herror with ha | ⟨b, -, hrest⟩
      · exact h a ha
      · rcases bind_eq_error_iff.mp hrest with hitems | ⟨bs, -, hpure⟩
        · exact ih hitems
        · cases hpure

theorem readOrder_ne_failed {store : Store} {v : Value} {f : SettingsFailure} :
    readOrder store v ≠ .error (.failed f) := by
  unfold readOrder
  split
  · exact mapM_ne_error (fun _ => readSeverity_ne_failed) _
  · exact mapM_ne_error (fun _ => readSeverity_ne_failed) _
  · simp

/-- What a value lists as identifiers of rules. -/
def ruleItems : Value → List Value
  | .list items => items
  | .tuple items => items
  | .set members => members
  | _ => []

theorem readTexts_eq_failed_iff {store : Store} {vs : List Value} {f : SettingsFailure} :
    readTexts store vs = .error (.failed f) ↔
      f = .valueTooLong ∧ ∃ v ∈ vs, v.isUnwritable store = true := by
  unfold readTexts
  split
  case isTrue h =>
      simp only [Except.error.injEq, SettingsError.failed.injEq]
      exact ⟨fun hf => ⟨hf.symm, List.any_eq_true.mp h⟩, fun hf => hf.1.symm⟩
  case isFalse h =>
      rw [List.any_eq_true] at h
      simp [h]

theorem readDisabled_eq_failed_iff {store : Store} {v : Value} {f : SettingsFailure} :
    readDisabled store v = .error (.failed f) ↔
      f = .valueTooLong ∧ ∃ item ∈ ruleItems (v.opened store), item.isUnwritable store = true := by
  unfold readDisabled
  cases v.opened store with
  | list items => exact readTexts_eq_failed_iff
  | tuple items => exact readTexts_eq_failed_iff
  | set members => exact readTexts_eq_failed_iff
  | _ => simp [ruleItems]

theorem readTimeout_eq_failed_iff {store : Store} {v : Value} {f : SettingsFailure} :
    readTimeout store v = .error (.failed f) ↔
      (f = .timeoutTooLarge ∧ ∃ n, v = .int n ∧ Binary64.ceiling ≤ n.natAbs) ∨
        (f = .valueTooLong ∧ (∀ n, v ≠ .int n) ∧ v.isUnwritable store = true) := by
  have hwritable : ∀ v : Value, v.holdsTooLong = false → v.links = [] →
      v.isUnwritable store = false := fun _ => Value.isUnwritable_eq_false
  unfold readTimeout
  cases v with
  | int n =>
      dsimp only
      split
      case h_1 d hd =>
          have hsmall : ¬ Binary64.ceiling ≤ n.natAbs := by
            rw [← Binary64.ofInt?_eq_none_iff, hd]
            simp
          simp [hsmall]
      case h_2 hnone =>
          have hlarge := (Binary64.ofInt?_eq_none_iff n).mp hnone
          constructor
          · rintro ⟨⟩
            exact Or.inl ⟨rfl, n, rfl, hlarge⟩
          · rintro (⟨rfl, -⟩ | ⟨-, hint, -⟩)
            · rfl
            · exact absurd rfl (hint n)
  | bool b =>
      have hone : Binary64.ofInt? (if b then 1 else 0) ≠ none := by
        have hceiling := Binary64.one_lt_ceiling
        rw [ne_eq, Binary64.ofInt?_eq_none_iff]
        cases b <;> simp <;> omega
      obtain ⟨d, hd⟩ := Option.ne_none_iff_exists'.mp hone
      simp [hd, hwritable (.bool b) rfl rfl]
  | text t =>
      dsimp only
      split
      · simp [hwritable (.text t) rfl rfl]
      · simp [errorAbout_eq_failed_iff, hwritable (.text t) rfl rfl]
  | octets bs =>
      dsimp only
      split
      · simp [hwritable (.octets bs) rfl rfl]
      · simp [errorAbout_eq_failed_iff, hwritable (.octets bs) rfl rfl]
  | float d => simp [hwritable (.float d) rfl rfl]
  | _ => simp [errorAbout_eq_failed_iff]

theorem checkMax_eq_failed_iff {store : Store} {v : Value} {f : SettingsFailure} :
    Draft.checkMax store v = .error (.failed f) ↔
      f = .valueTooLong ∧ (∀ n, v ≠ .int n) ∧ v.isUnwritable store = true := by
  cases v with
  | int n =>
      simp only [Draft.checkMax]
      split <;> simp
  | _ => simp [Draft.checkMax, errorAbout_eq_failed_iff]

theorem checkToken_ne_failed {v : Value} {f : SettingsFailure} :
    Draft.checkToken v ≠ .error (.failed f) := by
  unfold Draft.checkToken
  split
  · split
    · simp
    · split <;> simp
  · simp

theorem checkOrder_ne_failed {order : List Severity} {f : SettingsFailure} :
    Draft.checkOrder (.ofSeverities order) ≠ .error (.failed f) := by
  have hkeys : (order.map Severity.value).all Value.isKey = true := by
    simp [Severity.value, Value.ofString, Value.isKey]
  simp only [Draft.checkOrder, Offered.ofSeverities, Offered.items?, Value.items?, hkeys,
    Bool.not_true, Bool.false_eq_true, if_false]
  split <;> simp

theorem checkTimeout_ne_failed {timeout : Option Binary64} {f : SettingsFailure} :
    Draft.checkTimeout (timeout.elim .null .float) ≠ .error (.failed f) := by
  cases timeout with
  | none => exact fun h => nomatch h
  | some d =>
      simp only [Option.elim_some, Draft.checkTimeout, Value.quantity?]
      split <;> simp

/-! ### Mappings -/

/-- All keys are names of settings. -/
def KeysKnown (entries : List (Value × Value)) : Prop :=
  ∀ k ∈ entries.map Prod.fst, ¬ IsUnknown k

/-- The order of severities, if there is one, can be read. -/
def OrderReads (store : Store) (entries : List (Value × Value)) : Prop :=
  ∀ v ∈ Value.get? entries "severity_order", ∃ order, readOrder store v = .ok order

/-- The rules that are off, if there are any, can be read. -/
def DisabledReads (store : Store) (entries : List (Value × Value)) : Prop :=
  ∀ v ∈ Value.get? entries "disabled_rules", v = .null ∨ ∃ ids, readDisabled store v = .ok ids

/-- The time that the rules may take, if it is given, can be read. -/
def TimeoutReads (store : Store) (entries : List (Value × Value)) : Prop :=
  ∀ v ∈ Value.get? entries "rule_timeout", v = .null ∨ ∃ d, readTimeout store v = .ok d

/-- How the entries of a mapping make the reading of settings fail, outside of what is told as a
problem. Settings are read one after the other, and what is read first is told first. -/
inductive EntriesFail (store : Store) (entries : List (Value × Value)) : SettingsFailure → Prop
  /-- A key is neither a name of a setting nor a text. -/
  | key {k : Value} (hmem : k ∈ entries.map Prod.fst) (hunknown : IsUnknown k)
      (htext : ∀ t, k ≠ .text t) : EntriesFail store entries .keysNotTexts
  /-- One of the rules that are off is named by something that holds an integer too long to be
  written. -/
  | rule {v item : Value} (hkeys : KeysKnown entries) (horder : OrderReads store entries)
      (hv : Value.get? entries "disabled_rules" = some v)
      (hitem : item ∈ ruleItems (v.opened store)) (hlong : item.isUnwritable store = true) :
      EntriesFail store entries .valueTooLong
  /-- The time is an integer that no double is near. -/
  | timeoutLarge {n : Int} (hkeys : KeysKnown entries) (horder : OrderReads store entries)
      (hdisabled : DisabledReads store entries)
      (hv : Value.get? entries "rule_timeout" = some (.int n))
      (hlarge : Binary64.ceiling ≤ n.natAbs) : EntriesFail store entries .timeoutTooLarge
  /-- The time is no number, and holds an integer too long to be written. -/
  | timeoutLong {v : Value} (hkeys : KeysKnown entries) (horder : OrderReads store entries)
      (hdisabled : DisabledReads store entries) (hv : Value.get? entries "rule_timeout" = some v)
      (hint : ∀ n, v ≠ .int n) (hlong : v.isUnwritable store = true) :
      EntriesFail store entries .valueTooLong
  /-- The number of annotations is no integer, and holds one too long to be written. -/
  | max {v : Value} (hkeys : KeysKnown entries) (horder : OrderReads store entries)
      (hdisabled : DisabledReads store entries) (htimeout : TimeoutReads store entries)
      (hv : Value.get? entries "max_annotations" = some v) (hint : ∀ n, v ≠ .int n)
      (hlong : v.isUnwritable store = true) : EntriesFail store entries .valueTooLong

section Optional

variable {α : Type} {v? : Option Value} {missing : α} {read : Value → Except SettingsError α}

theorem exists_readUnlessNull_iff :
    (∃ a, readUnlessNull v? missing read = .ok a) ↔ ∀ v ∈ v?, v = .null ∨ ∃ a, read v = .ok a := by
  unfold readUnlessNull
  split
  · simp
  · simp
  case h_3 v hnull => simp [show v ≠ .null from hnull]

theorem readUnlessNull_eq_error_iff {e : SettingsError} :
    readUnlessNull v? missing read = .error e ↔
      ∃ v, v? = some v ∧ v ≠ .null ∧ read v = .error e := by
  unfold readUnlessNull
  split
  · simp
  · simp
  case h_3 v hnull => simp [show v ≠ .null from hnull]

end Optional

/-- The order of severities that entries ask for. -/
def orderOf (store : Store) (entries : List (Value × Value)) :
    Except SettingsError (List Severity) :=
  match Value.get? entries "severity_order" with
  | some v => readOrder store v
  | none => .ok Severity.all

/-- The rules that entries switch off. -/
def disabledOf (store : Store) (entries : List (Value × Value)) :
    Except SettingsError (List Text) :=
  readUnlessNull (Value.get? entries "disabled_rules") [] (readDisabled store)

/-- The time that entries give to the rules. -/
def timeoutOf (store : Store) (entries : List (Value × Value)) :
    Except SettingsError (Option Binary64) :=
  readUnlessNull (Value.get? entries "rule_timeout") none fun v => (readTimeout store v).map some

theorem Request.ofEntries_eq (store : Store) (entries : List (Value × Value)) :
    Request.ofEntries store entries = (do
      checkKeys (entries.map Prod.fst)
      let order ← orderOf store entries
      let disabled ← disabledOf store entries
      let timeout ← timeoutOf store entries
      return {
        maxAnnotations := (Value.get? entries "max_annotations").getD (.int 3)
        token := (Value.get? entries "suppression_token").getD (.text defaultToken)
        order, disabled, timeout }) := by
  unfold Request.ofEntries orderOf
  dsimp only
  cases Value.get? entries "severity_order" <;> rfl

theorem exists_orderOf_iff {store : Store} {entries : List (Value × Value)} :
    (∃ order, orderOf store entries = .ok order) ↔ OrderReads store entries := by
  unfold orderOf OrderReads
  cases Value.get? entries "severity_order" with
  | none => simp
  | some v => simp

theorem orderOf_ne_failed {store : Store} {entries : List (Value × Value)} {f : SettingsFailure} :
    orderOf store entries ≠ .error (.failed f) := by
  unfold orderOf
  split
  · exact readOrder_ne_failed
  · exact fun h => nomatch h

section Entries

variable {store : Store} {entries : List (Value × Value)} {f : SettingsFailure}

theorem exists_disabledOf_iff :
    (∃ ids, disabledOf store entries = .ok ids) ↔ DisabledReads store entries :=
  exists_readUnlessNull_iff

theorem exists_timeoutOf_iff :
    (∃ timeout, timeoutOf store entries = .ok timeout) ↔ TimeoutReads store entries := by
  have hmap : ∀ v, (∃ a, (readTimeout store v).map some = .ok a) ↔
      ∃ d, readTimeout store v = .ok d := by
    intro v
    cases readTimeout store v <;> simp [Except.map]
  rw [timeoutOf, exists_readUnlessNull_iff]
  simp only [hmap]
  rfl

theorem disabledOf_eq_failed_iff :
    disabledOf store entries = .error (.failed f) ↔
      f = .valueTooLong ∧ ∃ v, Value.get? entries "disabled_rules" = some v ∧
        ∃ item ∈ ruleItems (v.opened store), item.isUnwritable store = true := by
  rw [disabledOf, readUnlessNull_eq_error_iff]
  simp only [readDisabled_eq_failed_iff]
  constructor
  · rintro ⟨v, hv, -, hf, hitem⟩
    exact ⟨hf, v, hv, hitem⟩
  · rintro ⟨hf, v, hv, hitem⟩
    refine ⟨v, hv, ?_, hf, hitem⟩
    rintro rfl
    obtain ⟨item, hmem, -⟩ := hitem
    exact List.not_mem_nil hmem

theorem timeoutOf_eq_failed_iff :
    timeoutOf store entries = .error (.failed f) ↔
      ∃ v, Value.get? entries "rule_timeout" = some v ∧
        ((f = .timeoutTooLarge ∧ ∃ n, v = .int n ∧ Binary64.ceiling ≤ n.natAbs) ∨
          (f = .valueTooLong ∧ (∀ n, v ≠ .int n) ∧ v.isUnwritable store = true)) := by
  have hmap : ∀ v, (readTimeout store v).map some = .error (.failed f) ↔
      readTimeout store v = .error (.failed f) := by
    intro v
    cases readTimeout store v <;> simp [Except.map]
  rw [timeoutOf, readUnlessNull_eq_error_iff]
  simp only [hmap, readTimeout_eq_failed_iff]
  constructor
  · rintro ⟨v, hv, -, hread⟩
    exact ⟨v, hv, hread⟩
  · rintro ⟨v, hv, hread⟩
    refine ⟨v, hv, ?_, hread⟩
    rintro rfl
    have hnull : Value.null.isUnwritable store = false := Value.isUnwritable_eq_false rfl rfl
    rcases hread with ⟨-, n, hn, -⟩ | ⟨-, -, hlong⟩
    · cases hn
    · rw [hnull] at hlong
      cases hlong

/-- Of what a mapping asks for, only the number of annotations can fail in the check. -/
theorem check_eq_failed_iff {r : Request} :
    r.draft.check store = .error (.failed f) ↔
      Draft.checkMax store r.maxAnnotations = .error (.failed f) := by
  constructor
  · intro hcheck
    rcases bind_eq_error_iff.mp hcheck with hmax | ⟨max, -, hcheck⟩
    · exact hmax
    rcases bind_eq_error_iff.mp hcheck with htoken | ⟨token, -, hcheck⟩
    · exact absurd htoken checkToken_ne_failed
    rcases bind_eq_error_iff.mp hcheck with horder | ⟨order, -, hcheck⟩
    · exact absurd horder checkOrder_ne_failed
    rcases bind_eq_error_iff.mp hcheck with htime | ⟨time, -, hcheck⟩
    · exact absurd htime checkTimeout_ne_failed
    · cases hcheck
  · intro hmax
    exact bind_eq_error_iff.mpr (Or.inl hmax)

/-- What a request is made of. -/
theorem Request.ofEntries_eq_ok_iff {r : Request} :
    Request.ofEntries store entries = .ok r ↔
      KeysKnown entries ∧ orderOf store entries = .ok r.order ∧
        disabledOf store entries = .ok r.disabled ∧ timeoutOf store entries = .ok r.timeout ∧
        r.maxAnnotations = (Value.get? entries "max_annotations").getD (.int 3) ∧
        r.token = (Value.get? entries "suppression_token").getD (.text defaultToken) := by
  rw [Request.ofEntries_eq]
  constructor
  · intro h
    obtain ⟨⟨⟩, hkeys, h⟩ := bind_eq_ok_iff.mp h
    obtain ⟨order, horder, h⟩ := bind_eq_ok_iff.mp h
    obtain ⟨disabled, hdisabled, h⟩ := bind_eq_ok_iff.mp h
    obtain ⟨timeout, htimeout, h⟩ := bind_eq_ok_iff.mp h
    obtain rfl := Except.ok.inj h
    exact ⟨checkKeys_eq_ok_iff.mp hkeys, horder, hdisabled, htimeout, rfl, rfl⟩
  · intro h
    obtain ⟨hkeys, horder, hdisabled, htimeout, hmax, htoken⟩ := h
    rw [checkKeys_eq_ok_iff.mpr hkeys, horder, hdisabled, htimeout, ← hmax, ← htoken]
    rfl

/-- Settings fail as what is asked for does, or as the check of it. -/
theorem ofEntries_eq_error_iff {e : SettingsError} :
    Settings.ofEntries store entries = .error e ↔
      Request.ofEntries store entries = .error e ∨
        ∃ r, Request.ofEntries store entries = .ok r ∧ r.draft.check store = .error e := by
  rw [Settings.ofEntries, bind_eq_error_iff]
  refine or_congr_right (exists_congr fun r => and_congr_right fun _ => ?_)
  cases r.draft.check store with
  | error e' => simp [bind, Except.bind]
  | ok c => simp [bind, Except.bind, pure, Except.pure]

/-- The settings of a mapping are read up to the first one that cannot be. -/
theorem EntriesFail.of_ofEntries (h : Settings.ofEntries store entries = .error (.failed f)) :
    EntriesFail store entries f := by
  rcases ofEntries_eq_error_iff.mp h with hrequest | ⟨r, hrequest, hcheck⟩
  · rw [Request.ofEntries_eq] at hrequest
    rcases bind_eq_error_iff.mp hrequest with hkeys | ⟨⟨⟩, hkeys, hrequest⟩
    · obtain ⟨rfl, k, hmem, hunknown, htext⟩ := checkKeys_eq_failed_iff.mp hkeys
      exact .key hmem hunknown htext
    have hknown := checkKeys_eq_ok_iff.mp hkeys
    rcases bind_eq_error_iff.mp hrequest with horder | ⟨order, horder, hrequest⟩
    · exact absurd horder orderOf_ne_failed
    have horderReads := exists_orderOf_iff.mp ⟨order, horder⟩
    rcases bind_eq_error_iff.mp hrequest with hdisabled | ⟨ids, hdisabled, hrequest⟩
    · obtain ⟨rfl, v, hv, item, hitem, hlong⟩ := disabledOf_eq_failed_iff.mp hdisabled
      exact .rule hknown horderReads hv hitem hlong
    have hdisabledReads := exists_disabledOf_iff.mp ⟨ids, hdisabled⟩
    rcases bind_eq_error_iff.mp hrequest with htimeout | ⟨timeout, -, hpure⟩
    · obtain ⟨v, hv, htimeout⟩ := timeoutOf_eq_failed_iff.mp htimeout
      rcases htimeout with ⟨rfl, n, rfl, hlarge⟩ | ⟨rfl, hint, hlong⟩
      · exact .timeoutLarge hknown horderReads hdisabledReads hv hlarge
      · exact .timeoutLong hknown horderReads hdisabledReads hv hint hlong
    · cases hpure
  · obtain ⟨hknown, horder, hdisabled, htimeout, hmax, -⟩ :=
      Request.ofEntries_eq_ok_iff.mp hrequest
    obtain ⟨rfl, hint, hlong⟩ := checkMax_eq_failed_iff.mp (check_eq_failed_iff.mp hcheck)
    cases hv : Value.get? entries "max_annotations" with
    | none =>
        rw [hv] at hmax
        exact absurd hmax (hint 3)
    | some v =>
        rw [hv, Option.getD_some] at hmax
        subst hmax
        exact .max hknown (exists_orderOf_iff.mp ⟨_, horder⟩)
          (exists_disabledOf_iff.mp ⟨_, hdisabled⟩) (exists_timeoutOf_iff.mp ⟨_, htimeout⟩) hv hint
          hlong

theorem ofEntries_of_disabledOf {e : SettingsError} (hkeys : KeysKnown entries)
    (horder : OrderReads store entries) (h : disabledOf store entries = .error e) :
    Settings.ofEntries store entries = .error e := by
  obtain ⟨order, horder⟩ := exists_orderOf_iff.mpr horder
  refine ofEntries_eq_error_iff.mpr (Or.inl ?_)
  rw [Request.ofEntries_eq, checkKeys_eq_ok_iff.mpr hkeys, horder, h]
  rfl

theorem ofEntries_of_timeoutOf {e : SettingsError} (hkeys : KeysKnown entries)
    (horder : OrderReads store entries) (hdisabled : DisabledReads store entries)
    (h : timeoutOf store entries = .error e) : Settings.ofEntries store entries = .error e := by
  obtain ⟨order, horder⟩ := exists_orderOf_iff.mpr horder
  obtain ⟨ids, hdisabled⟩ := exists_disabledOf_iff.mpr hdisabled
  refine ofEntries_eq_error_iff.mpr (Or.inl ?_)
  rw [Request.ofEntries_eq, checkKeys_eq_ok_iff.mpr hkeys, horder, hdisabled, h]
  rfl

theorem ofEntries_eq_failed_iff :
    Settings.ofEntries store entries = .error (.failed f) ↔ EntriesFail store entries f := by
  refine ⟨.of_ofEntries, fun h => ?_⟩
  cases h with
  | key hmem hunknown htext =>
      refine ofEntries_eq_error_iff.mpr (Or.inl ?_)
      rw [Request.ofEntries_eq, checkKeys_eq_failed_iff.mpr ⟨rfl, _, hmem, hunknown, htext⟩]
      rfl
  | rule hkeys horder hv hitem hlong =>
      refine ofEntries_of_disabledOf hkeys horder ?_
      exact disabledOf_eq_failed_iff.mpr ⟨rfl, _, hv, _, hitem, hlong⟩
  | timeoutLarge hkeys horder hdisabled hv hlarge =>
      refine ofEntries_of_timeoutOf hkeys horder hdisabled ?_
      exact timeoutOf_eq_failed_iff.mpr ⟨_, hv, Or.inl ⟨rfl, _, rfl, hlarge⟩⟩
  | timeoutLong hkeys horder hdisabled hv hint hlong =>
      refine ofEntries_of_timeoutOf hkeys horder hdisabled ?_
      exact timeoutOf_eq_failed_iff.mpr ⟨_, hv, Or.inr ⟨rfl, hint, hlong⟩⟩
  | @max v hkeys horder hdisabled htimeout hv hint hlong =>
      obtain ⟨order, horder⟩ := exists_orderOf_iff.mpr horder
      obtain ⟨disabled, hdisabled⟩ := exists_disabledOf_iff.mpr hdisabled
      obtain ⟨timeout, htimeout⟩ := exists_timeoutOf_iff.mpr htimeout
      let r : Request := {
        maxAnnotations := v
        token := (Value.get? entries "suppression_token").getD (.text defaultToken)
        order, disabled, timeout }
      have hrequest : Request.ofEntries store entries = .ok r :=
        Request.ofEntries_eq_ok_iff.mpr
          ⟨hkeys, horder, hdisabled, htimeout, by rw [hv, Option.getD_some], rfl⟩
      refine ofEntries_eq_error_iff.mpr (Or.inr ⟨r, hrequest, ?_⟩)
      exact check_eq_failed_iff.mpr (checkMax_eq_failed_iff.mpr ⟨rfl, hint, hlong⟩)

/-- What passes as the time that a mapping asks for is that time. -/
theorem checkTimeout_elim_eq_ok {timeout : Option Binary64} {time : Option Number.Quantity}
    (h : Draft.checkTimeout (timeout.elim .null .float) = .ok time) :
    time = timeout.map .real ∧ ∀ d ∈ timeout, d.isNonpositive = false := by
  cases timeout with
  | none =>
      obtain rfl := Except.ok.inj h
      exact ⟨rfl, by simp⟩
  | some d =>
      simp only [Option.elim_some, Draft.checkTimeout, Value.quantity?] at h
      split at h
      case isTrue => cases h
      case isFalse hpositive =>
          obtain rfl := Except.ok.inj h
          refine ⟨rfl, ?_⟩
          rintro d ⟨⟩
          exact Bool.eq_false_iff.mpr hpositive

/-- The settings of a mapping are, as a configuration, what the check makes of the request. -/
theorem configuration_of_ofEntries {s : Settings} (h : Settings.ofEntries store entries = .ok s) :
    ∃ r, Request.ofEntries store entries = .ok r ∧ s.timeout = r.timeout.map .real ∧
      r.draft.check store = .ok s.configuration := by
  obtain ⟨r, hrequest, h⟩ := bind_eq_ok_iff.mp h
  obtain ⟨c, hcheck, h⟩ := bind_eq_ok_iff.mp h
  obtain rfl := Except.ok.inj h
  refine ⟨r, hrequest, rfl, ?_⟩
  obtain ⟨-, -, horder, htimeout, hdisabled⟩ := Draft.check_eq_ok_iff.mp hcheck
  have horder : c.order = .ofSeverities r.order := (Draft.checkOrder_ofSeverities.mp horder).2
  have htimeout : c.timeout = r.timeout.map .real := (checkTimeout_elim_eq_ok htimeout).1
  have htime : (r.timeout.map Number.Seconds.real).map Number.Seconds.quantity = c.timeout := by
    rw [htimeout, Option.map_map]
    rfl
  rw [hcheck, Settings.configuration, htime, ← horder]
  have hdisabled : Offered.ofTexts r.disabled = c.disabled := hdisabled
  rw [hdisabled]

end Entries

-- A key that is a number: it is no name of a setting, and no text either.
example : Settings.ofEntries #[] [(.int 1, .ofString "x")] = .error (.failed .keysNotTexts) := rfl

/-! ### Files -/

/-- A fault of a text that is not told as a problem of the settings in it. -/
def Yaml.Fault.IsUntold : Yaml.Fault → Prop
  | .undecodable => True
  | .noCodePoint _ => True
  | .tooManyDigits _ => True
  | .unacceptable _ _ => False
  | .marked _ => False

theorem settingsFault_eq_failed_iff {path : String} {fault : Yaml.Fault} {f : SettingsFailure} :
    settingsFault path fault = .failed f ↔ f = .text fault ∧ fault.IsUntold := by
  cases fault <;> simp [settingsFault, Yaml.Fault.IsUntold, eq_comm]

/-- How the content of a file makes the reading of settings fail, outside of what is told as a
problem. -/
inductive ContentFails (octets : List UInt8) : SettingsFailure → Prop
  /-- The text cannot be decoded, or holds an escape that names no character or a version with too
  many digits. -/
  | text {fault : Yaml.Fault} (hread : Yaml.composeFile octets = .error fault)
      (huntold : fault.IsUntold) : ContentFails octets (.text fault)
  /-- A scalar does not say what its tag asks for. -/
  | scalar {root : Yaml.Node} {fault : Yaml.ScalarFault}
      (hread : Yaml.composeFile octets = .ok (some root))
      (hvalue : Yaml.valueOf root = .error (.scalar fault)) : ContentFails octets (.scalar fault)
  /-- The document is a mapping that asks for something impossible. -/
  | entries {root : Yaml.Node} {v : Value} {store : Store} {entries : List (Value × Value)}
      {f : SettingsFailure} (hread : Yaml.composeFile octets = .ok (some root))
      (hvalue : Yaml.valueOf root = .ok (v, store)) (hmapping : v.opened store = .mapping entries)
      (hfail : EntriesFail store entries f) : ContentFails octets f

/-- The settings of a document are those of its entries. -/
theorem ofValue_eq_failed_iff {path : String} {store : Store} {v : Value} {f : SettingsFailure} :
    Settings.ofValue path store v = .error (.failed f) ↔
      ∃ entries, v.opened store = .mapping entries ∧ EntriesFail store entries f := by
  unfold Settings.ofValue
  split
  case h_1 hnull => simp [hnull]
  case h_2 entries hmapping =>
      rw [ofEntries_eq_failed_iff]
      simp [hmapping]
  case h_3 hnull hmapping =>
      simp only [Except.error.injEq, reduceCtorEq, false_iff, not_exists, not_and]
      intro entries heq
      exact absurd heq (hmapping entries)

/-- A content fails in one of the stages of its reading: text, document, value, entries. -/
theorem content_eq_failed_iff {path : String} {octets : List UInt8} {f : SettingsFailure} :
    (settingsValue path octets >>= fun result => Settings.ofValue path result.2 result.1) =
      .error (.failed f) ↔ ContentFails octets f := by
  unfold settingsValue
  constructor
  · intro h
    cases hread : Yaml.composeFile octets with
    | error fault =>
        rw [hread] at h
        obtain ⟨rfl, huntold⟩ := settingsFault_eq_failed_iff.mp (Except.error.inj h)
        exact .text hread huntold
    | ok root? =>
        cases root? with
        | none =>
            rw [hread] at h
            cases h
        | some root =>
            rw [hread] at h
            cases hvalue : Yaml.valueOf root with
            | error fault =>
                simp only [hvalue] at h
                cases fault with
                | document fault =>
                    -- once there is a document, its faults have a place, and are told
                    obtain ⟨e, rfl⟩ := Yaml.placed_valueOf root _ hvalue
                    cases h
                | scalar fault =>
                    obtain rfl := SettingsError.failed.inj (Except.error.inj h)
                    exact .scalar hread hvalue
            | ok result =>
                simp only [hvalue] at h
                obtain ⟨entries, hmapping, hfail⟩ := ofValue_eq_failed_iff.mp h
                exact .entries hread hvalue hmapping hfail
  · intro h
    cases h with
    | text hread huntold =>
        rw [hread]
        exact congrArg Except.error (settingsFault_eq_failed_iff.mpr ⟨rfl, huntold⟩)
    | scalar hread hvalue =>
        simp only [hread, hvalue]
        rfl
    | entries hread hvalue hmapping hfail =>
        simp only [hread, hvalue]
        exact ofValue_eq_failed_iff.mpr ⟨_, hmapping, hfail⟩

/-- The octets of the file that settings are read from, if it is there. -/
def settingsOctets (files : Tree) (path : Option String) :
    Except Files.FileFault (Option (List UInt8)) :=
  files.readIfThere (Path.ofText (path.getD defaultSettingsFile))

theorem load_eq_failed_iff {files : Tree} {path : Option String} {f : SettingsFailure} :
    Settings.load files path = .error (.failed f) ↔
      ∃ octets, settingsOctets files path = .ok (some octets) ∧ ContentFails octets f := by
  unfold Settings.load settingsOctets
  dsimp only
  split
  case h_1 fault hread => simp [hread]
  case h_2 hread => simp [hread]
  case h_3 octets hread =>
      simp only [hread, Except.ok.injEq, Option.some.injEq, exists_eq_left']
      exact content_eq_failed_iff

/-! ### The time that the rules may take -/

/-- A double above zero. -/
def Number.Binary64.IsPositive : Binary64 → Prop
  | .finite neg m _ => neg = false ∧ m ≠ 0
  | .infinite neg => neg = false
  | .nan => False

theorem isNonpositive_eq_false_iff {d : Binary64} :
    d.isNonpositive = false ↔ d = .nan ∨ d.IsPositive := by
  cases d <;> simp [Binary64.isNonpositive, Binary64.IsPositive]

/-- Settings from entries have no limit of time, or one that is above zero or not a number. -/
theorem timeout_of_ofEntries {store : Store} {entries : List (Value × Value)} {s : Settings}
    (h : Settings.ofEntries store entries = .ok s) :
    ∀ q ∈ s.timeout, ∃ d, q = .real d ∧ (d = .nan ∨ d.IsPositive) := by
  obtain ⟨r, -, htimeout, hcheck⟩ := configuration_of_ofEntries h
  obtain ⟨-, hpositive⟩ := checkTimeout_elim_eq_ok (Draft.check_eq_ok_iff.mp hcheck).2.2.2.1
  rw [htimeout]
  intro q hq
  obtain ⟨d, hd, rfl⟩ := Option.mem_map.mp hq
  exact ⟨d, rfl, isNonpositive_eq_false_iff.mp (hpositive d hd)⟩

-- Not a number is neither above zero nor refused.
example : (Settings.ofEntries #[] [(.ofString "rule_timeout", .float .nan)]).map Settings.timeout =
    .ok (some (.real .nan)) := rfl

theorem timeout_of_load {files : Tree} {path : Option String} {s : Settings}
    (h : Settings.load files path = .ok s) :
    ∀ q ∈ s.timeout, ∃ d, q = .real d ∧ (d = .nan ∨ d.IsPositive) := by
  have hdefault : ∀ q ∈ Settings.default.timeout, ∃ d, q = .real d ∧ (d = .nan ∨ d.IsPositive) :=
    fun q hq => nomatch hq
  unfold Settings.load at h
  dsimp only at h
  split at h
  case h_1 => cases h
  case h_2 =>
      obtain rfl := Except.ok.inj h
      exact hdefault
  case h_3 =>
      obtain ⟨⟨v, store⟩, -, h⟩ := bind_eq_ok_iff.mp h
      simp only [Settings.ofValue] at h
      split at h
      case h_1 =>
          obtain rfl := Except.ok.inj h
          exact hdefault
      case h_2 => exact timeout_of_ofEntries h
      case h_3 => cases h

/-! ### The command line -/

namespace Command

/-- The words of a call ask for a template, with the settings of a file. -/
def AsksFor (words : List String) (config : Option String) : Prop :=
  ∃ a template, parse words = .ok a ∧ a.listRules = false ∧
    (a.template.filter fun template => !template.isEmpty) = some template ∧
    (a.config.filter fun path => !path.isEmpty) = config

/-- Settings that cannot be had end the call. -/
theorem call_of_load_error {w : World} {words : List String} {config : Option String}
    {e : SettingsError} (h : AsksFor words config)
    (hload : Settings.load w.files config = .error e) :
    ∃ a template, settingsFor w a = .error e ∧ call w words = annotateCall w a template := by
  obtain ⟨a, template, hparse, hlist, htemplate, rfl⟩ := h
  refine ⟨a, template, bind_eq_error_iff.mpr (Or.inl hload), ?_⟩
  simp only [call, hparse, hlist, htemplate, Bool.false_eq_true, if_false]

theorem call_of_invalid {w : World} {words : List String} {config : Option String}
    {problem : SettingsProblem} (h : AsksFor words config)
    (hload : Settings.load w.files config = .error (.invalid problem)) :
    call w words = w.leave 2 [] (usageError problem.message) := by
  obtain ⟨a, template, hsettings, hcall⟩ := call_of_load_error h hload
  rw [hcall]
  unfold annotateCall
  rw [hsettings]
  rfl

theorem call_of_failed {w : World} {words : List String} {config : Option String}
    {f : SettingsFailure} (h : AsksFor words config)
    (hload : Settings.load w.files config = .error (.failed f)) :
    call w words = w.fail (.settings f) := by
  obtain ⟨a, template, hsettings, hcall⟩ := call_of_load_error h hload
  rw [hcall]
  unfold annotateCall
  rw [hsettings]

end Command

/-- Reading settings ends in one of three ways. There are settings, whose limit of time is above
zero or not a number, if there is one. Or there is a problem, which ends a call with the usage. Or
the content of the file fails, for one of the reasons that `ContentFails` lists, which a call does
not handle. -/
theorem load_cases (files : Tree) (path : Option String) :
    (∀ s, Settings.load files path = .ok s →
      ∀ q ∈ s.timeout, ∃ d, q = .real d ∧ (d = .nan ∨ d.IsPositive)) ∧
    (∀ f, Settings.load files path = .error (.failed f) ↔
      ∃ octets, settingsOctets files path = .ok (some octets) ∧ ContentFails octets f) ∧
    ∀ (w : Command.World) (words : List String), w.files = files → Command.AsksFor words path →
      (∀ problem, Settings.load files path = .error (.invalid problem) →
        Command.call w words = w.leave 2 [] (Command.usageError problem.message)) ∧
      ∀ f, Settings.load files path = .error (.failed f) →
        Command.call w words = w.fail (.settings f) := by
  refine ⟨fun s h => timeout_of_load h, fun f => load_eq_failed_iff, ?_⟩
  intro w words hfiles hasks
  subst hfiles
  refine ⟨fun problem h => ?_, fun f h => ?_⟩
  · exact Command.call_of_invalid hasks h
  · exact Command.call_of_failed hasks h

/-- A settings file of one octet that no text starts with. -/
def undecodableFile : Tree :=
  { entries := [({ base := .above 0, names := ["c.yaml"] }, .file [0xFF])] }

theorem asksFor_config : Command.AsksFor ["t.yaml", "--config", "c.yaml"] (some "c.yaml") :=
  ⟨_, "t.yaml", rfl, rfl, rfl, rfl⟩

theorem load_cases_undecodableFile :
    Command.AsksFor ["t.yaml", "--config", "c.yaml"] (some "c.yaml") ∧
      ContentFails [0xFF] (.text .undecodable) ∧
      ∀ w : Command.World, w.files = undecodableFile →
        Command.call w ["t.yaml", "--config", "c.yaml"] =
          w.fail (.settings (.text .undecodable)) := by
  have hload : Settings.load undecodableFile (some "c.yaml") =
      .error (.failed (.text .undecodable)) := rfl
  obtain ⟨-, hfailed, hcall⟩ := load_cases undecodableFile (some "c.yaml")
  refine ⟨asksFor_config, ?_, fun w hw => (hcall w _ hw asksFor_config).2 _ hload⟩
  obtain ⟨octets, hoctets, hfails⟩ := (hfailed _).mp hload
  obtain rfl : [0xFF] = octets := Option.some.inj (Except.ok.inj hoctets)
  exact hfails

/-- Not every content gives settings or a problem: this one gives neither. -/
theorem load_undecodableFile :
    Settings.load undecodableFile (some "c.yaml") = .error (.failed (.text .undecodable)) := rfl

end TemplateAudit
