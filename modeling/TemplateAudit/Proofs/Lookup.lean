import TemplateAudit.Catalog
import TemplateAudit.Proofs.Text

/-!
# TemplateAudit.Proofs.Lookup

What a catalog **finds** under an identifier.

All looking up goes through the places that a catalog keeps beside its rules.
`lookup_placesFrom_eq_some_iff` says what the places of some rules are worth: an identifier has the
place of the rule that it belongs to, since no two rules share one. From there on places are not
looked at any more. `Catalog.placeOf?_eq_some_iff` and `Catalog.ruleFor?_eq_some_iff` speak of the
rules alone.
-/

namespace TemplateAudit

open TemplateAudit.Data (Value)

theorem Rule.key_eq_iff {r r' : Rule} : r.key = r'.key ↔ r.id = r'.id :=
  Text.ofString_injective.eq_iff

theorem Data.Value.ofString_injective : Function.Injective Value.ofString := by
  intro s s' h
  exact Text.ofString_injective (Value.text.inj h)

/-- A value is the key that a text is if it is that text. -/
theorem same_text_iff {v : Value} {t : Text} : v.same (.text t) = true ↔ v = .text t := by
  cases v <;> simp [Value.same, Value.numeral?]

/-- Among rules with different identifiers, an identifier has the place of its rule. -/
theorem lookup_placesFrom_eq_some_iff {k : Nat} {rs : List Rule} {id : Text} {n : Nat}
    (hnodup : (rs.map Rule.id).Nodup) :
    (placesFrom k rs).lookup id = some n ↔
      ∃ (m : Nat) (r : Rule), n = k + m ∧ rs[m]? = some r ∧ r.key = id := by
  induction rs generalizing k with
  | nil => simp [placesFrom]
  | cons r rs ih =>
      rw [List.map_cons, List.nodup_cons] at hnodup
      rw [placesFrom, List.lookup_cons]
      by_cases hid : id = r.key
      · -- the head is found, and no rule behind it has its identifier
        subst hid
        rw [beq_self_eq_true, Option.some.injEq]
        constructor
        · intro hn
          exact ⟨0, r, hn.symm, rfl, rfl⟩
        · intro h
          obtain ⟨m, r', rfl, hr', hkey⟩ := h
          cases m with
          | zero => rfl
          | succ m =>
              have hmem : r' ∈ rs := List.mem_of_getElem? hr'
              have hshared : r.id ∈ rs.map Rule.id :=
                List.mem_map.mpr ⟨r', hmem, Rule.key_eq_iff.mp hkey⟩
              exact absurd hshared hnodup.1
      · rw [beq_eq_false_iff_ne.mpr hid, ih hnodup.2]
        constructor
        · intro h
          obtain ⟨m, r', rfl, hr', hkey⟩ := h
          exact ⟨m + 1, r', by omega, hr', hkey⟩
        · intro h
          obtain ⟨m, r', rfl, hr', hkey⟩ := h
          cases m with
          | zero =>
              obtain rfl := Option.some.inj hr'
              exact absurd hkey.symm hid
          | succ m => exact ⟨m, r', by omega, hr', hkey⟩

namespace Catalog

variable {c c' : Catalog} {r : Rule} {id : Text} {v : Value} {n : Nat}

/-- Rules determine their places, and so the catalog. -/
theorem eq_of_rules_eq (h : c.rules = c'.rules) : c = c' := by
  have hplaces : c.places = c'.places := by rw [c.places_eq, c'.places_eq, h]
  cases c
  cases c'
  simp only at h hplaces
  subst h hplaces
  rfl

theorem placeOf?_eq_some_iff : c.placeOf? id = some n ↔ ∃ r, c.rules[n]? = some r ∧ r.key = id := by
  rw [placeOf?, c.places_eq, lookup_placesFrom_eq_some_iff c.nodup_ids]
  simp only [Nat.zero_add, exists_and_left, exists_eq_left']

theorem placeFor?_eq_some_iff :
    c.placeFor? v = some n ↔ ∃ r, c.rules[n]? = some r ∧ v = .ofString r.id := by
  cases v with
  | text id =>
      rw [placeFor?, placeOf?_eq_some_iff]
      simp only [Value.ofString, Value.text.injEq, Rule.key, eq_comm]
  | _ => simp [placeFor?, Value.ofString]

/-- A value that has no place is the identifier of no rule. -/
theorem placeFor?_eq_none_iff : c.placeFor? v = none ↔ ∀ r ∈ c.rules, v ≠ .ofString r.id := by
  rw [Option.eq_none_iff_forall_ne_some]
  simp only [ne_eq, placeFor?_eq_some_iff, not_exists, not_and]
  constructor
  · intro h r hr
    obtain ⟨n, hn⟩ := List.getElem?_of_mem hr
    exact h n r hn
  · intro h n r hn
    exact h r (List.mem_of_getElem? hn)

/-- The rule that is found is the one whose identifier the value is. -/
theorem ruleFor?_eq_some_iff : c.ruleFor? v = some r ↔ r ∈ c.rules ∧ v = .ofString r.id := by
  rw [ruleFor?, Option.bind_eq_some_iff]
  constructor
  · intro h
    obtain ⟨n, hn, hr⟩ := h
    obtain ⟨r', hr', hid⟩ := placeFor?_eq_some_iff.mp hn
    obtain rfl := Option.some.inj (hr.symm.trans hr')
    exact ⟨List.mem_of_getElem? hr, hid⟩
  · intro h
    obtain ⟨n, hn⟩ := List.getElem?_of_mem h.1
    exact ⟨n, placeFor?_eq_some_iff.mpr ⟨r, hn, h.2⟩, hn⟩

theorem ruleFor?_eq_none_iff : c.ruleFor? v = none ↔ ∀ r ∈ c.rules, v ≠ .ofString r.id := by
  rw [Option.eq_none_iff_forall_ne_some]
  simp only [ne_eq, ruleFor?_eq_some_iff, not_and]

end Catalog

end TemplateAudit
