import Mathlib.Data.List.Forall2
import TemplateAudit.Proofs.Disabled

/-!
# TemplateAudit.Proofs.Catalog

Catalogs keep their rules, their identifiers and their places **in step**.

A catalog is made of candidates, loaded, or left over when rules are taken out of another one.
`Catalog.extend_eq_ok_iff` says what the loop over the candidates comes to: one rule for each of
them, under identifiers that are all different and not empty. What is left when rules are taken out
is what that loop would make of the remaining ones (`Catalog.ofCandidates_rules`).

An identifier stands in one place, so the place, the rule and membership cannot disagree, whatever
value a catalog is asked about (`Catalog.lookup`). Taking rules out and loading are laid down by the
rules that are left, since these determine a catalog.
-/

namespace TemplateAudit

open TemplateAudit.Data (Value)

/-! ### Candidates -/

namespace Candidate

/-- What a candidate has for an identifier is this text, which is not empty. -/
def Named (candidate : Candidate) (id : String) : Prop :=
  id ≠ "" ∧ candidate.id = some (.ofString id)

/-- A candidate is a rule under the identifier that it has. -/
def Gives (candidate : Candidate) (r : Rule) : Prop :=
  candidate.Named r.id ∧ r = candidate.rule r.id

variable {candidate : Candidate} {id id' : String}

theorem Named.unique (h : candidate.Named id) (h' : candidate.Named id') : id = id' := by
  have hsome := h.2.symm.trans h'.2
  exact Value.ofString_injective (Option.some.inj hsome)

theorem Named.gives (h : candidate.Named id) : candidate.Gives (candidate.rule id) := by
  unfold Gives
  rw [candidate.id_rule]
  exact ⟨h, rfl⟩

/-- The identifier that is found is the one that the candidate has. -/
theorem identifier?_eq_some_iff {id : { id : String // id ≠ "" }} :
    candidate.identifier? = some id ↔ candidate.Named id := by
  unfold identifier? Named
  split
  case h_1 t hid =>
      have hwhole := candidate.id_whole t hid
      rw [hid, Option.some.injEq, Value.ofString, Value.text.injEq]
      constructor
      · intro h
        split at h
        case isTrue hne =>
            obtain rfl := Option.some.inj h
            exact ⟨hne, hwhole.symm⟩
        case isFalse => cases h
      · intro h
        have hstring : t.string = id := by rw [h.2, Text.string_ofString]
        rw [dif_pos (hstring ▸ id.property)]
        exact congrArg some (Subtype.ext hstring)
  case h_2 hnone =>
      constructor
      · intro h
        cases h
      · intro h
        exact absurd h.2 (hnone _)

theorem identifier?_eq_none_iff : candidate.identifier? = none ↔ ∀ id, ¬candidate.Named id := by
  rw [Option.eq_none_iff_forall_ne_some]
  constructor
  · intro h id hid
    exact h ⟨id, hid.1⟩ (identifier?_eq_some_iff.mpr hid)
  · intro h id hid
    exact h id (identifier?_eq_some_iff.mp hid)

/-- The identifiers of the rules of some candidates are those that the candidates have. -/
theorem mem_ids_iff {cs : List Candidate} {rules : List Rule} (h : List.Forall₂ Gives cs rules) :
    id ∈ rules.map Rule.id ↔ ∃ candidate ∈ cs, candidate.Named id := by
  induction h with
  | nil => simp
  | @cons candidate r cs rules hgives _ ih =>
      have hhead : id = r.id ↔ candidate.Named id := by
        constructor
        · intro hid
          rw [hid]
          exact hgives.1
        · intro hnamed
          exact hnamed.unique hgives.1
      rw [List.map_cons, List.mem_cons, ih, hhead]
      simp only [List.mem_cons, exists_eq_or_imp]

/-- The rules of some candidates have different identifiers if no two candidates share one. -/
theorem nodup_ids_iff {cs : List Candidate} {rules : List Rule}
    (h : List.Forall₂ Gives cs rules) :
    (rules.map Rule.id).Nodup ↔ cs.Pairwise fun a b => ∀ id, a.Named id → ¬b.Named id := by
  induction h with
  | nil => simp
  | @cons candidate r cs rules hgives hrest ih =>
      rw [List.map_cons, List.nodup_cons, List.pairwise_cons, ih, mem_ids_iff hrest]
      refine and_congr_left fun _ => ?_
      constructor
      · intro hnone b hb id hid hshared
        obtain rfl := hid.unique hgives.1
        exact hnone ⟨b, hb, hshared⟩
      · intro hapart hshared
        obtain ⟨b, hb, hid⟩ := hshared
        exact hapart b hb r.id hgives.1 hid

/-- Candidates with identifiers are rules. -/
theorem exists_gives {cs : List Candidate} (h : ∀ candidate ∈ cs, ∃ id, candidate.Named id) :
    ∃ rules, List.Forall₂ Gives cs rules := by
  induction cs with
  | nil => exact ⟨[], .nil⟩
  | cons candidate cs ih =>
      obtain ⟨id, hid⟩ := h candidate List.mem_cons_self
      obtain ⟨rules, hrules⟩ := ih fun other hother => h other (List.mem_cons_of_mem _ hother)
      exact ⟨candidate.rule id :: rules, .cons hid.gives hrules⟩

/-- Something that is a rule has an identifier. -/
theorem exists_named {cs : List Candidate} {rules : List Rule} (h : List.Forall₂ Gives cs rules) :
    ∀ candidate ∈ cs, ∃ id, candidate.Named id := by
  induction h with
  | nil => simp
  | @cons candidate r cs rules hgives _ ih =>
      simp only [List.mem_cons, forall_eq_or_imp]
      exact ⟨⟨r.id, hgives.1⟩, ih⟩

end Candidate

/-- A rule, offered under its own identifier. -/
def Rule.candidate (r : Rule) : Candidate where
  id := some (.ofString r.id)
  shown := r.id
  rule := fun id => { r with id }
  id_whole := by
    intro t ht
    obtain rfl : Text.ofString r.id = t := Value.text.inj (Option.some.inj ht)
    rw [Text.string_ofString]

theorem Rule.candidate_gives {r : Rule} (h : r.id ≠ "") : r.candidate.Gives r := ⟨⟨h, rfl⟩, rfl⟩

/-! ### Making catalogs -/

namespace Catalog

variable {c c' : Catalog} {cs : List Candidate} {v : Value}

/-- An identifier has no place if no rule has it. -/
theorem placeOf?_key_eq_none_iff {r : Rule} : c.placeOf? r.key = none ↔ r.id ∉ c.ids := by
  rw [ids, List.mem_map]
  have hnone : c.placeFor? (.ofString r.id) = none ↔ _ := placeFor?_eq_none_iff
  refine hnone.trans ?_
  simp only [ne_eq, Value.ofString_injective.eq_iff, not_exists, not_and, eq_comm]

/-- One candidate of the loop: it is refused, or its rule goes to the end of the catalog. -/
theorem extend_cons_eq_ok_iff {candidate : Candidate} :
    c.extend (candidate :: cs) = .ok c' ↔
      ∃ (r : Rule) (hid : r.id ≠ "") (hnew : c.placeOf? r.key = none),
        candidate.Gives r ∧ (c.add r hid hnew).extend cs = .ok c' := by
  rw [extend]
  split
  case h_1 hnone =>
      constructor
      · intro h
        cases h
      · intro h
        obtain ⟨r, -, -, hgives, -⟩ := h
        exact absurd hgives.1 (Candidate.identifier?_eq_none_iff.mp hnone r.id)
  case h_2 id hid =>
      have hnamed := Candidate.identifier?_eq_some_iff.mp hid
      dsimp only
      constructor
      · intro h
        split at h
        case isTrue hnew => exact ⟨_, _, hnew, hnamed.gives, h⟩
        case isFalse => cases h
      · intro h
        obtain ⟨r, hne, hnew, hgives, h⟩ := h
        obtain hid : r.id = id := hgives.1.unique hnamed
        have hr : r = candidate.rule id := hid ▸ hgives.2
        subst hr
        rw [dif_pos hnew]
        exact h

/-- A rule can be put at the head of those that are added if it is new and different from them. -/
theorem added_cons_iff {r : Rule} {added : List Rule} {hid : r.id ≠ ""}
    {hnew : c.placeOf? r.key = none} :
    ((r :: added).map Rule.id).Nodup ∧ (∀ r' ∈ r :: added, r'.id ∉ c.ids) ↔
      (added.map Rule.id).Nodup ∧ ∀ r' ∈ added, r'.id ∉ (c.add r hid hnew).ids := by
  have hids : ∀ id, id ∈ (c.add r hid hnew).ids ↔ id ∈ c.ids ∨ id = r.id := by
    simp [ids, add]
  have hfirst : r.id ∉ c.ids := placeOf?_key_eq_none_iff.mp hnew
  rw [List.map_cons, List.nodup_cons, List.mem_map]
  simp only [hids, List.mem_cons, forall_eq_or_imp, not_or]
  constructor
  · intro h
    exact ⟨h.1.2, fun r' hr' => ⟨h.2.2 r' hr', fun hshared => h.1.1 ⟨r', hr', hshared⟩⟩⟩
  · intro h
    refine ⟨⟨?_, h.1⟩, hfirst, fun r' hr' => (h.2 r' hr').1⟩
    intro hshared
    obtain ⟨r', hr', hshared⟩ := hshared
    exact (h.2 r' hr').2 hshared

/-- The loop over candidates: the rules that are added have identifiers that are different from
each other and from those that are there. -/
theorem extend_eq_ok_iff : c.extend cs = .ok c' ↔
    ∃ added, List.Forall₂ Candidate.Gives cs added ∧
      ((added.map Rule.id).Nodup ∧ ∀ r ∈ added, r.id ∉ c.ids) ∧ c'.rules = c.rules ++ added := by
  induction cs generalizing c with
  | nil =>
      rw [extend]
      constructor
      · intro h
        obtain rfl := Except.ok.inj h
        exact ⟨[], .nil, ⟨List.nodup_nil, by simp⟩, by simp⟩
      · intro h
        obtain ⟨added, hgives, -, hrules⟩ := h
        obtain rfl := List.forall₂_nil_left_iff.mp hgives
        rw [eq_of_rules_eq (hrules.trans (List.append_nil _))]
  | cons candidate cs ih =>
      rw [extend_cons_eq_ok_iff]
      -- the rule goes to the end of the catalog and to the head of what is added
      constructor
      · intro h
        obtain ⟨r, hid, hnew, hgives, h⟩ := h
        obtain ⟨added, hrest, hapart, hrules⟩ := ih.mp h
        refine ⟨r :: added, .cons hgives hrest, added_cons_iff.mpr hapart, ?_⟩
        rw [hrules, add, List.append_assoc, List.singleton_append]
      · intro h
        obtain ⟨added, hgives, hapart, hrules⟩ := h
        obtain ⟨r, added, hr, hrest, rfl⟩ := List.forall₂_cons_left_iff.mp hgives
        have hnew : c.placeOf? r.key = none :=
          placeOf?_key_eq_none_iff.mpr (hapart.2 r List.mem_cons_self)
        refine ⟨r, hr.1.1, hnew, hr, ih.mpr ⟨added, hrest, added_cons_iff.mp hapart, ?_⟩⟩
        rw [hrules, add, List.append_assoc, List.singleton_append]

/-- A catalog is made of candidates if each of them is a rule of it. -/
theorem ofCandidates_eq_ok_iff :
    ofCandidates cs = .ok c ↔ List.Forall₂ Candidate.Gives cs c.rules := by
  rw [ofCandidates, extend_eq_ok_iff]
  constructor
  · intro h
    obtain ⟨added, hgives, -, hrules⟩ := h
    rw [rules_ofRules, List.nil_append] at hrules
    rw [hrules]
    exact hgives
  · intro h
    exact ⟨c.rules, h, ⟨c.nodup_ids, by simp [ids]⟩, rfl⟩

/-- There is a catalog of candidates if all have identifiers and no two share one. -/
theorem exists_ofCandidates_iff : (∃ c, ofCandidates cs = .ok c) ↔
    (∀ candidate ∈ cs, ∃ id, candidate.Named id) ∧
      cs.Pairwise fun a b => ∀ id, a.Named id → ¬b.Named id := by
  constructor
  · intro h
    obtain ⟨c, hc⟩ := h
    have hgives := ofCandidates_eq_ok_iff.mp hc
    exact ⟨Candidate.exists_named hgives, (Candidate.nodup_ids_iff hgives).mp c.nodup_ids⟩
  · intro h
    obtain ⟨rules, hgives⟩ := Candidate.exists_gives h.1
    have hnodup := (Candidate.nodup_ids_iff hgives).mpr h.2
    have hne : ∀ r ∈ rules, r.id ≠ "" := by
      intro r hr
      obtain ⟨candidate, -, hnamed⟩ :=
        (Candidate.mem_ids_iff hgives).mp (List.mem_map_of_mem hr)
      exact hnamed.1
    exact ⟨ofRules rules hnodup hne, ofCandidates_eq_ok_iff.mpr hgives⟩

/-- Making a catalog fails if a candidate has no identifier or two of them share one. -/
theorem exists_ofCandidates_error_iff : (∃ e, ofCandidates cs = .error e) ↔
    (∃ candidate ∈ cs, ∀ id, ¬candidate.Named id) ∨
      ∃ a b id, [a, b].Sublist cs ∧ a.Named id ∧ b.Named id := by
  have hfails : (∃ e, ofCandidates cs = .error e) ↔ ¬∃ c, ofCandidates cs = .ok c := by
    cases ofCandidates cs with
    | error e => simp
    | ok c => simp
  rw [hfails, exists_ofCandidates_iff, List.pairwise_iff_forall_sublist, not_and_or]
  push Not
  simp only [exists_and_left]

/-- Making a catalog of the rules of one gives that catalog, with its places. -/
theorem ofCandidates_rules (c : Catalog) : ofCandidates (c.rules.map Rule.candidate) = .ok c := by
  rw [ofCandidates_eq_ok_iff, List.forall₂_map_left_iff, List.forall₂_same]
  intro r hr
  exact Rule.candidate_gives (c.id_ne_empty r hr)

/-! ### Looking up -/

/-- The places are the numbers of the rules. -/
theorem places_eq_zipIdx (c : Catalog) :
    c.places = c.rules.zipIdx.map fun entry => (entry.1.key, entry.2) := by
  have hfrom : ∀ (n : Nat) (rs : List Rule),
      placesFrom n rs = (rs.zipIdx n).map fun entry => (entry.1.key, entry.2) := by
    intro n rs
    induction rs generalizing n with
    | nil => rfl
    | cons r rs ih => rw [placesFrom, ih, List.zipIdx_cons, List.map_cons]
  rw [c.places_eq, hfrom]

theorem checkKey_of_isKey (h : v.isKey = true) : checkKey v = .ok () := if_pos h

theorem checkKey_of_not_isKey (h : v.isKey = false) : checkKey v = .error (.notKey v.kind) := by
  rw [checkKey, h]
  rfl

/-- Identifiers are keys. -/
theorem isKey_ofString (s : String) : (Value.ofString s).isKey = true := by
  simp [Value.ofString, Value.isKey]

/-- What a catalog answers about a value that is the identifier of a rule. -/
structure Answers (c : Catalog) (v : Value) (n : Nat) (r : Rule) : Prop where
  rule : c.rules[n]? = some r
  id : v = .ofString r.id
  contains : c.contains v = .ok true
  position : c.position v = .ok n
  get : c.get v = .ok (some r)

/-- What a catalog answers about a value that could be an identifier and is none. -/
structure Denies (c : Catalog) (v : Value) : Prop where
  isKey : v.isKey = true
  id : ∀ r ∈ c.rules, v ≠ .ofString r.id
  contains : c.contains v = .ok false
  position : c.position v = .error (.refused (.unknown v))
  get : c.get v = .ok none

/-- What a catalog answers about a value that can be no identifier. -/
structure Rejects (c : Catalog) (v : Value) : Prop where
  isKey : v.isKey = false
  contains : c.contains v = .error (.notKey v.kind)
  position : c.position v = .error (.notKey v.kind)
  get : c.get v = .error (.notKey v.kind)

theorem answers_of_getElem? {n : Nat} {r : Rule} (h : c.rules[n]? = some r) :
    c.Answers (.ofString r.id) n r := by
  have hkey := checkKey_of_isKey (isKey_ofString r.id)
  have hplace : c.placeFor? (.ofString r.id) = some n := placeFor?_eq_some_iff.mpr ⟨r, h, rfl⟩
  have hrule : c.ruleFor? (.ofString r.id) = some r :=
    ruleFor?_eq_some_iff.mpr ⟨List.mem_of_getElem? h, rfl⟩
  refine ⟨h, rfl, ?_, ?_, ?_⟩
  · rw [Catalog.contains, hkey, hplace]
    rfl
  · rw [Catalog.position, hkey, hplace]
    rfl
  · rw [Catalog.get, hkey, hrule]
    rfl

/-- Whatever a catalog is asked about, membership, the place and the rule agree. -/
theorem lookup (c : Catalog) (v : Value) :
    (∃ n r, c.Answers v n r) ∨ c.Denies v ∨ c.Rejects v := by
  cases hkey : v.isKey with
  | false =>
      have hcheck := checkKey_of_not_isKey hkey
      refine .inr (.inr ⟨hkey, ?_, ?_, ?_⟩)
      · rw [Catalog.contains, hcheck]
        rfl
      · rw [Catalog.position, hcheck]
        rfl
      · rw [Catalog.get, hcheck]
        rfl
  | true =>
      cases hplace : c.placeFor? v with
      | some n =>
          obtain ⟨r, hr, rfl⟩ := placeFor?_eq_some_iff.mp hplace
          exact .inl ⟨n, r, answers_of_getElem? hr⟩
      | none =>
          have hcheck := checkKey_of_isKey hkey
          have hid := placeFor?_eq_none_iff.mp hplace
          refine .inr (.inl ⟨hkey, hid, ?_, ?_, ?_⟩)
          · rw [Catalog.contains, hcheck, hplace]
            rfl
          · rw [Catalog.position, hcheck, hplace]
            rfl
          · rw [Catalog.get, hcheck, ruleFor?_eq_none_iff.mpr hid]
            rfl

/-- An identifier stands in the place in which it is found. -/
theorem position_ids (c : Catalog) {n : Nat} (hn : n < c.ids.length) :
    c.position (.ofString c.ids[n]) = .ok n := by
  have hlt : n < c.rules.length := by simpa [ids] using hn
  have hid : c.ids[n] = c.rules[n].id := List.getElem_map ..
  rw [hid]
  exact (answers_of_getElem? (List.getElem?_eq_getElem hlt)).position

/-! ### Taking rules out -/

theorem mem_dropping_iff {r : Rule} {off : List Text} :
    r ∈ (c.dropping off).rules ↔ r ∈ c.rules ∧ r.key ∉ off := by
  rw [rules_dropping, List.mem_filter, isOff_ofString, Bool.not_eq_true', Bool.eq_false_iff, Ne,
    List.contains_iff_mem]
  rfl

theorem dropping_sublist (c : Catalog) (off : List Text) :
    (c.dropping off).rules.Sublist c.rules := List.filter_sublist

/-- Taking rules out twice is taking them out at once. -/
theorem dropping_dropping (c : Catalog) (off off' : List Text) :
    (c.dropping off).dropping off' = c.dropping (off ++ off') := by
  apply eq_of_rules_eq
  simp only [rules_dropping, List.filter_filter, isOff, List.any_append, Bool.not_or,
    Bool.and_comm]

/-- Taking rules out does not depend on the order in which they are named. -/
theorem dropping_append_comm (c : Catalog) (off off' : List Text) :
    c.dropping (off ++ off') = c.dropping (off' ++ off) := by
  apply eq_of_rules_eq
  simp only [rules_dropping, isOff, List.any_append, Bool.or_comm]

/-- The texts among some values. -/
abbrev textsOf (vs : List Value) : List Text := vs.filterMap textOfValue?

theorem mem_textsOf_iff {t : Text} {vs : List Value} : t ∈ textsOf vs ↔ .text t ∈ vs := by
  rw [List.mem_filterMap]
  constructor
  · intro h
    obtain ⟨v, hv, ht⟩ := h
    cases v with
    | text t' =>
        obtain rfl := Option.some.inj ht
        exact hv
    | _ => cases ht
  · intro h
    exact ⟨.text t, h, rfl⟩

theorem forM_checkKey {vs : List Value} (h : ∀ v ∈ vs, v.isKey = true) :
    vs.forM checkKey = .ok () := by
  induction vs with
  | nil => rfl
  | cons v vs ih =>
      rw [List.forall_mem_cons] at h
      rw [List.forM, checkKey_of_isKey h.1]
      exact ih h.2

/-- Of values that are not all keys, the first that is none is complained about. -/
theorem forM_checkKey_of_not {vs : List Value} (h : ∃ v ∈ vs, v.isKey = false) :
    ∃ kind, vs.forM checkKey = .error (.notKey kind) := by
  induction vs with
  | nil => simp at h
  | cons v vs ih =>
      rw [List.forM]
      cases hkey : v.isKey with
      | false =>
          rw [checkKey_of_not_isKey hkey]
          exact ⟨v.kind, rfl⟩
      | true =>
          rw [checkKey_of_isKey hkey]
          exact ih (by simpa [hkey] using h)

theorem without_of_keys {off : List Value} (h : ∀ v ∈ off, v.isKey = true) :
    c.without off = .ok (c.dropping (textsOf off)) := by
  rw [without, forM_checkKey h]
  rfl

/-- Taking rules out fails if a value is named that can be no identifier. -/
theorem without_of_not_key {off : List Value} (h : ∃ v ∈ off, v.isKey = false) :
    ∃ kind, c.without off = .error (.notKey kind) := by
  obtain ⟨kind, hkind⟩ := forM_checkKey_of_not h
  refine ⟨kind, ?_⟩
  rw [without, hkind]
  rfl

/-- What is left is the rules that are not named, in order, as they would be made a catalog. -/
theorem exists_without {off : List Value} (h : ∀ v ∈ off, v.isKey = true) :
    ∃ left, c.without off = .ok left ∧ left.rules.Sublist c.rules ∧
      (∀ r, r ∈ left.rules ↔ r ∈ c.rules ∧ .ofString r.id ∉ off) ∧
      ofCandidates (left.rules.map Rule.candidate) = .ok left := by
  refine ⟨_, without_of_keys h, c.dropping_sublist _, fun r => ?_, ofCandidates_rules _⟩
  rw [mem_dropping_iff, mem_textsOf_iff]
  rfl

/-- Taking rules out one after the other is taking them out at once, in either order. -/
theorem without_without {off off' : List Value} (h : ∀ v ∈ off, v.isKey = true)
    (h' : ∀ v ∈ off', v.isKey = true) :
    (do (← c.without off).without off') = c.without (off ++ off') ∧
      (do (← c.without off').without off) = c.without (off ++ off') := by
  have hboth : ∀ v ∈ off ++ off', v.isKey = true := List.forall_mem_append.mpr ⟨h, h'⟩
  have hall : textsOf (off ++ off') = textsOf off ++ textsOf off' := List.filterMap_append
  rw [without_of_keys h, without_of_keys h', without_of_keys hboth, hall]
  constructor
  · rw [← dropping_dropping]
    exact without_of_keys h'
  · rw [dropping_append_comm, ← dropping_dropping]
    exact without_of_keys h

/-! ### Loading -/

theorem ids_dropping (c : Catalog) (off : List Text) :
    (c.dropping off).ids = c.ids.filter fun id => !off.contains (.ofString id) := by
  simp only [ids, rules_dropping, isOff_ofString, List.filter_map, Function.comp_def]

/-- Taking out what is not wanted leaves what is. -/
theorem ids_only (c : Catalog) (wanted : List Text) :
    (c.only wanted).ids = c.ids.filter fun id => wanted.contains (.ofString id) := by
  rw [only, ids_dropping]
  refine List.filter_congr fun id hid => ?_
  obtain ⟨r, hr, rfl⟩ := List.mem_map.mp hid
  have hkey : Text.ofString r.id ∈ c.rules.map Rule.key := List.mem_map_of_mem hr
  cases hwanted : wanted.contains (Text.ofString r.id) <;> simp_all

theorem only_sublist (c : Catalog) (wanted : List Text) :
    (c.only wanted).rules.Sublist c.rules := c.dropping_sublist _

section Texts

variable {enabled : Option (List Text)} {disabled : List Text}

/-- Some texts as values. -/
abbrev asValues (ts : List Text) : List Value := ts.map .text

theorem isKey_of_mem_asValues {ts : List Text} : ∀ v ∈ asValues ts, v.isKey = true := by
  rw [List.forall_mem_map]
  intro t _
  simp [Value.isKey]

theorem textsOf_asValues (ts : List Text) : textsOf (asValues ts) = ts := by
  rw [textsOf, List.filterMap_map]
  exact List.filterMap_some

theorem allTexts?_asValues (ts : List Text) : allTexts? (asValues ts) = some ts := by
  have hall : (asValues ts).mapM textOfValue? = some (ts.map id) :=
    mapM_map_eq_some fun _ _ => rfl
  rw [allTexts?, hall, List.map_id]

/-- The texts that are no identifiers of built-in rules. -/
def unknownTexts (ts : List Text) : List Text :=
  ts.filter fun t => (builtin.placeFor? (.text t)).isNone

theorem mem_unknownTexts_iff {ts : List Text} {t : Text} :
    t ∈ unknownTexts ts ↔ t ∈ ts ∧ ∀ id ∈ builtin.ids, t ≠ .ofString id := by
  rw [unknownTexts, List.mem_filter, Option.isNone_iff_eq_none, placeFor?_eq_none_iff, ids,
    List.forall_mem_map]
  simp only [Value.ofString, ne_eq, Value.text.injEq]

/-- Texts are never refused for what they are, only for what they name. -/
theorem load_asValues (enabled : Option (List Text)) (disabled : List Text) :
    load (enabled.map asValues) (asValues disabled) =
      if unknownTexts (enabled.getD [] ++ disabled) = [] then
        .ok ((enabled.elim builtin builtin.only).dropping disabled)
      else
        .error (.refused (.unknownIds
          (sortedSet (unknownTexts (enabled.getD [] ++ disabled))))) := by
  have hrequested : (enabled.map asValues).getD [] ++ asValues disabled =
      asValues (enabled.getD [] ++ disabled) := by
    cases enabled <;> simp
  have hunknown : (asValues (enabled.getD [] ++ disabled)).filter
      (fun id => (builtin.placeFor? id).isNone) =
        asValues (unknownTexts (enabled.getD [] ++ disabled)) := List.filter_map
  have hwithout : ∀ c : Catalog, c.without (asValues disabled) = .ok (c.dropping disabled) := by
    intro c
    rw [without_of_keys isKey_of_mem_asValues, textsOf_asValues]
  unfold load
  dsimp only
  rw [hrequested, forM_checkKey isKey_of_mem_asValues, hunknown, allTexts?_asValues]
  cases unknownTexts (enabled.getD [] ++ disabled) with
  | cons t ts => rfl
  | nil =>
      rw [if_pos rfl]
      cases enabled with
      | none => exact hwithout builtin
      | some wanted =>
          show (builtin.only (textsOf (asValues wanted))).without (asValues disabled) = _
          rw [textsOf_asValues]
          exact hwithout (builtin.only wanted)

/-- Texts are refused if one of them is not the identifier of a built-in rule. -/
theorem load_refused_iff :
    (∃ e, load (enabled.map asValues) (asValues disabled) = .error (.refused e)) ↔
      ∃ t ∈ enabled.getD [] ++ disabled, ∀ id ∈ builtin.ids, t ≠ .ofString id := by
  have hunknown : (∃ t ∈ enabled.getD [] ++ disabled, ∀ id ∈ builtin.ids, t ≠ .ofString id) ↔
      unknownTexts (enabled.getD [] ++ disabled) ≠ [] := by
    rw [Ne, List.eq_nil_iff_forall_not_mem, not_forall]
    simp only [not_not, mem_unknownTexts_iff]
  rw [hunknown, load_asValues]
  split
  case isTrue hnone => simp [hnone]
  case isFalse hsome => simp [hsome]

/-- Otherwise the built-in rules that are enabled and not disabled are loaded. -/
theorem exists_load (h : ∀ t ∈ enabled.getD [] ++ disabled, ∃ id ∈ builtin.ids, t = .ofString id) :
    ∃ c, load (enabled.map asValues) (asValues disabled) = .ok c ∧
      c.rules.Sublist builtin.rules ∧
      c.ids = builtin.ids.filter fun id =>
        enabled.all (·.contains (.ofString id)) && !disabled.contains (.ofString id) := by
  have hknown : unknownTexts (enabled.getD [] ++ disabled) = [] := by
    rw [List.eq_nil_iff_forall_not_mem]
    intro t ht
    obtain ⟨hmem, hunknown⟩ := mem_unknownTexts_iff.mp ht
    obtain ⟨id, hid, heq⟩ := h t hmem
    exact hunknown id hid heq
  have hload := load_asValues enabled disabled
  rw [if_pos hknown] at hload
  refine ⟨_, hload, ?_, ?_⟩
  · refine (dropping_sublist _ disabled).trans ?_
    cases enabled with
    | none => exact List.Sublist.refl _
    | some wanted => exact builtin.only_sublist wanted
  · rw [ids_dropping]
    cases enabled with
    | none => simp
    | some wanted =>
        rw [Option.elim_some, ids_only, List.filter_filter]
        simp only [Option.all_some, Bool.and_comm]

end Texts

end Catalog

/-! ### Catalogs -/

/-- What holds of catalogs.

Making one fails if a candidate has no identifier or two share one, and gives the rules of the
candidates in order otherwise. In every catalog, identifiers are different and not empty, the places
are the numbers of the rules, and the place, the rule and membership agree for every value that a
catalog is asked about; one that can be no key is refused by all three. Taking rules out fails for
such values only, and no text is one of them. It keeps the other rules in order and their places are
counted anew, and it can be done at once or one after the other. Loading by texts is refused if one
of them is unknown and gives the built-in rules that are enabled, if that is said, and not disabled
otherwise. -/
theorem catalogs_in_step :
    (∀ cs : List Candidate,
      ((∃ e, Catalog.ofCandidates cs = .error e) ↔
        (∃ candidate ∈ cs, ∀ id, ¬candidate.Named id) ∨
          ∃ a b id, [a, b].Sublist cs ∧ a.Named id ∧ b.Named id) ∧
      ∀ c, Catalog.ofCandidates cs = .ok c ↔ List.Forall₂ Candidate.Gives cs c.rules) ∧
    (∀ c : Catalog,
      (c.ids.Nodup ∧ (∀ id ∈ c.ids, id ≠ "") ∧
        c.places = (c.rules.zipIdx.map fun entry => (entry.1.key, entry.2)) ∧
        ∀ n (hn : n < c.ids.length), c.position (.ofString c.ids[n]) = .ok n) ∧
      (∀ v : Value, (∃ n r, c.Answers v n r) ∨ c.Denies v ∨ c.Rejects v) ∧
      (∀ off : List Value, (∃ v ∈ off, v.isKey = false) →
        ∃ kind, c.without off = .error (.notKey kind)) ∧
      ∀ off : List Value, (∀ v ∈ off, v.isKey = true) →
        (∃ left, c.without off = .ok left ∧ left.rules.Sublist c.rules ∧
          (∀ r, r ∈ left.rules ↔ r ∈ c.rules ∧ .ofString r.id ∉ off) ∧
          Catalog.ofCandidates (left.rules.map Rule.candidate) = .ok left) ∧
        ∀ off' : List Value, (∀ v ∈ off', v.isKey = true) →
          (do (← c.without off).without off') = c.without (off ++ off') ∧
            (do (← c.without off').without off) = c.without (off ++ off')) ∧
    ∀ (enabled : Option (List Text)) (disabled : List Text),
      ((∃ e, Catalog.load (enabled.map Catalog.asValues) (Catalog.asValues disabled) =
          .error (.refused e)) ↔
        ∃ t ∈ enabled.getD [] ++ disabled, ∀ id ∈ Catalog.builtin.ids, t ≠ .ofString id) ∧
      ((∀ t ∈ enabled.getD [] ++ disabled, ∃ id ∈ Catalog.builtin.ids, t = .ofString id) →
        ∃ c, Catalog.load (enabled.map Catalog.asValues) (Catalog.asValues disabled) = .ok c ∧
          c.rules.Sublist Catalog.builtin.rules ∧
          c.ids = Catalog.builtin.ids.filter fun id =>
            enabled.all (·.contains (.ofString id)) && !disabled.contains (.ofString id)) := by
  refine ⟨fun cs => ⟨Catalog.exists_ofCandidates_error_iff,
      fun c => Catalog.ofCandidates_eq_ok_iff⟩, fun c => ?_,
    fun enabled disabled => ⟨Catalog.load_refused_iff, Catalog.exists_load⟩⟩
  have hne : ∀ id ∈ c.ids, id ≠ "" := by
    intro id hid
    obtain ⟨r, hr, rfl⟩ := List.mem_map.mp hid
    exact c.id_ne_empty r hr
  exact ⟨⟨c.nodup_ids, hne, c.places_eq_zipIdx, fun n hn => c.position_ids hn⟩, c.lookup,
    fun off h => Catalog.without_of_not_key h,
    fun off h => ⟨Catalog.exists_without h, fun off' h' => Catalog.without_without h h'⟩⟩

/-- Two rules are enabled, one of them twice, and the other is disabled as well. -/
theorem catalogs_in_step_narrowed :
    ∃ c, Catalog.load (some [.ofString "function-missing-timeout", .ofString "iam-wildcard-action",
          .ofString "function-missing-timeout"]) [.ofString "iam-wildcard-action"] = .ok c ∧
      c.ids = ["function-missing-timeout"] ∧
      c.position (.ofString "function-missing-timeout") = .ok 0 := by
  have hknown : ∀ t ∈ [Text.ofString "function-missing-timeout", "iam-wildcard-action",
      "function-missing-timeout"] ++ [Text.ofString "iam-wildcard-action"],
      ∃ id ∈ Catalog.builtin.ids, t = .ofString id := by decide
  obtain ⟨c, hload, -, hids⟩ := (catalogs_in_step.2.2 (some _) _).2 hknown
  have hids : c.ids = ["function-missing-timeout"] := by
    rw [hids]
    decide
  have hposition := (catalogs_in_step.2.1 c).1.2.2.2 0 (by simp [hids])
  simp only [hids, List.getElem_cons_zero] at hposition
  exact ⟨c, hload, hids, hposition⟩

end TemplateAudit
