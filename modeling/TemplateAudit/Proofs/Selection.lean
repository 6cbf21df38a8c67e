import Mathlib.Data.Finset.Card
import Mathlib.Data.List.Dedup
import TemplateAudit.Outcome
import TemplateAudit.Selection

/-!
# TemplateAudit.Proofs.Selection

Collapsing repeats and ordering by rank, for lists of anything.

A finding knows nothing of where it came from, so what `collapse` and `select` do to the order of
findings cannot be said of findings alone. Both are restated here for an arbitrary type: `firsts`
is `collapse` for any notion of sameness, and it commutes with `List.map`, so elements can be
tagged first and the tags dropped in the end.

* `mem_firsts_iff` — in a list that is ordered by the arrival of its elements, what is kept is
  what has no earlier one that is the same.
* `length_firsts` — there are as many elements left as there are keys.
* `filter_byRank` — sorting by rank leaves the elements of each rank as they stood. This is all
  that is needed of the sort being stable.
* `filter_firsts`, `filter_byRank_comm` — both commute with taking a part of the list, the first
  one if the part holds all or none of what is the same.
* `byRank_firsts` — they commute with each other if what is the same is of one rank. So it does not
  matter which of the two comes first (`select_eq_earliest_of_sorted`).
-/

namespace TemplateAudit

open TemplateAudit.Data (Value)

variable {α β : Type}

/-! ### Keeping the first of its kind -/

/-- The elements without those that are the same as an earlier one. -/
def firsts (same : α → α → Bool) : List α → List α
  | [] => []
  | a :: as => a :: (firsts same as).filter fun b => !same a b

theorem collapse_eq_firsts {ℓ : Type} [LineValue ℓ] (fs : List (FindingOn ℓ)) :
    collapse fs = firsts FindingOn.sameKey fs := by
  induction fs with
  | nil => rfl
  | cons f fs ih => rw [collapse, firsts, ih]

theorem firsts_map (f : α → β) (same : β → β → Bool) (as : List α) :
    firsts same (as.map f) = (firsts (fun a b => same (f a) (f b)) as).map f := by
  induction as with
  | nil => rfl
  | cons a as ih =>
      rw [List.map_cons, firsts, ih, List.filter_map]
      rfl

theorem firsts_sublist (same : α → α → Bool) (as : List α) : (firsts same as).Sublist as := by
  induction as with
  | nil => exact .slnil
  | cons a as ih => exact (List.filter_sublist.trans ih).cons_cons a

/-- An element that comes later is kept if it is not the same as the head and kept without it. -/
theorem mem_firsts_cons {same : α → α → Bool} {a x : α} {as : List α} :
    x ∈ firsts same (a :: as) ↔ x = a ∨ x ∈ firsts same as ∧ same a x = false := by
  rw [firsts, List.mem_cons, List.mem_filter, Bool.not_eq_true']

/-- What is kept is what has no earlier one that is the same. -/
theorem mem_firsts_iff {same : α → α → Bool} {before : α → α → Prop}
    (asymm : ∀ {a b}, before a b → ¬ before b a) {as : List α} (h : as.Pairwise before) {x : α} :
    x ∈ firsts same as ↔ x ∈ as ∧ ∀ y ∈ as, before y x → same y x = false := by
  induction as with
  | nil => simp [firsts]
  | cons a as ih =>
      obtain ⟨ha, has⟩ := List.pairwise_cons.mp h
      rw [mem_firsts_cons, ih has]
      constructor
      · rintro (rfl | ⟨⟨hx, hfirst⟩, hax⟩)
        · refine ⟨List.mem_cons_self, fun y hy hyx => ?_⟩
          -- nothing comes before the head, itself included
          rcases List.mem_cons.mp hy with rfl | hy
          · exact absurd hyx (asymm hyx)
          · exact absurd (ha y hy) (asymm hyx)
        · refine ⟨List.mem_cons_of_mem _ hx, fun y hy hyx => ?_⟩
          rcases List.mem_cons.mp hy with rfl | hy
          · exact hax
          · exact hfirst y hy hyx
      · rintro ⟨hx, hfirst⟩
        rcases List.mem_cons.mp hx with rfl | hx
        · exact Or.inl rfl
        · exact Or.inr ⟨⟨hx, fun y hy => hfirst y (List.mem_cons_of_mem _ hy)⟩,
            hfirst a List.mem_cons_self (ha x hx)⟩

/-- No two elements that are kept are the same. -/
theorem pairwise_firsts (same : α → α → Bool) (as : List α) :
    (firsts same as).Pairwise fun a b => same a b = false := by
  induction as with
  | nil => exact .nil
  | cons a as ih =>
      refine List.pairwise_cons.mpr ⟨fun b hb => ?_, ih.sublist List.filter_sublist⟩
      simpa using (List.mem_filter.mp hb).2

/-- Every element has one that is kept and has its key. -/
theorem exists_mem_firsts {κ : Type} {key : α → κ} {same : α → α → Bool} {as : List α}
    (hsame : ∀ a ∈ as, ∀ b ∈ as, same a b = true → key a = key b) :
    ∀ a ∈ as, ∃ b ∈ firsts same as, key b = key a := by
  induction as with
  | nil => intro a ha; cases ha
  | cons c as ih =>
      intro a ha
      rcases List.mem_cons.mp ha with rfl | ha'
      · exact ⟨a, List.mem_cons_self, rfl⟩
      · have hrest : ∀ a ∈ as, ∀ b ∈ as, same a b = true → key a = key b := fun a ha b hb =>
          hsame a (List.mem_cons_of_mem _ ha) b (List.mem_cons_of_mem _ hb)
        obtain ⟨b, hb, hkey⟩ := ih hrest a ha'
        have hcb := hsame c List.mem_cons_self b
          (List.mem_cons_of_mem _ ((firsts_sublist same as).mem hb))
        cases h : same c b with
        | true => exact ⟨c, List.mem_cons_self, (hcb h).trans hkey⟩
        | false => exact ⟨b, mem_firsts_cons.mpr (Or.inr ⟨hb, h⟩), hkey⟩

/-- There are as many elements left as there are keys. -/
theorem length_firsts {κ : Type} [DecidableEq κ] {key : α → κ} {same : α → α → Bool} {as : List α}
    (hsame : ∀ a ∈ as, ∀ b ∈ as, same a b = true ↔ key a = key b) :
    (firsts same as).length = (as.map key).toFinset.card := by
  have hmem : ∀ {a}, a ∈ firsts same as → a ∈ as := fun h => (firsts_sublist same as).mem h
  have hnodup : ((firsts same as).map key).Nodup := by
    refine List.pairwise_map.mpr ((pairwise_firsts same as).imp_of_mem ?_)
    intro a b ha hb hab hkey
    rw [(hsame a (hmem ha) b (hmem hb)).mpr hkey] at hab
    cases hab
  have hkeys : ((firsts same as).map key).toFinset = (as.map key).toFinset := by
    ext k
    simp only [List.mem_toFinset, List.mem_map]
    constructor
    · rintro ⟨a, ha, rfl⟩
      exact ⟨a, hmem ha, rfl⟩
    · rintro ⟨a, ha, rfl⟩
      exact exists_mem_firsts (fun a ha b hb => (hsame a ha b hb).mp) a ha
  rw [← hkeys, List.toFinset_card_of_nodup hnodup, List.length_map]

/-- A part that holds all or none of what is the same is collapsed like the whole. -/
theorem filter_firsts {same : α → α → Bool} {p : α → Bool} {as : List α}
    (h : ∀ a ∈ as, ∀ b ∈ as, same a b = true → p a = p b) :
    (firsts same as).filter p = firsts same (as.filter p) := by
  induction as with
  | nil => rfl
  | cons a as ih =>
      have hrest : ∀ a ∈ as, ∀ b ∈ as, same a b = true → p a = p b := fun a ha b hb =>
        h a (List.mem_cons_of_mem _ ha) b (List.mem_cons_of_mem _ hb)
      cases hp : p a with
      | true =>
          rw [firsts, List.filter_cons_of_pos hp, List.filter_cons_of_pos hp, firsts, ← ih hrest,
            List.filter_filter, List.filter_filter]
          simp only [Bool.and_comm]
      | false =>
          have hnot : ¬ p a = true := by simp [hp]
          rw [firsts, List.filter_cons_of_neg hnot, List.filter_cons_of_neg hnot, ← ih hrest,
            List.filter_filter]
          -- what the head would take away is not in the part either
          refine List.filter_congr fun b hb => ?_
          have hab := h a List.mem_cons_self b
            (List.mem_cons_of_mem _ ((firsts_sublist same as).mem hb))
          cases hsame : same a b with
          | true => simp [← hab hsame, hp]
          | false => simp

/-- The elements at places before which there is none that is the same. -/
def earliest (same : α → α → Bool) (as : List α) : List α :=
  (as.zipIdx.filter fun x => (as.take x.2).all fun b => !same b x.1).map Prod.fst

theorem firsts_eq_earliest (same : α → α → Bool) (as : List α) :
    firsts same as = earliest same as := by
  -- what stands before the elements at hand grows from one element to the next
  have hafter : ∀ seen : List α,
      (firsts same as).filter (fun a => seen.all fun b => !same b a) =
        ((as.zipIdx seen.length).filter fun x =>
          ((seen ++ as).take x.2).all fun b => !same b x.1).map Prod.fst := by
    induction as with
    | nil => intro seen; rfl
    | cons a as ih =>
        intro seen
        have hrest := ih (seen ++ [a])
        rw [List.append_assoc, List.singleton_append, List.length_append] at hrest
        have htail : ((firsts same as).filter fun b => !same a b).filter
              (fun c => seen.all fun b => !same b c) =
            (firsts same as).filter fun c => (seen ++ [a]).all fun b => !same b c := by
          rw [List.filter_filter]
          simp
        rw [firsts, List.zipIdx_cons, List.filter_cons, List.filter_cons, htail, hrest,
          List.take_left]
        split <;> rfl
  simpa [earliest] using hafter []

/-! ### Ordering by rank -/

/-- Elements ordered by rank, those of equal rank as they stood. -/
def byRank (rank : α → Int) (as : List α) : List α := as.mergeSort fun a b => rank a ≤ rank b

theorem rank_trans (rank : α → Int) (a b c : α) :
    decide (rank a ≤ rank b) = true → decide (rank b ≤ rank c) = true →
      decide (rank a ≤ rank c) = true := by
  simp only [decide_eq_true_eq]
  exact Int.le_trans

theorem rank_total (rank : α → Int) (a b : α) :
    (decide (rank a ≤ rank b) || decide (rank b ≤ rank a)) = true := by
  simp only [Bool.or_eq_true, decide_eq_true_eq]
  exact Int.le_total _ _

theorem byRank_perm (rank : α → Int) (as : List α) : (byRank rank as).Perm as :=
  List.mergeSort_perm _ _

theorem pairwise_le_byRank (rank : α → Int) (as : List α) :
    (byRank rank as).Pairwise fun a b => rank a ≤ rank b := by
  have hsorted := List.pairwise_mergeSort (rank_trans rank) (rank_total rank) as
  exact hsorted.imp fun hab => by simpa using hab

/-- The elements of one rank stay as they stood. -/
theorem filter_byRank (rank : α → Int) (r : Int) (as : List α) :
    (byRank rank as).filter (rank · = r) = as.filter (rank · = r) := by
  have hsorted : (as.filter (rank · = r)).Pairwise fun a b => decide (rank a ≤ rank b) = true := by
    refine List.pairwise_of_forall_mem_list fun a ha b hb => ?_
    have ha := (List.mem_filter.mp ha).2
    have hb := (List.mem_filter.mp hb).2
    simp only [decide_eq_true_eq] at ha hb ⊢
    rw [ha, hb]
  -- they are in order among themselves, so the sort keeps them as a sublist, and it loses none
  have hsub : (as.filter (rank · = r)).Sublist (byRank rank as) :=
    List.sublist_mergeSort (rank_trans rank) (rank_total rank) hsorted List.filter_sublist
  have hsub' := hsub.filter (rank · = r)
  rw [List.filter_filter] at hsub'
  simp only [Bool.and_self] at hsub'
  exact (hsub'.eq_of_length ((byRank_perm rank as).filter _).length_eq.symm).symm

/-- Of two elements, the one that comes first after ordering ranks first, or ranks the same and
came first before. -/
theorem pairwise_byRank {rank : α → Int} {before : α → α → Prop} {as : List α}
    (h : as.Pairwise before) :
    (byRank rank as).Pairwise fun a b => rank a < rank b ∨ rank a = rank b ∧ before a b := by
  rw [List.pairwise_iff_forall_sublist]
  intro a b hab
  have hle : rank a ≤ rank b :=
    List.pairwise_iff_forall_sublist.mp (pairwise_le_byRank rank as) hab
  rcases Int.lt_or_eq_of_le hle with hlt | heq
  · exact Or.inl hlt
  · refine Or.inr ⟨heq, ?_⟩
    -- both are in the class of `b`, which the sort leaves alone
    have hclass := hab.filter (rank · = rank b)
    rw [filter_byRank] at hclass
    have hpair : [a, b].Sublist as := by
      simpa [heq] using hclass.trans List.filter_sublist
    exact List.pairwise_iff_forall_sublist.mp h hpair

/-- Lists in order of rank that agree on every rank are the same. -/
theorem eq_of_filter_rank_eq {rank : α → Int} {as bs : List α}
    (ha : as.Pairwise fun a b => rank a ≤ rank b) (hb : bs.Pairwise fun a b => rank a ≤ rank b)
    (h : ∀ r, as.filter (rank · = r) = bs.filter (rank · = r)) : as = bs := by
  induction as generalizing bs with
  | nil =>
      cases bs with
      | nil => rfl
      | cons b bs => simpa using h (rank b)
  | cons a as ih =>
      cases bs with
      | nil => simpa using h (rank a)
      | cons b bs =>
          obtain ⟨hahead, hatail⟩ := List.pairwise_cons.mp ha
          obtain ⟨hbhead, hbtail⟩ := List.pairwise_cons.mp hb
          have hmem : ∀ x, x ∈ a :: as ↔ x ∈ b :: bs := fun x => by
            have hx := congrArg (x ∈ ·) (h (rank x))
            simpa using hx
          -- each head is in the other list, so both are of the least rank
          have hrank : rank a = rank b := by
            rcases List.mem_cons.mp ((hmem a).mp List.mem_cons_self) with rfl | hab
            · rfl
            · rcases List.mem_cons.mp ((hmem b).mpr List.mem_cons_self) with rfl | hba
              · rfl
              · exact Int.le_antisymm (hahead b hba) (hbhead a hab)
          have hclass := h (rank a)
          rw [List.filter_cons_of_pos (by simp), List.filter_cons_of_pos (by simp [hrank])] at hclass
          obtain ⟨rfl, hclass⟩ := List.cons.inj hclass
          rw [ih hatail hbtail]
          intro r
          have hr := h r
          by_cases har : rank a = r
          · rwa [← har]
          · rwa [List.filter_cons_of_neg (by simpa using har),
              List.filter_cons_of_neg (by simpa using har)] at hr

/-- A list in order of rank in which the elements of each rank stand as they stood. -/
structure IsStableSort (rank : α → Int) (as sorted : List α) : Prop where
  ordered : sorted.Pairwise fun a b => rank a ≤ rank b
  filter_rank : ∀ r, sorted.filter (rank · = r) = as.filter (rank · = r)

/-- There is one such list only. -/
theorem isStableSort_iff {rank : α → Int} {as sorted : List α} :
    IsStableSort rank as sorted ↔ sorted = byRank rank as := by
  have hbyRank : IsStableSort rank as (byRank rank as) :=
    ⟨pairwise_le_byRank rank as, fun r => filter_byRank rank r as⟩
  constructor
  · intro h
    exact eq_of_filter_rank_eq h.ordered hbyRank.ordered fun r =>
      (h.filter_rank r).trans (hbyRank.filter_rank r).symm
  · rintro rfl
    exact hbyRank

/-- A part is ordered like the whole. -/
theorem filter_byRank_comm (rank : α → Int) (p : α → Bool) (as : List α) :
    (byRank rank as).filter p = byRank rank (as.filter p) := by
  refine eq_of_filter_rank_eq ((pairwise_le_byRank rank as).filter p)
    (pairwise_le_byRank rank _) fun r => ?_
  calc ((byRank rank as).filter p).filter (rank · = r)
      = ((byRank rank as).filter (rank · = r)).filter p := List.filter_comm ..
    _ = (as.filter (rank · = r)).filter p := by rw [filter_byRank]
    _ = (as.filter p).filter (rank · = r) := List.filter_comm ..
    _ = (byRank rank (as.filter p)).filter (rank · = r) := (filter_byRank rank r _).symm

/-- Repeats can be left out before or after ordering if they are of the rank of what they repeat. -/
theorem byRank_firsts {same : α → α → Bool} {rank : α → Int} {as : List α}
    (h : ∀ a ∈ as, ∀ b ∈ as, same a b = true → rank a = rank b) :
    byRank rank (firsts same as) = firsts same (byRank rank as) := by
  -- a rank holds all or none of what is the same, so it can be collapsed by itself
  have hclass : ∀ bs : List α, (∀ b ∈ bs, b ∈ as) → ∀ r,
      (firsts same bs).filter (rank · = r) = firsts same (bs.filter (rank · = r)) :=
    fun bs hbs r => filter_firsts fun a ha b hb hab => by rw [h a (hbs a ha) b (hbs b hb) hab]
  refine eq_of_filter_rank_eq (pairwise_le_byRank rank _)
    ((pairwise_le_byRank rank as).sublist (firsts_sublist same _)) fun r => ?_
  calc (byRank rank (firsts same as)).filter (rank · = r)
      = (firsts same as).filter (rank · = r) := filter_byRank rank r _
    _ = firsts same (as.filter (rank · = r)) := hclass as (fun _ hb => hb) r
    _ = firsts same ((byRank rank as).filter (rank · = r)) := by rw [filter_byRank]
    _ = (firsts same (byRank rank as)).filter (rank · = r) :=
        (hclass _ (fun _ hb => (byRank_perm rank as).mem_iff.mp hb) r).symm

theorem byRank_congr {rank rank' : α → Int} {as : List α} (h : ∀ a ∈ as, rank a = rank' a) :
    byRank rank as = byRank rank' as := by
  have hmap := List.map_mergeSort (f := id) (l := as) (r := fun a b => decide (rank a ≤ rank b))
    (s := fun a b => decide (rank' a ≤ rank' b)) fun a ha b hb => by simp [h a ha, h b hb]
  simpa [byRank] using hmap

theorem byRank_map (f : α → β) (rank : β → Int) (as : List α) :
    byRank rank (as.map f) = (byRank (fun a => rank (f a)) as).map f := by
  symm
  apply List.map_mergeSort
  intro a _ b _
  rfl

theorem select_eq {ℓ : Type} [LineValue ℓ] (limit : Int) (rank : FindingOn ℓ → Int)
    (fs : List (FindingOn ℓ)) :
    select limit rank fs = (byRank rank (firsts FindingOn.sameKey fs)).take limit.toNat := by
  rw [select, collapse_eq_firsts, byRank]

/-- A limit that no finding exceeds leaves all of them. -/
theorem select_of_length_le {ℓ : Type} [LineValue ℓ] {limit : Nat} {fs : List (FindingOn ℓ)}
    (rank : FindingOn ℓ → Int) (h : fs.length ≤ limit) :
    select limit rank fs = byRank rank (firsts FindingOn.sameKey fs) := by
  rw [select_eq, Int.toNat_natCast]
  refine List.take_of_length_le (Nat.le_trans ?_ h)
  rw [(byRank_perm _ _).length_eq]
  exact (firsts_sublist _ fs).length_le

/-- Tagged elements are chosen like what they are tagged on. -/
theorem select_map {ℓ : Type} [LineValue ℓ] (limit : Int) (rank : FindingOn ℓ → Int)
    (f : α → FindingOn ℓ) (as : List α) :
    select limit rank (as.map f) =
      ((byRank (fun a => rank (f a)) (firsts (fun a b => (f a).sameKey (f b)) as)).take
        limit.toNat).map f := by
  rw [select_eq, firsts_map, byRank_map, List.map_take]

/-- The order of the steps does not matter. Whatever the limit and the findings are, if the rank is
one for all findings with the same key, then choosing among findings gives what comes of sorting
all of them first: there is one stable sort by rank, the earliest finding of each key in it is kept,
and of these no more than the limit, which counts as zero below zero. -/
theorem select_eq_earliest_of_sorted {ℓ : Type} [LineValue ℓ] (limit : Int)
    (rank : FindingOn ℓ → Int) (fs : List (FindingOn ℓ))
    (h : ∀ f ∈ fs, ∀ g ∈ fs, f.sameKey g = true → rank f = rank g) :
    ∃ sorted, (∀ l, IsStableSort rank fs l ↔ l = sorted) ∧
      select limit rank fs = (earliest FindingOn.sameKey sorted).take (max limit 0).toNat := by
  refine ⟨byRank rank fs, fun l => isStableSort_iff, ?_⟩
  have hlimit : (max limit 0).toNat = limit.toNat := by omega
  rw [select_eq, byRank_firsts h, firsts_eq_earliest, hlimit]

/-- Findings of two rules in turn, two of which repeat an earlier one in other words. -/
def repetitive : List Finding :=
  [.ofLines "low" 1 1 "a", .ofLines "high" 5 5 "b", .ofLines "low" 1 1 "c",
    .ofLines "high" 5 5 "d", .ofLines "high" 2 2 "e"]

/-- A rank by rule. -/
def highFirst (f : Finding) : Int := if f.ruleId.same (.ofString "high") then 1 else 2

theorem select_eq_earliest_of_sorted_repetitive :
    (∀ f ∈ repetitive, ∀ g ∈ repetitive, f.sameKey g = true → highFirst f = highFirst g) ∧
      ∃ sorted, IsStableSort highFirst repetitive sorted ∧
        select 2 highFirst repetitive = (earliest FindingOn.sameKey sorted).take 2 ∧
        select (-1) highFirst repetitive = [] := by
  have hrank : ∀ f ∈ repetitive, ∀ g ∈ repetitive,
      f.sameKey g = true → highFirst f = highFirst g := by decide +kernel
  obtain ⟨sorted, hsorted, htwo⟩ := select_eq_earliest_of_sorted 2 highFirst repetitive hrank
  obtain ⟨_, _, hnone⟩ := select_eq_earliest_of_sorted (-1) highFirst repetitive hrank
  exact ⟨hrank, sorted, (hsorted sorted).mpr rfl, htwo, hnone⟩

/-! ### Keys -/

namespace FindingOn

/-- The finding is attributed to a text. -/
def HasTextId (f : Finding) : Prop := ∃ t, f.ruleId = .text t

/-- What findings that are attributed to texts are told apart by: that text, and the numbers of
the two lines. -/
def key (f : Finding) : Option Text × Int × Int :=
  (textOfValue? f.ruleId, f.first.toInt, f.last.toInt)

end FindingOn

/-- Line numbers are the same key if they are the same number. -/
theorem LineRef.same_toValue (l m : LineRef) : l.toValue.same m.toValue = (l.toInt == m.toInt) := by
  cases l <;> cases m <;> simp [LineRef.toValue, LineRef.toInt, Value.same, Value.numeral?]

theorem LineRef.isKey_toValue (l : LineRef) : l.toValue.isKey = true := by
  cases l <;> simp [LineRef.toValue, Value.isKey]

/-- Of findings that are attributed to texts, the same ones are those with equal keys. -/
theorem FindingOn.sameKey_iff {f g : Finding} (hf : f.HasTextId) (hg : g.HasTextId) :
    f.sameKey g = true ↔ f.key = g.key := by
  obtain ⟨t, ht⟩ := hf
  obtain ⟨u, hu⟩ := hg
  simp [sameKey, key, LineValue.toValue, LineRef.same_toValue, ht, hu, Value.same, textOfValue?,
    and_assoc]

theorem FindingOn.ruleId_eq_of_sameKey {f g : Finding} (hf : f.HasTextId) (hg : g.HasTextId)
    (h : f.sameKey g = true) : f.ruleId = g.ruleId := by
  have hkey := congrArg Prod.fst ((sameKey_iff hf hg).mp h)
  obtain ⟨t, ht⟩ := hf
  obtain ⟨u, hu⟩ := hg
  simp only [key, ht, hu, textOfValue?, Option.some.injEq] at hkey
  rw [ht, hu, hkey]

/-- Only what a finding is attributed to can keep it from being told apart. -/
theorem FindingOn.hasKey_eq (f : Finding) : f.hasKey = f.ruleId.isKey := by
  simp [hasKey, LineValue.toValue, LineRef.isKey_toValue]

theorem FindingOn.HasTextId.isKey {f : Finding} (h : f.HasTextId) : f.ruleId.isKey = true := by
  obtain ⟨t, ht⟩ := h
  simp [ht, Value.isKey]

end TemplateAudit
