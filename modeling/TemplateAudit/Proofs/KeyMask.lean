import TemplateAudit.Proofs.KeyRuns
import TemplateAudit.Proofs.Lines
import TemplateAudit.Proofs.Related

/-!
# TemplateAudit.Proofs.KeyMask

What the rule about access keys says does not depend on what the mask hides.

The mask of a key leaves out its fifth to its sixteenth character. `IsRewriting` says that a text
has others in these places of the keys that are told about, and is the same everywhere else. The
new characters are of the kind that was there, so both texts have the same runs
(`isMaximalRun_iff`). A run is hidden in part or not at all, since runs do not overlap: if it is, it
keeps the opening and the four characters at its end, and if it is not, it stays as it is. So the
same runs are told about, in the same words.

No key reaches across a break, so a text is rewritten line by line (`IsRewriting.forall₂_lines`),
and what holds of a line holds of a document.
-/

namespace TemplateAudit

namespace Rules.AccessKey

open TemplateAudit.Text
open TemplateAudit.Yaml.Cursor (endsLine)

variable {cs ds : List Char} {start i : Nat}

/-! ### Hidden characters -/

/-- A place of the fifth to the sixteenth character of a key that is told about. -/
def IsHidden (cs : List Char) (i : Nat) : Prop :=
  ∃ start, IsReportable cs start ∧ start + 4 ≤ i ∧ i < start + 16

theorem IsHidden.isInRun (h : IsHidden cs i) : IsInRun cs i := by
  obtain ⟨start, hstart, hle, hlt⟩ := h
  exact hstart.run.inside i (by omega) (by omega)

/-- Runs that share a place start at the same one. -/
theorem IsMaximalRun.start_eq {start' stop stop' : Nat} (h : IsMaximalRun cs start stop)
    (h' : IsMaximalRun cs start' stop') (hi : start ≤ i ∧ i < stop) (hi' : start' ≤ i ∧ i < stop') :
    start = start' := by
  -- of two different starts, the later one has a place of the other run right before it
  rcases Nat.lt_trichotomy start start' with hlt | heq | hlt
  · exact absurd (h.inside (start' - 1) (by omega) (by omega)) (h'.before _ (by omega))
  · exact heq
  · exact absurd (h'.inside (start - 1) (by omega) (by omega)) (h.before _ (by omega))

/-- What is hidden in a run is hidden because that run is told about. -/
theorem IsMaximalRun.reportable_of_isHidden {stop : Nat} (h : IsMaximalRun cs start stop)
    (hi : start ≤ i ∧ i < stop) (hhidden : IsHidden cs i) :
    IsReportable cs start ∧ start + 4 ≤ i ∧ i < start + 16 := by
  obtain ⟨start', hstart', hle, hlt⟩ := hhidden
  obtain rfl := h.start_eq hstart'.run hi ⟨by omega, by omega⟩
  exact ⟨hstart', hle, hlt⟩

/-! ### Texts with other hidden characters -/

/-- A text that is another one with other capitals and digits in the hidden places, such that no key
comes to be marked as one from documentation. -/
structure IsRewriting (cs ds : List Char) : Prop where
  length_eq : ds.length = cs.length
  outside : ∀ i, ¬ IsHidden cs i → ds[i]? = cs[i]?
  inside : ∀ i, IsHidden cs i → IsInRun ds i
  unmarked : ∀ start, IsReportable cs start → ¬ "EXAMPLE".toList <:+: keyAt ds start

instance (cs : List Char) (i : Nat) : Decidable (IsInRun cs i) :=
  decidable_of_iff _ isInRun_iff.symm

instance (cs : List Char) (i : Nat) : Decidable (IsHidden cs i) :=
  decidable_of_iff (∃ start ∈ reportedStarts cs, start + 4 ≤ i ∧ i < start + 16) <| by
    simp only [IsHidden, mem_reportedStarts_iff]

/-- Whether a text is rewritten can be told from its characters. -/
theorem isRewriting_iff : IsRewriting cs ds ↔ ds.length = cs.length ∧
    (∀ i < cs.length, if IsHidden cs i then IsInRun ds i else ds[i]? = cs[i]?) ∧
    ∀ start ∈ reportedStarts cs, containsText documentationMark (keyAt ds start) = false := by
  have hmark : ∀ start, containsText documentationMark (keyAt ds start) = false ↔
      ¬ "EXAMPLE".toList <:+: keyAt ds start := fun start => by
    rw [← Bool.not_eq_true, containsText_iff]
    rfl
  simp only [hmark, mem_reportedStarts_iff]
  constructor
  · intro h
    refine ⟨h.length_eq, fun i _ => ?_, h.unmarked⟩
    split
    · exact h.inside i ‹_›
    · exact h.outside i ‹_›
  · rintro ⟨hlength, hplaces, hunmarked⟩
    refine ⟨hlength, fun i hi => ?_, fun i hi => ?_, hunmarked⟩
    · rcases Nat.lt_or_ge i cs.length with hlt | hge
      · simpa [hi] using hplaces i hlt
      · rw [List.getElem?_eq_none hge, List.getElem?_eq_none (hlength ▸ hge)]
    · simpa [hi] using hplaces i hi.isInRun.lt_length

instance (cs ds : List Char) : Decidable (IsRewriting cs ds) :=
  decidable_of_iff _ isRewriting_iff.symm

namespace IsRewriting

theorem isInRun_iff (h : IsRewriting cs ds) : IsInRun ds i ↔ IsInRun cs i := by
  by_cases hhidden : IsHidden cs i
  · exact iff_of_true (h.inside i hhidden) hhidden.isInRun
  · rw [IsInRun, IsInRun, h.outside i hhidden]

/-- Both texts have the same runs. -/
theorem isMaximalRun_iff (h : IsRewriting cs ds) {stop : Nat} :
    IsMaximalRun ds start stop ↔ IsMaximalRun cs start stop := by
  constructor
  · rintro ⟨hlt, hinside, hbefore, hafter⟩
    exact ⟨hlt, fun i hle hi => h.isInRun_iff.mp (hinside i hle hi),
      fun i hi => mt h.isInRun_iff.mpr (hbefore i hi), mt h.isInRun_iff.mpr hafter⟩
  · rintro ⟨hlt, hinside, hbefore, hafter⟩
    exact ⟨hlt, fun i hle hi => h.isInRun_iff.mpr (hinside i hle hi),
      fun i hi => mt h.isInRun_iff.mp (hbefore i hi), mt h.isInRun_iff.mp hafter⟩

/-- Within a run of the length of a key, a character is kept unless it is hidden. -/
theorem getElem?_keyAt_eq (h : IsRewriting cs ds) (hrun : IsMaximalRun cs start (start + 20))
    (hi : ¬ (IsReportable cs start ∧ 4 ≤ i ∧ i < 16)) :
    (keyAt ds start)[i]? = (keyAt cs start)[i]? := by
  rcases Nat.lt_or_ge i 20 with hlt | hge
  · rw [getElem?_keyAt hlt, getElem?_keyAt hlt]
    refine h.outside _ fun hhidden => hi ?_
    obtain ⟨hstart, hle, hend⟩ := hrun.reportable_of_isHidden ⟨by omega, by omega⟩ hhidden
    exact ⟨hstart, by omega, by omega⟩
  · rw [getElem?_keyAt_of_le ds _ hge, getElem?_keyAt_of_le cs _ hge]

/-- A run that is not told about is the same in both texts. -/
theorem keyAt_eq (h : IsRewriting cs ds) (hrun : IsMaximalRun cs start (start + 20))
    (hnot : ¬ IsReportable cs start) : keyAt ds start = keyAt cs start :=
  List.ext_getElem? fun _ => h.getElem?_keyAt_eq hrun fun hi => hnot hi.1

/-- A key that is told about keeps its first four characters. -/
theorem take_keyAt (h : IsRewriting cs ds) (hrun : IsMaximalRun cs start (start + 20)) :
    (keyAt ds start).take 4 = (keyAt cs start).take 4 := by
  refine List.ext_getElem? fun i => ?_
  rw [List.getElem?_take, List.getElem?_take]
  split
  · exact h.getElem?_keyAt_eq hrun (by omega)
  · rfl

/-- So it does with its last four. -/
theorem drop_keyAt (h : IsRewriting cs ds) (hrun : IsMaximalRun cs start (start + 20)) :
    (keyAt ds start).drop 16 = (keyAt cs start).drop 16 := by
  refine List.ext_getElem? fun i => ?_
  rw [List.getElem?_drop, List.getElem?_drop]
  exact h.getElem?_keyAt_eq hrun (by omega)

/-- Both texts have keys that are told about in the same places. -/
theorem isReportable_iff (h : IsRewriting cs ds) :
    IsReportable ds start ↔ IsReportable cs start := by
  constructor
  · intro hds
    have hrun := h.isMaximalRun_iff.mp hds.run
    by_contra hnot
    have hsame := h.keyAt_eq hrun hnot
    exact hnot ⟨hrun, hsame ▸ hds.opening, hsame ▸ hds.unmarked⟩
  · intro hcs
    have hopening : ∀ opening : List Char, opening.length ≤ 4 →
        opening <+: keyAt cs start → opening <+: keyAt ds start := by
      intro opening hshort hstarts
      have htake := List.prefix_take_iff.mpr ⟨hstarts, hshort⟩
      rw [← h.take_keyAt hcs.run] at htake
      exact (List.prefix_take_iff.mp htake).1
    refine ⟨h.isMaximalRun_iff.mpr hcs.run, ?_, h.unmarked start hcs⟩
    exact hcs.opening.imp (hopening _ (by decide))
      (Or.imp (hopening _ (by decide)) (hopening _ (by decide)))

theorem reportedStarts_eq (h : IsRewriting cs ds) : reportedStarts ds = reportedStarts cs := by
  rw [reportedStarts, reportedStarts, h.length_eq]
  refine List.filter_congr fun start _ => ?_
  rw [Bool.eq_iff_iff, isReportedAt_iff, isReportedAt_iff, h.isReportable_iff]

/-- The mask of a key is that of the key in its place. -/
theorem maskChars_keyAt (h : IsRewriting cs ds) (hstart : IsReportable cs start) :
    maskChars (keyAt ds start) = maskChars (keyAt cs start) := by
  have hlength : ∀ {es : List Char}, IsReportable es start → (keyAt es start).length = 20 :=
    fun hes => (inside_iff.mp hes.run.inside).1
  rw [maskChars, maskChars, hlength hstart, hlength (h.isReportable_iff.mpr hstart),
    h.take_keyAt hstart.run, h.drop_keyAt hstart.run]

/-- So the same is said of both. -/
theorem message_keyAt (h : IsRewriting cs ds) (hstart : IsReportable cs start) :
    message (keyAt ds start) = message (keyAt cs start) :=
  congrArg (fun masked => "Access key id " ++ String.ofList masked ++ " is committed in plain text")
    (h.maskChars_keyAt hstart)

end IsRewriting

/-! ### Parts of a text -/

/-- A key also stands in another text if its characters do, and it ends there on both sides. -/
theorem IsReportable.transfer {es : List Char} {place : Nat} (h : IsReportable cs start)
    (hinside : ∀ j < 20, es[place + j]? = cs[start + j]?)
    (hbefore : ∀ i, i + 1 = place → ¬ IsInRun es i) (hafter : ¬ IsInRun es (place + 20)) :
    IsReportable es place := by
  have hkey : keyAt es place = keyAt cs start := keyAt_congr hinside
  refine ⟨⟨by omega, fun i hle hlt => ?_, hbefore, hafter⟩, hkey ▸ h.opening, hkey ▸ h.unmarked⟩
  obtain ⟨j, rfl⟩ := Nat.exists_eq_add_of_le hle
  exact (isInRun_congr (hinside j (by omega))).mpr (h.run.inside _ (by omega) (by omega))

section Parts

variable {as bs : List Char} {c : Char} (hc : isKeyChar c = false)

theorem getElem?_before (h : i < as.length) : (as ++ c :: bs)[i]? = as[i]? :=
  List.getElem?_append_left h

theorem getElem?_behind (i : Nat) : (as ++ c :: bs)[as.length + 1 + i]? = bs[i]? := by
  rw [List.getElem?_append_right (by omega), show as.length + 1 + i - as.length = i + 1 by omega,
    List.getElem?_cons_succ]

theorem keyAt_before (h : start + 20 ≤ as.length) :
    keyAt (as ++ c :: bs) start = keyAt as start :=
  keyAt_congr fun _ hi => getElem?_before (Nat.lt_of_lt_of_le (Nat.add_lt_add_left hi start) h)

theorem keyAt_behind (start : Nat) :
    keyAt (as ++ c :: bs) (as.length + 1 + start) = keyAt bs start :=
  keyAt_congr fun i _ => by rw [Nat.add_assoc, getElem?_behind]

include hc

theorem not_isInRun_between : ¬ IsInRun (as ++ c :: bs) as.length := by
  rw [isInRun_iff]
  simp [hc]

/-- No run reaches across a character that runs do not have. -/
theorem IsMaximalRun.before_or_behind {stop : Nat} (h : IsMaximalRun (as ++ c :: bs) start stop) :
    stop ≤ as.length ∨ as.length + 1 ≤ start := by
  by_contra hacross
  exact not_isInRun_between hc (h.inside as.length (by omega) (by omega))

theorem isReportable_before_iff :
    IsReportable as start ↔ IsReportable (as ++ c :: bs) start ∧ start + 20 ≤ as.length := by
  constructor
  · intro h
    have hle : start + 20 ≤ as.length :=
      (h.run.inside (start + 19) (by omega) (by omega)).lt_length
    refine ⟨h.transfer (fun j hj => getElem?_before (by omega)) (fun i hi => ?_) ?_, hle⟩
    · exact mt (isInRun_congr (getElem?_before (by omega))).mp (h.run.before i hi)
    · rcases Nat.lt_or_eq_of_le hle with hlt | heq
      · exact mt (isInRun_congr (getElem?_before hlt)).mp h.run.after
      · exact heq ▸ not_isInRun_between hc
  · rintro ⟨h, hle⟩
    refine h.transfer (fun j hj => (getElem?_before (by omega)).symm) (fun i hi => ?_) ?_
    · exact mt (isInRun_congr (getElem?_before (by omega))).mpr (h.run.before i hi)
    · exact fun hrun => h.run.after ((isInRun_congr (getElem?_before hrun.lt_length)).mpr hrun)

theorem isReportable_behind_iff :
    IsReportable bs start ↔ IsReportable (as ++ c :: bs) (as.length + 1 + start) := by
  have hget : ∀ j, (as ++ c :: bs)[as.length + 1 + start + j]? = bs[start + j]? := fun j => by
    rw [Nat.add_assoc, getElem?_behind]
  constructor
  · intro h
    refine h.transfer (fun j _ => hget j) (fun i hi => ?_)
      (mt (isInRun_congr (hget 20)).mp h.run.after)
    cases start with
    | zero =>
        obtain rfl : i = as.length := by omega
        exact not_isInRun_between hc
    | succ start =>
        obtain rfl : i = as.length + 1 + start := by omega
        exact mt (isInRun_congr (getElem?_behind start)).mp (h.run.before start rfl)
  · intro h
    refine h.transfer (fun j _ => (hget j).symm) (fun i hi => ?_)
      (mt (isInRun_congr (hget 20)).mpr h.run.after)
    exact mt (isInRun_congr (getElem?_behind i)).mpr (h.run.before (as.length + 1 + i) (by omega))

theorem isHidden_before_iff (hi : i < as.length) :
    IsHidden (as ++ c :: bs) i ↔ IsHidden as i := by
  constructor
  · rintro ⟨start, h, hle, hlt⟩
    refine ⟨start, (isReportable_before_iff hc).mpr ⟨h, ?_⟩, hle, hlt⟩
    rcases h.run.before_or_behind hc with hbefore | hbehind <;> omega
  · rintro ⟨start, h, hle, hlt⟩
    exact ⟨start, ((isReportable_before_iff hc).mp h).1, hle, hlt⟩

theorem isHidden_behind_iff :
    IsHidden (as ++ c :: bs) (as.length + 1 + i) ↔ IsHidden bs i := by
  constructor
  · rintro ⟨start, h, hle, hlt⟩
    have hbehind : as.length + 1 ≤ start := by
      rcases h.run.before_or_behind hc with hbefore | hbehind <;> omega
    obtain ⟨place, rfl⟩ := Nat.exists_eq_add_of_le hbehind
    exact ⟨place, (isReportable_behind_iff hc).mpr h, by omega, by omega⟩
  · rintro ⟨start, h, hle, hlt⟩
    exact ⟨_, (isReportable_behind_iff hc).mp h, by omega, by omega⟩

end Parts

namespace IsRewriting

variable {as bs : List Char} {c : Char}

/-- Other characters stay where they are, and no new ones come in. -/
theorem getElem?_eq_some_iff (h : IsRewriting cs ds) (hc : isKeyChar c = false) :
    ds[i]? = some c ↔ cs[i]? = some c := by
  by_cases hhidden : IsHidden cs i
  · have hnot : ∀ {es : List Char}, IsInRun es i → es[i]? ≠ some c := fun hrun hget => by
      rw [AccessKey.isInRun_iff, hget] at hrun
      exact Bool.false_ne_true (hc.symm.trans hrun)
    exact iff_of_false (hnot (h.inside i hhidden)) (hnot hhidden.isInRun)
  · rw [h.outside i hhidden]

theorem mem_iff (h : IsRewriting cs ds) (hc : isKeyChar c = false) : c ∈ ds ↔ c ∈ cs := by
  simp only [List.mem_iff_getElem?, h.getElem?_eq_some_iff hc]

theorem nil_iff (h : IsRewriting cs ds) : ds = [] ↔ cs = [] := by
  rw [← List.length_eq_zero_iff, ← List.length_eq_zero_iff, h.length_eq]

/-- What is before a character that runs do not have is rewritten by itself. -/
theorem before {as' bs' : List Char} (hc : isKeyChar c = false) (hlength : as.length = as'.length)
    (h : IsRewriting (as ++ c :: bs) (as' ++ c :: bs')) : IsRewriting as as' := by
  refine ⟨hlength.symm, fun i hi => ?_, fun i hi => ?_, fun start hstart => ?_⟩
  · by_cases hlt : i < as.length
    · have hout := h.outside i (mt (isHidden_before_iff hc hlt).mp hi)
      rwa [getElem?_before hlt, getElem?_before (hlength ▸ hlt)] at hout
    · rw [List.getElem?_eq_none (by omega), List.getElem?_eq_none (by omega)]
  · have hlt := hi.isInRun.lt_length
    have hin := h.inside i ((isHidden_before_iff hc hlt).mpr hi)
    exact (isInRun_congr (getElem?_before (hlength ▸ hlt))).mp hin
  · obtain ⟨hwhole, hle⟩ := (isReportable_before_iff hc).mp hstart
    have hunmarked := h.unmarked start hwhole
    rwa [keyAt_before (by omega)] at hunmarked

/-- So is what is behind it. -/
theorem behind {as' bs' : List Char} (hc : isKeyChar c = false) (hlength : as.length = as'.length)
    (h : IsRewriting (as ++ c :: bs) (as' ++ c :: bs')) : IsRewriting bs bs' := by
  have htotal := h.length_eq
  simp only [List.length_append, List.length_cons] at htotal
  refine ⟨by omega, fun i hi => ?_, fun i hi => ?_, fun start hstart => ?_⟩
  · have hout := h.outside _ (mt (isHidden_behind_iff hc).mp hi)
    rwa [getElem?_behind, hlength, getElem?_behind] at hout
  · have hin := h.inside _ ((isHidden_behind_iff hc).mpr hi)
    rw [hlength] at hin
    exact (isInRun_congr (getElem?_behind i)).mp hin
  · have hunmarked := h.unmarked _ ((isReportable_behind_iff hc).mp hstart)
    rwa [hlength, keyAt_behind] at hunmarked

/-- The character itself stays between the two. -/
theorem cut (hc : isKeyChar c = false) (h : IsRewriting (as ++ c :: bs) ds) :
    ∃ as' bs', ds = as' ++ c :: bs' ∧ IsRewriting as as' ∧ IsRewriting bs bs' := by
  have hget : ds[as.length]? = some c := (h.getElem?_eq_some_iff hc).mpr (by simp)
  obtain ⟨hlt, heq⟩ := List.getElem?_eq_some_iff.mp hget
  have hds : ds = ds.take as.length ++ c :: ds.drop (as.length + 1) := by
    rw [← heq, ← List.drop_eq_getElem_cons, List.take_append_drop]
  have hlength : as.length = (ds.take as.length).length := by
    rw [List.length_take]
    omega
  rw [hds] at h
  exact ⟨_, _, hds, h.before hc hlength, h.behind hc hlength⟩

theorem cut_first (hc : isKeyChar c = false) (h : IsRewriting (c :: bs) ds) :
    ∃ bs', ds = c :: bs' ∧ IsRewriting bs bs' := by
  rw [← List.nil_append (c :: bs)] at h
  obtain ⟨empty, bs', rfl, hempty, hbs⟩ := h.cut hc
  exact ⟨bs', by rw [hempty.nil_iff.mpr rfl, List.nil_append], hbs⟩

end IsRewriting

/-! ### Lines -/

theorem isKeyChar_of_isBreak {c : Char} (h : isBreak c = true) : isKeyChar c = false := by
  simp only [isBreak, Bool.or_eq_true, beq_iff_eq] at h
  rcases h with (((rfl | rfl) | h) | h) | h
  · decide
  · decide
  all_goals
    rw [← Bool.not_eq_true, isKeyChar_iff]
    omega

namespace IsRewriting

theorem forall_not_isBreak (h : IsRewriting cs ds) (hcs : ∀ c ∈ cs, isBreak c = false) :
    ∀ c ∈ ds, isBreak c = false := by
  intro c hmem
  by_contra hbreak
  rw [Bool.not_eq_false] at hbreak
  have hold := hcs c ((h.mem_iff (isKeyChar_of_isBreak hbreak)).mp hmem)
  rw [hbreak] at hold
  cases hold

/-- Whether a break ends a line depends on a line feed after it, and those stay. -/
theorem endsLine_head?_iff (h : IsRewriting cs ds) (b : Char) :
    endsLine b ds.head? = true ↔ endsLine b cs.head? = true := by
  rw [endsLine_iff, endsLine_iff, List.head?_eq_getElem?, List.head?_eq_getElem?,
    h.getElem?_eq_some_iff (by decide)]

/-- A text is rewritten line by line. -/
theorem forall₂_lines (h : IsRewriting cs ds) :
    List.Forall₂ IsRewriting (splitLineChars cs) (splitLineChars ds) := by
  induction hn : cs.length using Nat.strong_induction_on generalizing cs ds with
  | _ n ih =>
  cases hfind : cs.find? isBreak with
  | none =>
      have hline : ∀ c ∈ cs, isBreak c = false := by simpa using List.find?_eq_none.mp hfind
      by_cases hnil : cs = []
      · rw [hnil, h.nil_iff.mpr hnil]
        exact .nil
      · rw [splitLineChars_of_forall hline hnil,
          splitLineChars_of_forall (h.forall_not_isBreak hline) (mt h.nil_iff.mp hnil)]
        exact .cons h .nil
  | some b =>
      obtain ⟨hb, line, rest, rfl, hline⟩ := List.find?_eq_some_iff_append.mp hfind
      simp only [Bool.not_eq_true'] at hline
      rw [List.length_append, List.length_cons] at hn
      obtain ⟨line', rest', rfl, hlines, hrests⟩ := h.cut (isKeyChar_of_isBreak hb)
      have hline' := hlines.forall_not_isBreak hline
      cases hends : endsLine b rest.head? with
      | true =>
          rw [splitLineChars_append_of_endsLine hline hends,
            splitLineChars_append_of_endsLine hline' ((hrests.endsLine_head?_iff b).mpr hends)]
          exact .cons hlines (ih _ (by omega) hrests rfl)
      | false =>
          -- a carriage return before a line feed, which is cut off as well
          have hnot : ¬ endsLine b rest.head? = true := by simp [hends]
          obtain ⟨rfl, hfeed⟩ := pair_of_not_endsLine hnot hb
          obtain ⟨rest, rfl⟩ := List.head?_eq_some_iff.mp hfeed
          obtain ⟨more, rfl, hmore⟩ := hrests.cut_first (by decide)
          rw [List.length_cons] at hn
          rw [splitLineChars_append_pair hline, splitLineChars_append_pair hline']
          exact .cons hlines (ih _ (by omega) hmore rfl)

/-- A byte-order mark stays at the start of a text, and none comes to stand there. -/
theorem dropMarkChars (h : IsRewriting cs ds) :
    IsRewriting (dropMarkChars cs) (dropMarkChars ds) := by
  cases cs with
  | nil =>
      rw [h.nil_iff.mpr rfl]
      rwa [h.nil_iff.mpr rfl] at h
  | cons c cs =>
      have hkey : isKeyChar Utf8.byteOrderMark = false := by decide
      by_cases hmark : c = Utf8.byteOrderMark
      · subst hmark
        obtain ⟨ds, rfl, hds⟩ := h.cut_first hkey
        simpa [Text.dropMarkChars] using hds
      · cases ds with
        | nil => cases h.nil_iff.mp rfl
        | cons d ds =>
            have hd : d ≠ Utf8.byteOrderMark := by
              rintro rfl
              exact hmark (by simpa using (h.getElem?_eq_some_iff hkey).mp List.getElem?_cons_zero)
            simpa [Text.dropMarkChars, hmark, hd] using h

end IsRewriting

/-- A line with the same number, and its text with other hidden characters. -/
structure IsRewrittenLine (l l' : Line) : Prop where
  number : l'.number = l.number
  text : IsRewriting l.text.toList l'.text.toList

theorem IsRewrittenLine.ofLine_eq {l l' : Line} (h : IsRewrittenLine l l') :
    ofLine l' = ofLine l := by
  rw [AccessKey.ofLine_eq, AccessKey.ofLine_eq, h.text.reportedStarts_eq]
  refine List.map_congr_left fun start hstart => ?_
  rw [findingAt, findingAt, h.number, h.text.message_keyAt (mem_reportedStarts_iff.mp hstart)]

/-- The rule finds the same in documents whose lines are rewritten one by one. -/
theorem evaluate_of_rewrittenLines {d d' : Document}
    (h : List.Forall₂ IsRewrittenLine d.lines d'.lines) : rule.evaluate d' = rule.evaluate d := by
  have hsearch : search d' = search d := by
    rw [search_eq, search_eq]
    exact flatMap_eq_of_forall₂ h fun _ _ hl => hl.ofLine_eq
  exact congrArg (fun fs => Evaluation.ofSearch (.ok fs)) hsearch

theorem forall₂_numberFrom {ss ss' : List String}
    (h : List.Forall₂ (fun s s' => IsRewriting s.toList s'.toList) ss ss') (n : Int) :
    List.Forall₂ IsRewrittenLine (numberFrom n ss) (numberFrom n ss') := by
  induction h generalizing n with
  | nil => exact .nil
  | cons hs _ ih => exact .cons ⟨rfl, hs⟩ (ih (n + 1))

/-- A document of a text has the lines of that text. -/
theorem IsRewriting.forall₂_ofText {s s' : String} (h : IsRewriting s.toList s'.toList)
    (token : Text) :
    List.Forall₂ IsRewrittenLine (Document.ofText s token).lines
      (Document.ofText s' token).lines := by
  dsimp only [Document.ofText, Document.ofPlainText]
  refine forall₂_numberFrom ?_ 1
  rw [splitLines, splitLines, List.forall₂_map_left_iff, List.forall₂_map_right_iff]
  simp only [dropMark, String.toList_ofList]
  exact h.dropMarkChars.forall₂_lines

end Rules.AccessKey

end TemplateAudit
