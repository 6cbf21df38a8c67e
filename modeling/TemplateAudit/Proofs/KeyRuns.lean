import TemplateAudit.Proofs.AccessKey

/-!
# TemplateAudit.Proofs.KeyRuns

The rule about access keys finds **runs** (`evaluate_finds_runs`).

The rule asks at every place of a line whether a key starts there: no capital or digit before it,
twenty of them from it on, none after these, and the right opening. Here a run is a stretch of
places, from `start` up to `stop`, and it is maximal if it can be extended on neither side. Both say
the same (`startsAt_iff`), since the places before and after the twenty are the two ends of a run.

The keys of a text stand at an ascending list of places (`keysFrom_eq`). Such a list is given by its
members, so a line has one finding for each run of the right kind, from left to right, and no other.
No key starts inside of another one, so a search that goes on behind each key that it finds misses
none of them (`keysResumed_eq`).
-/

namespace TemplateAudit

namespace Text

/-- A text contains another one if that stands somewhere in it. -/
theorem containsText_iff {needle text : List Char} :
    containsText needle text = true ↔ needle <:+: text := by
  unfold containsText
  induction text with
  | nil => simp [anyTail, List.isPrefixOf_iff_prefix]
  | cons c cs ih =>
      rw [anyTail, Bool.or_eq_true, ih, List.isPrefixOf_iff_prefix, List.infix_cons_iff]

end Text

namespace Rules.AccessKey

open TemplateAudit.Text

/-! ### Runs -/

/-- A capital letter or a digit stands at a place of a text. -/
def IsInRun (cs : List Char) (i : Nat) : Prop :=
  ∃ c, cs[i]? = some c ∧ ('A' ≤ c ∧ c ≤ 'Z' ∨ '0' ≤ c ∧ c ≤ '9')

/-- From `start` up to `stop` there are capitals and digits only, and none right before or after. -/
structure IsMaximalRun (cs : List Char) (start stop : Nat) : Prop where
  lt : start < stop
  inside : ∀ i, start ≤ i → i < stop → IsInRun cs i
  before : ∀ i, i + 1 = start → ¬ IsInRun cs i
  after : ¬ IsInRun cs stop

theorem isInRun_iff {cs : List Char} {i : Nat} : IsInRun cs i ↔ cs[i]?.any isKeyChar = true := by
  simp only [IsInRun, Option.any_eq_true, isKeyChar, isAsciiUpper, isAsciiDigit, Bool.or_eq_true,
    Bool.and_eq_true, decide_eq_true_eq]

theorem isInRun_congr {cs ds : List Char} {i j : Nat} (h : ds[i]? = cs[j]?) :
    IsInRun ds i ↔ IsInRun cs j := by
  rw [IsInRun, IsInRun, h]

theorem IsInRun.lt_length {cs : List Char} {i : Nat} (h : IsInRun cs i) : i < cs.length := by
  obtain ⟨c, hc, -⟩ := h
  exact (List.getElem?_eq_some_iff.mp hc).1

theorem IsMaximalRun.lt_length {cs : List Char} {start stop : Nat}
    (h : IsMaximalRun cs start stop) : start < cs.length :=
  (h.inside start (Nat.le_refl start) h.lt).lt_length

/-! ### Places of keys -/

/-- As many characters as a key has, from a place on. -/
def keyAt (cs : List Char) (start : Nat) : List Char := (cs.drop start).take keyLength

theorem getElem?_keyAt {cs : List Char} {start i : Nat} (h : i < keyLength) :
    (keyAt cs start)[i]? = cs[start + i]? := by
  rw [keyAt, List.getElem?_take_of_lt h, List.getElem?_drop]

theorem getElem?_keyAt_of_le {i : Nat} (cs : List Char) (start : Nat) (h : keyLength ≤ i) :
    (keyAt cs start)[i]? = none :=
  List.getElem?_eq_none (Nat.le_trans (List.length_take_le _ _) h)

theorem keyAt_congr {cs ds : List Char} {start start' : Nat}
    (h : ∀ i < keyLength, ds[start' + i]? = cs[start + i]?) : keyAt ds start' = keyAt cs start := by
  refine List.ext_getElem? fun i => ?_
  rcases Nat.lt_or_ge i keyLength with hi | hi
  · rw [getElem?_keyAt hi, getElem?_keyAt hi, h i hi]
  · rw [getElem?_keyAt_of_le ds _ hi, getElem?_keyAt_of_le cs _ hi]

/-- Whether a character of a key comes before a place; `inRun` tells it of the first one. -/
def isPreceded (inRun : Bool) (cs : List Char) : Nat → Bool
  | 0 => inRun
  | i + 1 => cs[i]?.any isKeyChar

/-- Whether a key starts at a place. -/
def startsAt (inRun : Bool) (cs : List Char) (start : Nat) : Bool :=
  !isPreceded inRun cs start && startsKey (cs.drop start)

/-- The keys in a text are those that start at its places, in order. -/
theorem keysFrom_eq (inRun : Bool) (cs : List Char) :
    keysFrom inRun cs = ((List.range cs.length).filter (startsAt inRun cs)).map (keyAt cs) := by
  induction cs generalizing inRun with
  | nil => rfl
  | cons c cs ih =>
      have hsucc : startsAt inRun (c :: cs) ∘ Nat.succ = startsAt (isKeyChar c) cs := by
        funext start
        cases start <;> rfl
      have hlater : ((List.range cs.length).map Nat.succ).filter (startsAt inRun (c :: cs)) =
          ((List.range cs.length).filter (startsAt (isKeyChar c) cs)).map Nat.succ := by
        rw [List.filter_map, hsucc]
      rw [keysFrom, ih, List.length_cons, List.range_succ_eq_map, List.filter_cons, hlater]
      -- what starts with the first character is asked of the whole text
      have hfirst : startsAt inRun (c :: cs) 0 = (!inRun && startsKey (c :: cs)) := rfl
      have hmap : (((List.range cs.length).filter (startsAt (isKeyChar c) cs)).map Nat.succ).map
            (keyAt (c :: cs)) =
          ((List.range cs.length).filter (startsAt (isKeyChar c) cs)).map (keyAt cs) := by
        rw [List.map_map]
        rfl
      rw [hfirst]
      split
      · rw [List.map_cons, hmap]
        rfl
      · rw [hmap]

/-- The key at a place is as long as a key and has the characters of one if these are in a run. -/
theorem inside_iff {cs : List Char} {start : Nat} :
    (∀ i, start ≤ i → i < start + keyLength → IsInRun cs i) ↔
      (keyAt cs start).length = keyLength ∧ (keyAt cs start).all isKeyChar = true := by
  constructor
  · intro h
    have hlast := (h (start + 19) (by omega) (by simp [keyLength])).lt_length
    have hlength : (keyAt cs start).length = keyLength := by
      simp only [keyAt, keyLength, List.length_take, List.length_drop]
      omega
    refine ⟨hlength, List.all_eq_true.mpr fun c hc => ?_⟩
    obtain ⟨i, hi⟩ := List.mem_iff_getElem?.mp hc
    have hlt : i < keyLength := hlength ▸ (List.getElem?_eq_some_iff.mp hi).1
    rw [getElem?_keyAt hlt] at hi
    have hrun := isInRun_iff.mp (h (start + i) (by omega) (by omega))
    rwa [hi] at hrun
  · rintro ⟨hlength, hall⟩ i hle hlt
    obtain ⟨j, rfl⟩ := Nat.exists_eq_add_of_le hle
    have hj : j < keyLength := by omega
    have hget : (keyAt cs start)[j]? = some ((keyAt cs start)[j]) :=
      List.getElem?_eq_getElem (hlength ▸ hj)
    have hchar := List.all_eq_true.mp hall _ (List.getElem_mem (hlength ▸ hj))
    rw [getElem?_keyAt hj] at hget
    rw [isInRun_iff, hget]
    exact hchar

theorem isPreceded_eq_false_iff {cs : List Char} {start : Nat} :
    isPreceded false cs start = false ↔ ∀ i, i + 1 = start → ¬ IsInRun cs i := by
  cases start with
  | zero => simp [isPreceded]
  | succ start =>
      rw [isPreceded, ← Bool.not_eq_true, ← isInRun_iff]
      constructor
      · rintro h i hi
        obtain rfl := Nat.succ.inj hi
        exact h
      · exact fun h => h start rfl

/-- A key starts at a place if a maximal run of its length does, with one of the openings. -/
theorem startsAt_iff {cs : List Char} {start : Nat} :
    startsAt false cs start = true ↔
      IsMaximalRun cs start (start + keyLength) ∧
        ∃ opening ∈ openings, opening <+: keyAt cs start := by
  have hafter : ¬ IsInRun cs (start + keyLength) ↔
      ((cs.drop start).drop keyLength).head?.any isKeyChar = false := by
    rw [List.drop_drop, List.head?_drop, ← Bool.not_eq_true, isInRun_iff]
  have hopens : openings.any (·.isPrefixOf (keyAt cs start)) = true ↔
      ∃ opening ∈ openings, opening <+: keyAt cs start := by
    simp only [List.any_eq_true, List.isPrefixOf_iff_prefix]
  rw [startsAt, startsKey, Bool.and_eq_true, Bool.not_eq_true', isPreceded_eq_false_iff]
  simp only [Bool.and_eq_true, Bool.not_eq_true', beq_iff_eq]
  rw [← hafter, ← keyAt, hopens, ← inside_iff]
  constructor
  · rintro ⟨hbefore, ⟨hinside, hopening⟩, hend⟩
    exact ⟨⟨by simp [keyLength], hinside, hbefore, hend⟩, hopening⟩
  · rintro ⟨hrun, hopening⟩
    exact ⟨hrun.before, ⟨hrun.inside, hopening⟩, hrun.after⟩

/-! ### Going on behind a key -/

/-- The keys in a text, searched for behind each key that is found. -/
def keysResumed (inRun : Bool) : List Char → List (List Char)
  | [] => []
  | c :: cs =>
    if !inRun && startsKey (c :: cs) then
      (c :: cs).take keyLength :: keysResumed true ((c :: cs).drop keyLength)
    else keysResumed (isKeyChar c) cs
termination_by cs => cs.length
decreasing_by
  · simp only [List.length_drop, List.length_cons, keyLength]
    omega
  · simp

/-- Inside of a run no key starts. -/
theorem keysFrom_append {run : List Char} (h : ∀ c ∈ run, isKeyChar c = true) (cs : List Char) :
    keysFrom true (run ++ cs) = keysFrom true cs := by
  induction run with
  | nil => rfl
  | cons c run ih =>
      rw [List.forall_mem_cons] at h
      rw [List.cons_append, keysFrom, h.1, ih h.2]
      rfl

/-- A search that goes on behind each key finds them all: no key starts inside of another one. -/
theorem keysResumed_eq (inRun : Bool) (cs : List Char) :
    keysResumed inRun cs = keysFrom inRun cs := by
  fun_induction keysResumed inRun cs with
  | case1 => rfl
  | case2 inRun c cs hstarts ih =>
      have hkey : ∀ d ∈ (c :: cs).take keyLength, isKeyChar d = true := by
        have hstarts := (Bool.and_eq_true_iff.mp hstarts).2
        simp only [startsKey, Bool.and_eq_true, List.all_eq_true] at hstarts
        exact hstarts.1.1.2
      rw [keyLength, List.take_succ_cons, List.forall_mem_cons] at hkey
      have hskip := keysFrom_append hkey.2 (cs.drop 19)
      rw [List.take_append_drop] at hskip
      rw [keysFrom, if_pos hstarts, hkey.1, hskip, ih]
      rfl
  | case3 inRun c cs hstarts ih => rw [keysFrom, if_neg hstarts, ih]

/-! ### Keys that are told about -/

/-- A maximal run of twenty capitals and digits that has one of the openings of keys and is not
marked as one from documentation. -/
structure IsReportable (cs : List Char) (start : Nat) : Prop where
  run : IsMaximalRun cs start (start + 20)
  opening : "AKIA".toList <+: keyAt cs start ∨ "ASIA".toList <+: keyAt cs start ∨
    "A3T".toList <+: keyAt cs start
  unmarked : ¬ "EXAMPLE".toList <:+: keyAt cs start

/-- Whether a key that is told about starts at a place. -/
def isReportedAt (cs : List Char) (start : Nat) : Bool :=
  startsAt false cs start && !containsText documentationMark (keyAt cs start)

theorem isReportedAt_iff {cs : List Char} {start : Nat} :
    isReportedAt cs start = true ↔ IsReportable cs start := by
  have hopens : (∃ opening ∈ openings, opening <+: keyAt cs start) ↔
      "AKIA".toList <+: keyAt cs start ∨ "ASIA".toList <+: keyAt cs start ∨
        "A3T".toList <+: keyAt cs start := by
    simp only [openings, List.mem_cons, List.not_mem_nil, or_false, exists_eq_or_imp,
      exists_eq_left]
    rw [or_comm, or_assoc]
  rw [isReportedAt, Bool.and_eq_true, startsAt_iff, hopens, Bool.not_eq_true', ← Bool.not_eq_true,
    containsText_iff]
  constructor
  · rintro ⟨⟨hrun, hopening⟩, hunmarked⟩
    exact ⟨hrun, hopening, hunmarked⟩
  · rintro ⟨hrun, hopening, hunmarked⟩
    exact ⟨⟨hrun, hopening⟩, hunmarked⟩

/-- The places of the keys that are told about. -/
def reportedStarts (cs : List Char) : List Nat := (List.range cs.length).filter (isReportedAt cs)

theorem mem_reportedStarts_iff {cs : List Char} {start : Nat} :
    start ∈ reportedStarts cs ↔ IsReportable cs start := by
  rw [reportedStarts, List.mem_filter, List.mem_range, isReportedAt_iff]
  exact and_iff_right_of_imp fun h => h.run.lt_length

theorem pairwise_reportedStarts (cs : List Char) : (reportedStarts cs).Pairwise (· < ·) :=
  List.pairwise_lt_range.filter _

theorem reported_eq (l : Line) :
    reported l = (reportedStarts l.text.toList).map (keyAt l.text.toList) := by
  rw [reported, keys, keysFrom_eq, List.filter_map, List.filter_filter]
  exact congrArg (List.map _) (List.filter_congr fun start _ => Bool.and_comm _ _)

/-- What is found at a place of a line. -/
def findingAt (l : Line) (start : Nat) : Finding :=
  .ofLines id l.number l.number (message (keyAt l.text.toList start))

theorem ofLine_eq (l : Line) : ofLine l = (reportedStarts l.text.toList).map (findingAt l) := by
  rw [ofLine, reported_eq, List.map_map]
  rfl

/-- What the rule yields on any document. Line by line it goes through an ascending list of places,
which are exactly those where a maximal run of twenty capitals and digits starts that opens like a
key and is not from documentation. For each of them it yields one finding, on that line alone. -/
theorem evaluate_finds_runs (d : Document) :
    ∃ starts : Line → List Nat,
      (∀ l, (starts l).Pairwise (· < ·) ∧
        ∀ start, start ∈ starts l ↔ IsReportable l.text.toList start) ∧
      rule.evaluate d = .items
        ((d.lines.flatMap fun l => (starts l).map fun start =>
          (.ofLines id l.number l.number (message (keyAt l.text.toList start)) : Finding)).map
            FindingOn.item) none := by
  refine ⟨fun l => reportedStarts l.text.toList,
    fun l => ⟨pairwise_reportedStarts _, fun start => mem_reportedStarts_iff⟩, ?_⟩
  have hsearch : search d =
      d.lines.flatMap fun l => (reportedStarts l.text.toList).map (findingAt l) := by
    rw [search_eq, funext ofLine_eq]
  change Evaluation.items ((search d).map FindingOn.item) none = _
  rw [hsearch]
  rfl

end Rules.AccessKey

end TemplateAudit
