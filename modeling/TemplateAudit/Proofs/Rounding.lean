import Mathlib.Tactic.Positivity
import TemplateAudit.Number.Binary64

/-!
# TemplateAudit.Proofs.Rounding

Which whole numbers have a double near them: those below `Binary64.ceiling`
(`Binary64.ofInt?_eq_none_iff`).

A whole number keeps 53 binary digits when it is rounded. The largest exponent is reached at 1024
digits, where the numbers that are rounded up to the next power of two are lost as well; those are
the ones from half a step below that power on, since the last double is odd.
-/

namespace TemplateAudit.Number.Binary64

theorem scale_one (n log places : Nat) :
    scale n 1 (Int.ofNat log - Int.ofNat places) =
      if places ≤ log then (n, 2 ^ (log - places)) else (n * 2 ^ (places - log), 1) := by
  unfold scale twoTo
  simp only [Int.ofNat_eq_natCast]
  by_cases h : places ≤ log
  · have hnat : ((log : Int) - places).toNat = log - places := by omega
    rw [if_pos (by omega), if_pos h, hnat, Nat.one_mul]
    rfl
  · have hnat : (-((log : Int) - places)).toNat = places - log := by omega
    rw [if_neg (by omega), if_neg h, hnat]
    rfl

/-- Scaled by its length, a number has as many binary digits as are asked for. -/
theorem twoTo_le_scaled {n : Nat} (h : n ≠ 0) (places : Nat) :
    twoTo places ≤ (scale n 1 (Int.ofNat n.log2 - Int.ofNat places)).1 /
      (scale n 1 (Int.ofNat n.log2 - Int.ofNat places)).2 := by
  have hle := Nat.log2_self_le h
  show 2 ^ places ≤ _
  rw [scale_one]
  split
  case isTrue hlog =>
      rw [Nat.le_div_iff_mul_le (Nat.two_pow_pos _), ← Nat.pow_add, Nat.add_sub_cancel' hlog]
      exact hle
  case isFalse hlog =>
      rw [Nat.div_one]
      calc
        2 ^ places = 2 ^ n.log2 * 2 ^ (places - n.log2) := by
          rw [← Nat.pow_add, Nat.add_sub_cancel' (by omega)]
        _ ≤ n * 2 ^ (places - n.log2) := Nat.mul_le_mul_right _ hle

/-- A whole number keeps 53 binary digits. -/
theorem exponentOf_one {n : Nat} (h : n ≠ 0) :
    exponentOf n 1 = Int.ofNat n.log2 - Int.ofNat 52 := by
  have hlow : max (Int.ofNat n.log2 - Int.ofNat (Nat.log2 1) - 53) minExponent =
      Int.ofNat n.log2 - Int.ofNat 53 := by
    have hone : Nat.log2 1 = 0 := by decide
    rw [hone, minExponent]
    simp only [Int.ofNat_eq_natCast]
    omega
  unfold exponentOf
  simp only [hlow]
  rw [if_neg (Nat.not_lt.mpr (twoTo_le_scaled h 53))]
  simp only [Int.ofNat_eq_natCast]
  omega

theorem roundDiv_le (n d : Nat) : roundDiv n d ≤ n / d + 1 := by
  unfold roundDiv
  dsimp only
  split
  · omega
  split
  · omega
  split
  · omega
  · omega

/-- Below the next multiple, an odd quotient is rounded up from the half on. -/
theorem roundDiv_eq_succ_iff {n c q : Nat} (hc : 0 < c) (hodd : q % 2 = 1)
    (hn : n < (q + 1) * (2 * c)) : roundDiv n (2 * c) = q + 1 ↔ q * (2 * c) + c ≤ n := by
  have hsplit : 2 * c * (n / (2 * c)) + n % (2 * c) = n := Nat.div_add_mod n (2 * c)
  have hrest : n % (2 * c) < 2 * c := Nat.mod_lt n (by omega)
  have hle : n / (2 * c) ≤ q := Nat.lt_succ_iff.mp ((Nat.div_lt_iff_lt_mul (by omega)).mpr hn)
  rcases Nat.lt_or_eq_of_le hle with hlt | heq
  · have hmul : 2 * c * (n / (2 * c) + 1) ≤ 2 * c * q := Nat.mul_le_mul_left _ hlt
    rw [Nat.mul_add, Nat.mul_comm (2 * c) q] at hmul
    have hround := roundDiv_le n (2 * c)
    constructor
    · intro h
      omega
    · intro h
      omega
  · rw [heq, Nat.mul_comm (2 * c) q] at hsplit
    unfold roundDiv
    simp only [heq]
    constructor
    · intro h
      split at h <;> omega
    · intro h
      rw [if_neg (by omega)]
      split
      · rfl
      · rw [if_neg (by simp [hodd])]

theorem ite_eq_infinite_iff {p : Prop} [Decidable p] {neg : Bool} {m : Nat} {e : Int} :
    (∃ s, (if p then infinite neg else .finite neg m e) = .infinite s) ↔ p := by
  by_cases hp : p <;> simp [hp]

/-- Only from 1024 binary digits on a whole number can be rounded to infinity. -/
theorem round_infinite_iff {neg : Bool} {m : Nat} (h : m ≠ 0) :
    (∃ s, round neg m 1 = .infinite s) ↔
      1023 < m.log2 ∨ m.log2 = 1023 ∧ roundDiv m (2 ^ 971) = 2 ^ 53 := by
  have hscale : m.log2 = 1023 → scale m 1 (Int.ofNat m.log2 - Int.ofNat 52) = (m, 2 ^ 971) := by
    intro hlog
    rw [scale_one, hlog, if_pos (by decide)]
  unfold round
  rw [if_neg (by simpa using h)]
  simp only [exponentOf_one h, ite_eq_infinite_iff, maxExponent, Int.ofNat_eq_natCast] at hscale ⊢
  split
  case isTrue heq =>
      have hround : m.log2 = 1023 → roundDiv m (2 ^ 971) = 2 ^ 53 := by
        intro hlog
        rw [hscale hlog] at heq
        exact beq_iff_eq.mp heq
      constructor
      · intro hlt
        by_cases hlog : m.log2 = 1023
        · exact Or.inr ⟨hlog, hround hlog⟩
        · left
          dsimp only at hlt
          omega
      · intro hor
        dsimp only
        omega
  case isFalse hne =>
      have hround : m.log2 = 1023 → roundDiv m (2 ^ 971) ≠ 2 ^ 53 := by
        intro hlog heq
        rw [hscale hlog] at hne
        exact hne (beq_iff_eq.mpr heq)
      constructor
      · intro hlt
        left
        dsimp only at hlt
        omega
      · rintro (hlog | ⟨hlog, heq⟩)
        · dsimp only
          omega
        · exact absurd heq (hround hlog)

/-- Half a step beyond the largest double. -/
def ceiling : Nat := 2 ^ 1024 - 2 ^ 970

theorem round_infinite_iff_le (neg : Bool) (m : Nat) :
    (∃ s, round neg m 1 = .infinite s) ↔ ceiling ≤ m := by
  rw [ceiling]
  have hlargest : 2 ^ 1024 = 2 ^ 54 * 2 ^ 970 := by rw [← Nat.pow_add]
  have hpos : 0 < 2 ^ 970 := by positivity
  by_cases hm : m = 0
  · subst hm
    have hzero : round neg 0 1 = zero neg := rfl
    simp only [hzero, zero, reduceCtorEq, exists_false, false_iff]
    omega
  have hle := Nat.log2_self_le hm
  have hlt : m < 2 ^ (m.log2 + 1) := Nat.lt_log2_self
  rw [round_infinite_iff hm]
  rcases Nat.lt_trichotomy m.log2 1023 with hlog | hlog | hlog
  · have hpow : 2 ^ (m.log2 + 1) ≤ 2 ^ 1023 := by
      apply Nat.pow_le_pow_right (by decide)
      exact hlog
    have hsplit : 2 ^ 1023 = 2 ^ 53 * 2 ^ 970 := by rw [← Nat.pow_add]
    omega
  · rw [hlog] at hlt
    have hstep : 2 ^ 971 = 2 * 2 ^ 970 := by rw [← Nat.pow_succ']
    have hhalf := roundDiv_eq_succ_iff (n := m) (q := 2 ^ 53 - 1) hpos (by decide) (by omega)
    rw [hstep]
    omega
  · have hpow : 2 ^ 1024 ≤ 2 ^ m.log2 := by
      apply Nat.pow_le_pow_right (by decide)
      exact hlog
    omega

theorem one_lt_ceiling : 1 < ceiling := by
  have hlargest : 2 ^ 1024 = 2 ^ 54 * 2 ^ 970 := by rw [← Nat.pow_add]
  have hpos : 0 < 2 ^ 970 := by positivity
  rw [ceiling]
  omega

/-- The whole numbers that no double is near. -/
theorem ofInt?_eq_none_iff (n : Int) : ofInt? n = none ↔ ceiling ≤ n.natAbs := by
  rw [← round_infinite_iff_le (decide (n < 0))]
  unfold ofInt?
  constructor
  · intro h
    split at h
    · exact ⟨_, ‹_›⟩
    · cases h
  · rintro ⟨s, hs⟩
    rw [hs]

end TemplateAudit.Number.Binary64
