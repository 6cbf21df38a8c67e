/-!
# TemplateAudit.Number.Binary64

Double precision numbers, exactly.

A finite number is `(-1)^neg * m * 2^e` with `m < 2^53` and `-1074 ≤ e ≤ 971`, in lowest
exponent form: either `m ≥ 2^52`, or `e = -1074`. Everything is computed on whole numbers:
an operation takes the exact quotient or sum and hands it to `round`, which is the one place
where a number is rounded. `round` takes the nearest double and, half way between two, the
one with even `m`; what lies beyond the largest double becomes infinite.
-/

namespace TemplateAudit.Number

/-- A power of two. -/
def twoTo (n : Nat) : Nat := Nat.pow 2 n

/-- A power of ten. -/
def tenTo (n : Nat) : Nat := Nat.pow 10 n

/-- A double precision number. -/
inductive Binary64
  | finite (neg : Bool) (m : Nat) (e : Int)
  | infinite (neg : Bool)
  | nan
  deriving DecidableEq, Repr, Inhabited

namespace Binary64

/-- The smallest exponent. -/
def minExponent : Int := -1074

/-- The largest exponent. -/
def maxExponent : Int := 971

/-- Zero with a sign. -/
def zero (neg : Bool) : Binary64 := .finite neg 0 minExponent

/-- `num / (den * 2^e)` as a quotient of whole numbers. -/
def scale (num den : Nat) (e : Int) : Nat × Nat :=
  if 0 ≤ e then (num, den * twoTo e.toNat) else (num * twoTo (-e).toNat, den)

/-- The whole number nearest to `num / den`; a half goes to the even neighbour. -/
def roundDiv (num den : Nat) : Nat :=
  let q := num / den
  let r := num % den
  if 2 * r < den then q
  else if den < 2 * r then q + 1
  else if q % 2 == 0 then q else q + 1

/-- The exponent of the double nearest to `num / den`, for `num` and `den` above zero. -/
def exponentOf (num den : Nat) : Int :=
  let low := max (Int.ofNat num.log2 - Int.ofNat den.log2 - 53) minExponent
  let (n, d) := scale num den low
  if n / d < twoTo 53 then low else low + 1

/-- The double nearest to `num / den`, where `den` is above zero. -/
def round (neg : Bool) (num den : Nat) : Binary64 :=
  if num == 0 then zero neg
  else
    let e := exponentOf num den
    let (n, d) := scale num den e
    let m := roundDiv n d
    let (m, e) := if m == twoTo 53 then (twoTo 52, e + 1) else (m, e)
    if maxExponent < e then .infinite neg else .finite neg m e

/-- The double nearest to `m * 2^e`. -/
def roundScaled (neg : Bool) (m : Nat) (e : Int) : Binary64 :=
  if 0 ≤ e then round neg (m * twoTo e.toNat) 1 else round neg m (twoTo (-e).toNat)

/-- The double nearest to a whole number, unless that is infinite. -/
def ofInt? (n : Int) : Option Binary64 :=
  match round (n < 0) n.natAbs 1 with
  | .infinite _ => none
  | d => some d

/-- The double nearest to `digits * 10^exponent`. Powers that no double reaches are not
computed. -/
def ofDecimal (neg : Bool) (digits : Nat) (exponent : Int) : Binary64 :=
  let places := Int.ofNat (Nat.toDigits 10 digits).length
  if digits == 0 || places + exponent < -330 then zero neg
  else if 310 < places + exponent then .infinite neg
  else if 0 ≤ exponent then round neg (digits * tenTo exponent.toNat) 1
  else round neg digits (tenTo (-exponent).toNat)

/-- The number with the other sign. -/
def negate : Binary64 → Binary64
  | .finite neg m e => .finite (!neg) m e
  | .infinite neg => .infinite (!neg)
  | .nan => .nan

/-- The signed whole number that a finite number is of `2^e`, for `e` at most its exponent. -/
def units (neg : Bool) (m : Nat) (shift : Nat) : Int :=
  let n := Int.ofNat (m * twoTo shift)
  if neg then -n else n

/-- The sum of two doubles. -/
def add : Binary64 → Binary64 → Binary64
  | .nan, _ => .nan
  | _, .nan => .nan
  | .infinite a, .infinite b => if a == b then .infinite a else .nan
  | .infinite a, _ => .infinite a
  | _, .infinite b => .infinite b
  | .finite a m e, .finite b n f =>
    let low := min e f
    let total := units a m (e - low).toNat + units b n (f - low).toNat
    if total == 0 then zero (a && b) else roundScaled (total < 0) total.natAbs low

/-- The product of two doubles. -/
def mul : Binary64 → Binary64 → Binary64
  | .nan, _ => .nan
  | _, .nan => .nan
  | .infinite a, .infinite b => .infinite (a != b)
  | .infinite a, .finite b n _ => if n == 0 then .nan else .infinite (a != b)
  | .finite a m _, .infinite b => if m == 0 then .nan else .infinite (a != b)
  | .finite a m e, .finite b n f => roundScaled (a != b) (m * n) (e + f)

/-- Whether the number is at most zero; not-a-number is not. -/
def isNonpositive : Binary64 → Bool
  | .finite neg m _ => neg || m == 0
  | .infinite neg => neg
  | .nan => false

end Binary64

end TemplateAudit.Number
