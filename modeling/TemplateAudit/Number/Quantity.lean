import TemplateAudit.Number.Shortest

/-!
# TemplateAudit.Number.Quantity

Numbers as they are given: whole numbers, doubles, and truth values that stand for 0 and 1, mixed
freely. A comparison is exact whatever the two sides are.

Readings of a clock and lengths of time are added, and a sum with a double in it is a double. So
they are numbers that a double can be made of, and `Seconds` says so: a whole number beyond all
doubles can be compared with others but is no time.
-/

namespace TemplateAudit.Number

/-- A number of any kind. -/
inductive Quantity
  | whole (n : Int)
  | real (d : Binary64)
  | flag (b : Bool)
  deriving DecidableEq, Repr, Inhabited

/-- A finite double against a whole number, both scaled by the denominator of the double. -/
def Binary64.compareInt (neg : Bool) (m : Nat) (e : Int) (n : Int) : Ordering :=
  if 0 ≤ e then compare (Binary64.units neg m e.toNat) n
  else compare (Binary64.units neg m 0) (n * Int.ofNat (twoTo (-e).toNat))

/-- The whole number that a double is. -/
def Binary64.toInt? : Binary64 → Option Int
  | .finite neg m e =>
    if 0 ≤ e then some (units neg m e.toNat)
    else if m % twoTo (-e).toNat == 0 then some (units neg (m / twoTo (-e).toNat) 0)
    else none
  | _ => none

/-- Two doubles in order; none of the two may be not-a-number. -/
def Binary64.compare? : Binary64 → Binary64 → Option Ordering
  | .nan, _ => none
  | _, .nan => none
  | .infinite a, .infinite b => some (if a == b then .eq else if a then .lt else .gt)
  | .infinite a, _ => some (if a then .lt else .gt)
  | _, .infinite b => some (if b then .gt else .lt)
  | .finite a m e, .finite b n f =>
    let low := min e f
    some (compare (units a m (e - low).toNat) (units b n (f - low).toNat))

/-- The whole number that a truth value stands for. -/
def flagInt (b : Bool) : Int := if b then 1 else 0

/-- A double against a whole number. -/
def Binary64.compareInt? (d : Binary64) (n : Int) : Option Ordering :=
  match d with
  | .nan => none
  | .infinite neg => some (if neg then .lt else .gt)
  | .finite neg m e => some (Binary64.compareInt neg m e n)

/-- The whole number or the double that a number is. -/
def Quantity.plain : Quantity → Int ⊕ Binary64
  | .whole n => .inl n
  | .real d => .inr d
  | .flag b => .inl (flagInt b)

/-- Two numbers in order; not-a-number has no place in it. -/
def Quantity.compare? (a b : Quantity) : Option Ordering :=
  match a.plain, b.plain with
  | .inl m, .inl n => some (compare m n)
  | .inr d, .inl n => d.compareInt? n
  | .inl n, .inr d => (d.compareInt? n).map Ordering.swap
  | .inr d, .inr e => d.compare? e

/-- The first number is not below the second. -/
def Quantity.reached (now limit : Quantity) : Bool :=
  match now.compare? limit with
  | some .gt => true
  | some .eq => true
  | _ => false

/-- A number as a double, unless it is too large for one. -/
def Quantity.binary64? (q : Quantity) : Option Binary64 :=
  match q.plain with
  | .inl n => Binary64.ofInt? n
  | .inr d => some d

/-- Whether a number is at most zero. -/
def Quantity.isNonpositive (q : Quantity) : Bool :=
  match q.plain with
  | .inl n => n ≤ 0
  | .inr d => d.isNonpositive

/-- A number as text. -/
def Quantity.text : Quantity → String
  | .whole n => toString n
  | .real d => d.text
  | .flag b => if b then "True" else "False"

/-! ## Times -/

/-- A reading of a clock or a length of time: a number that is not too large for a double. -/
structure Seconds where
  quantity : Quantity
  fits : quantity.binary64?.isSome

namespace Seconds

/-- A whole number of seconds. -/
def whole (n : Int) (h : (Binary64.ofInt? n).isSome := by decide) : Seconds :=
  { quantity := .whole n, fits := h }

/-- A double as a number of seconds. -/
def real (d : Binary64) : Seconds := { quantity := .real d, fits := rfl }

/-- A number of seconds as a double. -/
def binary64 (s : Seconds) : Binary64 := s.quantity.binary64?.get s.fits

/-- The time that is a length of time after another one. -/
def after (time length : Seconds) : Quantity :=
  match time.quantity.plain, length.quantity.plain with
  | .inl m, .inl n => .whole (m + n)
  | _, _ => .real (time.binary64.add length.binary64)

end Seconds

end TemplateAudit.Number
