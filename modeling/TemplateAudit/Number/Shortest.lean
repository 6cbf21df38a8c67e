import TemplateAudit.Number.Binary64

/-!
# TemplateAudit.Number.Shortest

The decimal text of a double.

`shortest` finds the fewest digits that read back as the same double, and of the digit
strings of that length the one nearest to it: for one, two, … digits it tries the two
neighbours of the number on that decimal grid. `Layout` holds the decisions of a notation,
and `Layout.write` lays the digits out. `plainLayout` is the notation used in messages.
-/

namespace TemplateAudit.Number

/-- A decimal: its digits as a whole number, and the place of the point among them. -/
structure Decimal where
  digits : Nat
  /-- The power of ten that the first digit stands for. -/
  exponent : Int
  deriving DecidableEq, Repr

/-- The number of decimal digits. -/
def digitCount (n : Nat) : Nat := (Nat.toDigits 10 n).length

/-- The power of ten of the first digit of `num / den`, both above zero. -/
def leadingPower (num den : Nat) : Int :=
  if den ≤ num then Int.ofNat (digitCount (num / den)) - 1
  else -Int.ofNat (digitCount ((den - 1) / num))

/-- `num / den` in units of `10^p`, as a quotient. -/
def inUnitsOfTen (num den : Nat) (p : Int) : Nat × Nat :=
  if 0 ≤ p then (num, den * tenTo p.toNat) else (num * tenTo (-p).toNat, den)

/-- The decimal of `places` digits that reads back as the double `d = num / den` and is
nearest to it, if there is one. -/
def decimalOfLength? (d : Binary64) (num den places : Nat) : Option Decimal :=
  let top := leadingPower num den
  let unit := top - Int.ofNat places + 1
  let (n, q) := inUnitsOfTen num den unit
  let below := n / q
  let readsBack (x : Nat) : Bool := Binary64.ofDecimal false x unit == d
  let pick (x : Nat) : Decimal :=
    if x == tenTo places then { digits := x / 10, exponent := top + 1 }
    else { digits := x, exponent := top }
  match readsBack below, readsBack (below + 1) with
  | true, true =>
    let twice := 2 * (n % q)
    some (pick (if twice < q || (twice == q && below % 2 == 0) then below else below + 1))
  | true, false => some (pick below)
  | false, true => some (pick (below + 1))
  | false, false => none

/-- The first result among lengths `places, places + 1, …`, of which `fuel` are tried. -/
def shortestFrom (d : Binary64) (num den : Nat) : (fuel places : Nat) → Decimal
  | 0, _ => { digits := 0, exponent := 0 }
  | fuel + 1, places =>
    match decimalOfLength? d num den places with
    | some x => x
    | none => shortestFrom d num den fuel (places + 1)

/-- The fewest digits that read back as `m * 2^e`; seventeen always do. -/
def shortest (m : Nat) (e : Int) : Decimal :=
  if m == 0 then { digits := 0, exponent := 0 }
  else
    let (num, den) := if 0 ≤ e then (m * twoTo e.toNat, 1) else (m, twoTo (-e).toNat)
    shortestFrom (.finite false m e) num den 17 1

/-- The decisions of a decimal notation. -/
structure Layout where
  /-- The least power of ten of the first digit that is written without an exponent. -/
  lowest : Int
  /-- The largest such power. -/
  highest : Int
  /-- The fewest digits of an exponent. -/
  exponentPlaces : Nat

/-- Numbers from `0.0001` up to sixteen places before the point are written without an
exponent, and always with a point; an exponent has a sign and two digits at least. -/
def plainLayout : Layout := { lowest := -4, highest := 15, exponentPlaces := 2 }

/-- A row of digits without the zeros at its end, but never empty. -/
def dropZeros (ds : List Char) : List Char :=
  match (ds.reverse.dropWhile (· == '0')).reverse with
  | [] => ['0']
  | r => r

/-- The text of a decimal. -/
def Layout.write (l : Layout) (x : Decimal) : List Char :=
  let ds := dropZeros (Nat.toDigits 10 x.digits)
  if l.lowest ≤ x.exponent && x.exponent ≤ l.highest then
    if x.exponent < 0 then
      '0' :: '.' :: List.replicate ((-x.exponent).toNat - 1) '0' ++ ds
    else
      let whole := x.exponent.toNat + 1
      if ds.length ≤ whole then ds ++ List.replicate (whole - ds.length) '0' ++ ['.', '0']
      else ds.take whole ++ '.' :: ds.drop whole
  else
    let mantissa := match ds with
      | [] => []
      | [d] => [d]
      | d :: rest => d :: '.' :: rest
    let power := Nat.toDigits 10 x.exponent.natAbs
    mantissa ++ 'e' :: (if x.exponent < 0 then '-' else '+') ::
      (List.replicate (l.exponentPlaces - power.length) '0' ++ power)

/-- The text of a double. -/
def Binary64.text : Binary64 → String
  | .nan => "nan"
  | .infinite false => "inf"
  | .infinite true => "-inf"
  | .finite neg m e =>
    String.ofList ((if neg then ['-'] else []) ++ plainLayout.write (shortest m e))

end TemplateAudit.Number
