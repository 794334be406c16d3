/-
  RequestEngine.Text.Shortest

  The shortest decimal that reads back as a given double, in exact natural
  number arithmetic. A finite double is `significand * 2 ^ exponent`; the reals
  that round to it form an interval around it, ends included exactly when the
  significand is even. For 1, 2, ... 17 digits the two neighbours of the value
  on that decimal grid are tried; the first grid with a hit wins, and of two
  hits the nearer one, or the upper one where both are equally near.
-/

namespace RequestEngine.Text

/-- A non-negative decimal: `digits * 10 ^ exponent`. -/
structure Decimal where
  digits : Nat
  exponent : Int
  deriving DecidableEq, Repr

namespace Decimal

/-- Drops trailing zeros of the digits, raising the exponent; `fuel` bounds their number. -/
def strip (fuel : Nat) (d : Decimal) : Decimal :=
  match fuel with
  | 0 => d
  | fuel + 1 =>
    if d.digits ≠ 0 ∧ d.digits % 10 = 0 then
      strip fuel ⟨d.digits / 10, d.exponent + 1⟩
    else d

/-- The digits in text. -/
def digitText (d : Decimal) : List Char :=
  Nat.toDigits 10 d.digits

end Decimal

/-- A positive fraction, with the fractions at which rounding leaves it for a neighbour;
    `closed` tells whether those ends still round to it. -/
structure RoundingInterval where
  value : Nat
  low : Nat
  high : Nat
  denominator : Nat
  closed : Bool

namespace RoundingInterval

/-- The interval of the double `significand * 2 ^ exponent`. The gap below a power of two is
    half the gap above it, except at the least exponent. -/
def ofDouble (significand : Nat) (exponent : Int) (narrow : Bool) : RoundingInterval :=
  let value := 4 * significand
  let low := if narrow then value - 1 else value - 2
  let high := value + 2
  let scale := exponent - 2
  let closed := significand % 2 = 0
  if 0 ≤ scale then
    let f := Nat.pow 2 scale.toNat
    ⟨value * f, low * f, high * f, 1, closed⟩
  else
    ⟨value, low, high, Nat.pow 2 (-scale).toNat, closed⟩

/-- Whether the fraction `num / den` rounds to the value. -/
def contains (r : RoundingInterval) (num den : Nat) : Bool :=
  let x := num * r.denominator
  let lo := r.low * den
  let hi := r.high * den
  if r.closed then lo ≤ x && x ≤ hi else lo < x && x < hi

/-- The place of the leading digit: the `k` with `10 ^ (k - 1) ≤ value < 10 ^ k`. -/
def leadingPlace (r : RoundingInterval) : Int :=
  let whole := r.value / r.denominator
  if whole ≠ 0 then ((Nat.toDigits 10 whole).length : Int)
  else
    match (List.range 400).find? fun j => r.denominator ≤ r.value * Nat.pow 10 j with
    | some j => 1 - (j : Int)
    | none => 0

/-- The grid point of `n` digits that rounds to the value and lies nearest to it, if one of the
    two neighbours of the value does. Halfway between them the upper one is taken. -/
def onGrid (r : RoundingInterval) (place : Int) (n : Nat) : Option Decimal :=
  let unit := place - (n : Int)
  let up := Nat.pow 10 unit.toNat
  let down := Nat.pow 10 (-unit).toNat
  let d : Nat := r.value * down / (r.denominator * up)
  let below := r.contains (d * up) down
  let above := r.contains ((d + 1) * up) down
  let twice := 2 * r.value * down
  let middle := (2 * d + 1) * up * r.denominator
  if below && above then
    if twice < middle then some ⟨d, unit⟩ else some ⟨d + 1, unit⟩
  else if below then some ⟨d, unit⟩
  else if above then some ⟨d + 1, unit⟩
  else none

/-- The shortest decimal that rounds to the value. -/
def shortest (r : RoundingInterval) : Decimal :=
  let place := r.leadingPlace
  match ((List.range 17).map (· + 1)).findSome? (r.onGrid place) with
  | some d => d.strip 20
  | none => ⟨0, 0⟩

end RoundingInterval

/-! ## Doubles -/

/-- The shortest decimal of the magnitude of a finite double. -/
def shortestDecimal (x : Float) : Decimal :=
  let bits : Nat := x.toBits.toNat % Nat.pow 2 63
  let fraction : Nat := bits % Nat.pow 2 52
  let biased : Nat := bits / Nat.pow 2 52
  if bits = 0 then ⟨0, 0⟩
  else if biased = 0 then (RoundingInterval.ofDouble fraction (-1074) false).shortest
  else
    (RoundingInterval.ofDouble (Nat.pow 2 52 + fraction) ((biased : Int) - 1075)
      (fraction = 0 && biased ≠ 1)).shortest

/-- Where a float's text changes from positional to scientific notation: positional from
    `10 ^ leastPlace` to below `10 ^ endPlace`. -/
structure FloatFormat where
  leastPlace : Int
  endPlace : Int

/-- Digits with a point after the first `whole` of them, and at least one digit after it. -/
def positional (digits : List Char) (exponent : Int) : List Char :=
  let place := (digits.length : Int) + exponent
  if 0 ≤ exponent then digits ++ List.replicate exponent.toNat '0' ++ ['.', '0']
  else if 0 < place then digits.take place.toNat ++ ['.'] ++ digits.drop place.toNat
  else ['0', '.'] ++ List.replicate (-place).toNat '0' ++ digits

/-- One digit, the others after a point if there are any, and the power of ten. -/
def scientific (digits : List Char) (exponent : Int) : List Char :=
  let power := (digits.length : Int) + exponent - 1
  let tail := digits.drop 1
  let fraction := if tail.isEmpty then [] else '.' :: tail
  let powerText :=
    if power < 0 then '-' :: Nat.toDigits 10 power.natAbs else Nat.toDigits 10 power.natAbs
  digits.take 1 ++ fraction ++ ['e'] ++ powerText

/-- The text of a double in a given format. -/
def FloatFormat.text (format : FloatFormat) (x : Float) : String :=
  if x.isNaN then "NaN"
  else
    let negative := Nat.pow 2 63 ≤ x.toBits.toNat
    let sign := if negative then ['-'] else []
    if x.isInf then String.ofList (sign ++ ['i', 'n', 'f'])
    else
      let d := shortestDecimal x
      let digits := d.digitText
      let place := (digits.length : Int) + d.exponent - 1
      let body :=
        if d.digits = 0 ∨ (format.leastPlace ≤ place ∧ place < format.endPlace) then
          positional digits d.exponent
        else scientific digits d.exponent
      String.ofList (sign ++ body)

end RequestEngine.Text
