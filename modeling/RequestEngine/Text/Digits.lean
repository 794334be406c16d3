/-
  RequestEngine.Text.Digits

  Reading digits of a base, bytes and decimal numbers from characters, and
  writing hexadecimal of a fixed width.
-/

namespace RequestEngine.Text

/-- The value of a hexadecimal digit of either case. -/
def hexValue? (c : Char) : Option Nat :=
  if '0' ≤ c && c ≤ '9' then some (c.toNat - 48)
  else if 'a' ≤ c && c ≤ 'f' then some (c.toNat - 87)
  else if 'A' ≤ c && c ≤ 'F' then some (c.toNat - 55)
  else none

/-- The value of a decimal digit. -/
def decimalValue? (c : Char) : Option Nat :=
  if '0' ≤ c && c ≤ '9' then some (c.toNat - 48) else none

/-- The number that a non-empty list of digits of `base` writes. -/
def number? (digit : Char → Option Nat) (base : Nat) (cs : List Char) : Option Nat :=
  if cs.isEmpty then none
  else cs.foldlM (fun n c => (digit c).map fun d => n * base + d) 0

/-- The bytes that pairs of hexadecimal digits write. -/
def hexBytes? : List Char → Option (List UInt8)
  | [] => some []
  | [_] => none
  | high :: low :: rest => do
    let byte ← number? hexValue? 16 [high, low]
    return UInt8.ofNat byte :: (← hexBytes? rest)

/-- The number that a decimal text writes: digits, perhaps with a sign, a fraction and an
    exponent. Zero keeps its sign. -/
def readFloat (s : String) : Float :=
  let isNegative := s.toList.head? == some '-'
  let cs := if isNegative then s.toList.drop 1 else s.toList
  let whole := cs.takeWhile Char.isDigit
  let rest := cs.dropWhile Char.isDigit
  let isPointed := rest.head? == some '.'
  let fraction := if isPointed then (rest.drop 1).takeWhile Char.isDigit else []
  let rest := rest.drop (if isPointed then 1 + fraction.length else 0)
  let power := ((String.ofList ((rest.drop 1).filter (· ≠ '+'))).toInt?).getD 0
  let scale := power - fraction.length
  let digits := (number? decimalValue? 10 (whole ++ fraction)).getD 0
  let x := Float.ofScientific digits (scale < 0) scale.natAbs
  if isNegative then -x else x

/-- The lowest `width` hexadecimal digits of a number, leading zeros included. -/
def hexDigits : Nat → Nat → List Char
  | 0, _ => []
  | width + 1, n => hexDigits width (n / 16) ++ [Nat.digitChar (n % 16)]

theorem length_hexDigits (width n : Nat) : (hexDigits width n).length = width := by
  induction width generalizing n with
  | zero => rfl
  | succ width ih => simp [hexDigits, ih]

/-- Splits at every occurrence of a separator. -/
def splitAt (sep : Char) (cs : List Char) : List (List Char) :=
  cs.foldr
    (fun c acc =>
      if c = sep then [] :: acc
      else match acc with
        | [] => [[c]]
        | first :: rest => (c :: first) :: rest)
    [[]]

end RequestEngine.Text
