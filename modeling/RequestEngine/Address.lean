/-
  RequestEngine.Address

  Socket addresses, as nodes and connections have them. A version 4 host is
  written as four decimal octets; a version 6 host in brackets as hexadecimal
  groups, its longest run of at least two zero groups (the first of several)
  compressed to `::`, and with its last two groups as octets if it is a mapped
  version 4 host. A scope other than 0 follows the host after a percent sign.
-/
import RequestEngine.Text.Digits

namespace RequestEngine

open Text

/-- A host and a port. -/
inductive Address where
  | v4 (host : Vector UInt8 4) (port : UInt16)
  | v6 (host : Vector UInt16 8) (scope : UInt32) (port : UInt16)
  deriving DecidableEq, Repr

namespace Address

instance : Inhabited Address := ⟨.v4 (Vector.replicate 4 0) 0⟩

/-! ## Writing -/

/-- Four octets with points between them. -/
def octetText (octets : List Nat) : String :=
  ".".intercalate (octets.map toString)

/-- Hexadecimal groups with colons between them, without leading zeros. -/
def groupText (groups : List Nat) : String :=
  ":".intercalate (groups.map fun g => String.ofList (Nat.toDigits 16 g))

/-- The number of zeros that a list of groups starts with. -/
def zeroRun (groups : List Nat) : Nat :=
  (groups.takeWhile (· == 0)).length

/-- Start and length of the longest run of zero groups, the first of several. -/
def longestZeroRun (groups : List Nat) : Nat × Nat :=
  (List.range groups.length).foldl
    (fun best start =>
      let run := zeroRun (groups.drop start)
      if best.2 < run then (start, run) else best)
    (0, 0)

/-- The host part of a version 6 address. -/
def hostText (groups : List Nat) : String :=
  match groups with
  | [0, 0, 0, 0, 0, 0xffff, g, h] =>
    "::ffff:" ++ octetText [g / 256, g % 256, h / 256, h % 256]
  | groups =>
    let (start, run) := longestZeroRun groups
    if 2 ≤ run then
      groupText (groups.take start) ++ "::" ++ groupText (groups.drop (start + run))
    else groupText groups

/-- The written form of an address. -/
def text : Address → String
  | v4 host port => octetText (host.toList.map UInt8.toNat) ++ ":" ++ toString port.toNat
  | v6 host scope port =>
    let scopeText := if scope = 0 then "" else "%" ++ toString scope.toNat
    "[" ++ hostText (host.toList.map UInt16.toNat) ++ scopeText ++ "]:" ++ toString port.toNat

/-! ## Reading -/

/-- A decimal number below a bound. -/
def decimalBelow? (bound : Nat) (cs : List Char) : Option Nat :=
  (number? decimalValue? 10 cs).filter (· < bound)

/-- An octet: at most three digits, without leading zeros. -/
def octet? (cs : List Char) : Option Nat :=
  if cs.length ≤ 3 ∧ (cs.length ≤ 1 ∨ cs.head? ≠ some '0') then decimalBelow? 256 cs else none

/-- Four octets. -/
def octets? (cs : List Char) : Option (List Nat) :=
  let parts := splitAt '.' cs
  if parts.length = 4 then parts.mapM octet? else none

/-- One group: one to four hexadecimal digits. -/
def group? (cs : List Char) : Option Nat :=
  if cs.length ≤ 4 then number? hexValue? 16 cs else none

/-- A list of groups of which the last may be a version 4 host, counting as two. -/
def groups? (parts : List (List Char)) : Option (List Nat) :=
  match parts.reverse with
  | [] => some []
  | last :: rest =>
    match octets? last with
    | some [a, b, c, d] => do
      let front ← rest.reverse.mapM group?
      return front ++ [a * 256 + b, c * 256 + d]
    | _ => parts.mapM group?

/-- Splits at the first `::`, if there is one. -/
def splitGap : List Char → Option (List Char × List Char)
  | ':' :: ':' :: rest => some ([], rest)
  | c :: rest => (splitGap rest).map fun (front, back) => (c :: front, back)
  | [] => none

/-- The eight groups of a version 6 host. -/
def host6? (cs : List Char) : Option (Vector UInt16 8) := do
  let pieces (part : List Char) := if part.isEmpty then [] else splitAt ':' part
  let groups ←
    match splitGap cs with
    | some (front, back) => do
      let front ← (pieces front).mapM group?
      let back ← groups? (pieces back)
      if front.length + back.length < 8 then
        some (front ++ List.replicate (8 - front.length - back.length) 0 ++ back)
      else none
    | none => groups? (pieces cs)
  let words := (groups.map UInt16.ofNat).toArray
  if h : words.size = 8 then some ⟨words, h⟩ else none

/-- The four octets of a version 4 host. -/
def host4? (cs : List Char) : Option (Vector UInt8 4) := do
  let octets := ((← octets? cs).map UInt8.ofNat).toArray
  if h : octets.size = 4 then some ⟨octets, h⟩ else none

/-- Splits a text around the last colon. -/
def splitPort (cs : List Char) : Option (List Char × List Char) :=
  let back := cs.reverse
  match back.dropWhile (· ≠ ':') with
  | _ :: front => some (front.reverse, (back.takeWhile (· ≠ ':')).reverse)
  | [] => none

/-- Reads an address in its written form. -/
def ofText? (s : String) : Option Address := do
  let (host, portText) ← splitPort s.toList
  let port := UInt16.ofNat (← decimalBelow? 65536 portText)
  match host with
  | '[' :: inner =>
    if inner.getLast? ≠ some ']' then none
    else
      let inner := inner.dropLast
      let name := inner.takeWhile (· ≠ '%')
      let scope ←
        match inner.dropWhile (· ≠ '%') with
        | _ :: digits => decimalBelow? (Nat.pow 2 32) digits
        | [] => some 0
      return v6 (← host6? name) (UInt32.ofNat scope) port
  | _ => return v4 (← host4? host) port

end Address

end RequestEngine
