/-
  RequestEngine.HostId

  Host ids: 128-bit numbers that identify the nodes of a cluster. They are
  written as 32 lower-case hexadecimal digits in groups of 8, 4, 4, 4 and 12,
  and read in any of the usual forms, where the case of letters never matters.
-/
import RequestEngine.Text.Digits

namespace RequestEngine

open Text

/-- The identity of a node. -/
structure HostId where
  value : Fin (Nat.pow 2 128)
  deriving DecidableEq, Repr

namespace HostId

instance : Inhabited HostId := ⟨⟨0, by decide⟩⟩

/-- The host id with a given number, if it has at most 128 bits. -/
def ofNat? (n : Nat) : Option HostId :=
  if h : n < Nat.pow 2 128 then some ⟨⟨n, h⟩⟩ else none

/-- The 32 hexadecimal digits of the id. -/
def digits (id : HostId) : List Char :=
  hexDigits 32 id.value

/-- The digits in groups of 8, 4, 4, 4 and 12, with hyphens between them. -/
def chars (id : HostId) : List Char :=
  let d := id.digits
  d.take 8 ++ ['-'] ++ (d.drop 8).take 4 ++ ['-'] ++ (d.drop 12).take 4 ++ ['-'] ++
    (d.drop 16).take 4 ++ ['-'] ++ d.drop 20

/-- The written form of the id. -/
def text (id : HostId) : String :=
  String.ofList id.chars

/-- Reads 32 digits, with or without the hyphens. -/
def ofDigits? (cs : List Char) : Option HostId :=
  let groups := splitAt '-' cs
  if groups.map List.length = [8, 4, 4, 4, 12] ∨ groups.map List.length = [32] then
    (number? hexValue? 16 groups.flatten).bind ofNat?
  else none

/-- What precedes the digits in the name form, in any mixture of cases. -/
def namespaceTag : List Char :=
  "urn:uuid:".toList

/-- Reads an id in plain, hyphenated, braced or name form. -/
def ofText? (s : String) : Option HostId :=
  let cs := s.toList
  if cs.length = 38 ∧ cs.head? = some '\x7b' ∧ cs.getLast? = some '\x7d' then
    ofDigits? ((cs.drop 1).dropLast)
  else if cs.length = 45 ∧ (cs.take 9).map Char.toLower = namespaceTag then ofDigits? (cs.drop 9)
  else ofDigits? cs

end HostId

end RequestEngine
