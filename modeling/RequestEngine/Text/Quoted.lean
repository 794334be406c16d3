/-
  RequestEngine.Text.Quoted

  Quoted text, as it stands inside messages: double quotes around the text,
  with short escapes for the quote, the backslash and four controls, and
  `\u{hex}` for every other character that has no visible form of its own or
  combines with its neighbour. Lists and optional values of quoted texts follow
  the same conventions.
-/
import RequestEngine.Text.CharClass

namespace RequestEngine.Text

/-- The code point escape of a character, in lower-case hexadecimal. -/
def codeEscape (c : Char) : List Char :=
  ['\\', 'u', '\x7b'] ++ Nat.toDigits 16 c.toNat ++ ['\x7d']

/-- How one character is written between the quotes. -/
def quoteChar (c : Char) : List Char :=
  match c with
  | '\x00' => ['\\', '0']
  | '\t' => ['\\', 't']
  | '\r' => ['\\', 'r']
  | '\n' => ['\\', 'n']
  | '"' => ['\\', '"']
  | '\\' => ['\\', '\\']
  | c =>
    if isCombining c.toNat || isInvisible c.toNat then codeEscape c else [c]

/-- A text between double quotes. -/
def quoted (s : String) : String :=
  String.ofList ('"' :: s.toList.flatMap quoteChar ++ ['"'])

/-- A list of quoted texts in brackets. -/
def quotedList (texts : List String) : String :=
  "[" ++ ", ".intercalate (texts.map quoted) ++ "]"

/-- An optional value in its constructor form. -/
def optional (render : α → String) : Option α → String
  | none => "None"
  | some a => "Some(" ++ render a ++ ")"

/-- A truth value in words. -/
def flag (b : Bool) : String :=
  if b then "true" else "false"

/-- A record in braces after its name: fields in order, each with its rendered value. -/
def record (name : String) (fields : List (String × String)) : String :=
  name ++ " \x7b " ++ ", ".intercalate (fields.map fun f => f.1 ++ ": " ++ f.2) ++ " \x7d"

end RequestEngine.Text
