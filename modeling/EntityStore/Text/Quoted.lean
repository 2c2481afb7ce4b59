import EntityStore.Text.PrintTable

/-!
# Quoted text and shown records

How values are shown to a person who inspects the store. A text stands between
double quotes, with the quote, the backslash and the usual controls behind a
backslash and every character that shows no mark of its own as its code point.
A record is its name and its fields in braces.
-/

namespace EntityStore.Text

/-- A hexadecimal digit, small letters for ten to fifteen. -/
def hexDigit (n : Nat) : Char :=
  if n < 10 then Char.ofNat (48 + n) else Char.ofNat (87 + n)

/-- A number in hexadecimal, with at most the given number of digits and no leading zero. -/
def hexNumber : Nat → Nat → List Char
  | 0, _ => []
  | digits + 1, n =>
    if n < 16 then [hexDigit n] else hexNumber digits (n / 16) ++ [hexDigit (n % 16)]

/-- A character as its code point in hexadecimal. -/
def codePointEscape (c : Char) : List Char :=
  "\\u\x7b".toList ++ hexNumber 6 c.toNat ++ ['\x7d']

/-- A character as it stands in a quoted text. -/
def quotedChar (c : Char) : List Char :=
  if c.toNat = 0 then ['\\', '0']
  else if c = '\t' then ['\\', 't']
  else if c = '\r' then ['\\', 'r']
  else if c = '\n' then ['\\', 'n']
  else if c = '\\' then ['\\', '\\']
  else if c = '\x22' then ['\\', '\x22']
  else if isJoining c then codePointEscape c
  else if isPrintable c then [c]
  else codePointEscape c

def quoted (s : String) : String :=
  String.ofList ('\x22' :: s.toList.flatMap quotedChar ++ ['\x22'])

/-- A value that may be missing. -/
def shownOption {α : Type} (shown : α → String) : Option α → String
  | none => "None"
  | some a => "Some(" ++ shown a ++ ")"

def shownList {α : Type} (shown : α → String) (values : List α) : String :=
  "[" ++ ", ".intercalate (values.map shown) ++ "]"

def shownBool (b : Bool) : String := if b then "true" else "false"

/-- A record: its name, then its fields with their names. -/
def shownRecord (name : String) (fields : List (String × String)) : String :=
  name ++ " \x7b " ++ ", ".intercalate (fields.map fun f => f.1 ++ ": " ++ f.2) ++ " \x7d"

end EntityStore.Text
