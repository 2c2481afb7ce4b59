import EntityStore.Text.Quoted
import EntityStore.Text.Utf8

/-!
# Writing TOML

A document of names and values is written with a line for each. The text of a
value is quoted in the plainest of five ways that can hold it (`quoted`):
double quotes without an escape but for tabs, then single quotes, then three
double quotes, then three single quotes, and if none of them does, double
quotes with escapes.
-/

namespace EntityStore.Toml

/-! ## What a text holds -/

/-- Whether a character has to be escaped wherever it stands. -/
def needsEscape (c : Char) : Bool :=
  (c.toNat < 0x20 && c != '\t' && c != '\n') || c.toNat == 0x7F

/-- Whether more quotes than the given number stand in a row, after some that were passed. -/
def quotesExceed (quote : Char) (most : Nat) : Nat → List Char → Bool
  | passed, [] => most < passed
  | passed, c :: rest =>
    if c = quote then quotesExceed quote most (passed + 1) rest
    else most < passed || quotesExceed quote most 0 rest

/-! ## Writing a text -/

/-- A character as the escape of its code point. -/
def codePointEscape (c : Char) : List Char :=
  '\\' :: 'u' :: '0' :: '0' :: [c.toNat / 16, c.toNat % 16].map fun n => (Text.hexDigit n).toUpper

/-- A character as it stands between double quotes, other than a quote. -/
def escapedChar (c : Char) : List Char :=
  if c = '\x08' then ['\\', 'b']
  else if c = '\t' then ['\\', 't']
  else if c = '\n' then ['\\', 'n']
  else if c = '\x0c' then ['\\', 'f']
  else if c = '\r' then ['\\', 'r']
  else if c = '\\' then ['\\', '\\']
  else if needsEscape c then codePointEscape c
  else [c]

/-- The characters of a text between double quotes. -/
def basicChars : List Char → List Char
  | [] => []
  | c :: rest => (if c = '\x22' then ['\\', '\x22'] else escapedChar c) ++ basicChars rest

/-- The characters of a text between three double quotes, after some quotes in a row. The third
quote of a row is escaped. -/
def basicLinesChars : Nat → List Char → List Char
  | _, [] => []
  | passed, c :: rest =>
    if c = '\x22' then
      if passed = 2 then '\\' :: '\x22' :: basicLinesChars 0 rest
      else '\x22' :: basicLinesChars (passed + 1) rest
    else (if c = '\n' then ['\n'] else escapedChar c) ++ basicLinesChars 0 rest

def basic (cs : List Char) : List Char := '\x22' :: basicChars cs ++ ['\x22']

def literal (cs : List Char) : List Char := '\x27' :: cs ++ ['\x27']

/-- A text between three quotes on either side; one that holds a line end begins on its own
line. -/
def betweenThree (quote : Char) (cs written : List Char) : List Char :=
  let quotes := [quote, quote, quote]
  quotes ++ (if cs.contains '\n' then ['\n'] else []) ++ written ++ quotes

def basicLines (cs : List Char) : List Char := betweenThree '\x22' cs (basicLinesChars 0 cs)

def literalLines (cs : List Char) : List Char := betweenThree '\x27' cs cs

/-- A text in the plainest quotes that can hold it. -/
def quotedChars (cs : List Char) : List Char :=
  let hasControl := cs.any needsEscape
  let hasBackslash := cs.contains '\\'
  let hasLineEnd := cs.contains '\n'
  if !hasControl && !hasBackslash && !hasLineEnd && !quotesExceed '\x22' 0 0 cs then basic cs
  else if !hasControl && !hasLineEnd && !quotesExceed '\x27' 0 0 cs then literal cs
  else if !hasControl && !hasBackslash && !quotesExceed '\x22' 2 0 cs then basicLines cs
  else if !hasControl && !quotesExceed '\x27' 2 0 cs then literalLines cs
  else if hasLineEnd then basicLines cs
  else basic cs

def quoted (s : String) : String := String.ofList (quotedChars s.toList)

/-- A document with a line for each name and the text of its value. -/
def lines (entries : List (String × String)) : String :=
  String.join (entries.map fun e => e.1 ++ " = " ++ e.2 ++ "\n")

end EntityStore.Toml
