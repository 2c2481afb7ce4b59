import EntityStore.Decimal.Digits
import EntityStore.Text.Utf8

/-!
# JSON values as they are written

A `Json` keeps what the written form says and judges nothing: a number is its
digits, so that its range is a question for whoever asks for its value, and a
text is its pieces, so that a text nobody asks for may hold half a surrogate
pair or bytes that are no UTF-8. `RawText.decode?` is where a text becomes a
`String`, or fails to.
-/

namespace EntityStore

open Decimal (Digit)

namespace Json

/-- A piece of a text: a byte, or a 16-bit unit written as a hexadecimal escape. -/
inductive Piece where
  | byte (b : UInt8)
  | unit (u : UInt16)
deriving DecidableEq

/-- A text as the pieces between its quotes. -/
abbrev RawText := List Piece

structure Exponent where
  negative : Bool
  digits : List Digit
deriving DecidableEq

/-- A number as written. An empty fraction is none. -/
structure Number where
  negative : Bool
  whole : List Digit
  fraction : List Digit
  exponent : Option Exponent
deriving DecidableEq

def isHighSurrogate (u : UInt16) : Bool := 0xD800 ≤ u.toNat && u.toNat < 0xDC00

def isLowSurrogate (u : UInt16) : Bool := 0xDC00 ≤ u.toNat && u.toNat < 0xE000

/-- The bytes that the pieces stand for; a unit that is half a pair needs its other half. -/
def RawText.bytes? : RawText → Option Bytes
  | [] => some []
  | .byte b :: rest => (bytes? rest).map (b :: ·)
  | .unit u :: rest =>
    if isHighSurrogate u then
      match rest with
      | .unit v :: rest =>
        if isLowSurrogate v then
          let n := 0x10000 + (u.toNat - 0xD800) * 0x400 + (v.toNat - 0xDC00)
          (bytes? rest).map (Utf8.encodeChar (Char.ofNat n) ++ ·)
        else none
      | _ => none
    else if isLowSurrogate u then none
    else (bytes? rest).map (Utf8.encodeChar (Char.ofNat u.toNat) ++ ·)

def RawText.decode? (t : RawText) : Option String := t.bytes?.bind Utf8.decode?

/-- A text as the pieces of its UTF-8. -/
def RawText.ofString (s : String) : RawText := (Utf8.encode s).map .byte

end Json

/-- A JSON value as it is written. -/
inductive Json where
  | null
  | bool (b : Bool)
  | number (n : Json.Number)
  | text (t : Json.RawText)
  | array (items : List Json)
  | object (members : List (Json.RawText × Json))

namespace Json

def string (s : String) : Json := .text (RawText.ofString s)

def nat (n : Nat) : Json := .number ⟨false, Decimal.digits n, [], none⟩

def int (n : Int) : Json := .number ⟨n < 0, Decimal.digits n.natAbs, [], none⟩

/-- An object with the given members, in their order. -/
def record (members : List (String × Json)) : Json :=
  .object (members.map fun m => (RawText.ofString m.1, m.2))

/-- A value or null. -/
def orNull {α : Type} (write : α → Json) : Option α → Json
  | none => .null
  | some a => write a

end Json

end EntityStore
