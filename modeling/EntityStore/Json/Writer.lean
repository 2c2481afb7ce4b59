import EntityStore.Json.Basic
import EntityStore.Decimal.Shortest
import EntityStore.Text.Quoted

/-!
# Writing JSON

Values are written without blanks. In a text the quote, the backslash and the
controls are escaped, the usual ones by a letter and the others by four
hexadecimal digits; every other byte stands for itself.

A floating-point value is its shortest decimal. It stands with a point as long
as the point falls among its digits or close before or behind them
(`layout`), and otherwise with an exponent, which always shows its sign. What is
no number is null.
-/

namespace EntityStore.Json

open Decimal (Digit)

/-- A hexadecimal digit as a byte. -/
def hexByte (n : Nat) : UInt8 := (Text.hexDigit n).toNat.toUInt8

/-- A byte as it stands in a text. -/
def escapeByte (b : UInt8) : Bytes :=
  if b == 0x22 then [0x5C, 0x22]
  else if b == 0x5C then [0x5C, 0x5C]
  else if b == 0x08 then [0x5C, 0x62]
  else if b == 0x0C then [0x5C, 0x66]
  else if b == 0x0A then [0x5C, 0x6E]
  else if b == 0x0D then [0x5C, 0x72]
  else if b == 0x09 then [0x5C, 0x74]
  else if b < 0x20 then
    [0x5C, 0x75, 0x30, 0x30, hexByte (b.toNat / 0x10), hexByte (b.toNat % 0x10)]
  else [b]

def renderPiece : Piece → Bytes
  | .byte b => escapeByte b
  | .unit u =>
    let n := u.toNat
    [0x5C, 0x75, hexByte (n / 0x1000), hexByte (n / 0x100 % 0x10), hexByte (n / 0x10 % 0x10),
      hexByte (n % 0x10)]

def renderText (t : RawText) : Bytes := 0x22 :: t.flatMap renderPiece ++ [0x22]

def renderDigits (ds : List Digit) : Bytes := ds.map fun d => (48 + d.val).toUInt8

def renderNumber (n : Number) : Bytes :=
  (if n.negative then [0x2D] else []) ++ renderDigits n.whole ++
    (if n.fraction.isEmpty then [] else 0x2E :: renderDigits n.fraction) ++
    match n.exponent with
    | none => []
    | some e => 0x65 :: (if e.negative then 0x2D else 0x2B) :: renderDigits e.digits

mutual

/-- A value without blanks. -/
def render : Json → Bytes
  | .null => Utf8.encode "null"
  | .bool b => Utf8.encode (if b then "true" else "false")
  | .number n => renderNumber n
  | .text t => renderText t
  | .array items => 0x5B :: renderItems items
  | .object members => 0x7B :: renderMembers members

/-- The elements of an array and its closing bracket. -/
def renderItems : List Json → Bytes
  | [] => [0x5D]
  | v :: rest => render v ++ renderMoreItems rest

/-- The elements after the first and the closing bracket. -/
def renderMoreItems : List Json → Bytes
  | [] => [0x5D]
  | v :: rest => 0x2C :: (render v ++ renderMoreItems rest)

/-- The members of an object and its closing brace. -/
def renderMembers : List (RawText × Json) → Bytes
  | [] => [0x7D]
  | (name, v) :: rest => renderText name ++ 0x3A :: (render v ++ renderMoreMembers rest)

/-- The members after the first and the closing brace. -/
def renderMoreMembers : List (RawText × Json) → Bytes
  | [] => [0x7D]
  | (name, v) :: rest =>
    0x2C :: (renderText name ++ 0x3A :: (render v ++ renderMoreMembers rest))

end

def compact (v : Json) : String := (Utf8.decode? v.render).getD ""

/-! ## Floating-point values -/

/-- The number of places a point may stand behind the first digit before an exponent is used. -/
def mostPlacesBefore : Int := 16

/-- One more than the number of zeros that may stand between the point and the first digit. -/
def mostPlacesAfter : Int := 5

/-- The number that digits with a point at the given place stand for: as many places behind the
point's left end as the place says. -/
def layout (negative : Bool) (ds : List Digit) (exponent : Int) : Number :=
  let point : Int := ds.length + exponent
  if 0 ≤ exponent ∧ point ≤ mostPlacesBefore then
    ⟨negative, ds ++ List.replicate exponent.toNat 0, [0], none⟩
  else if 0 < point ∧ point ≤ mostPlacesBefore then
    ⟨negative, ds.take point.toNat, ds.drop point.toNat, none⟩
  else if -mostPlacesAfter < point ∧ point ≤ 0 then
    ⟨negative, [0], List.replicate (-point).toNat 0 ++ ds, none⟩
  else
    ⟨negative, ds.take 1, ds.drop 1,
      some ⟨point - 1 < 0, Decimal.digits (point - 1).natAbs⟩⟩

/-- A floating-point value: its shortest decimal, or null when it is no number. -/
def float (x : Binary64) : Json :=
  if x.isFinite then
    let s := Decimal.shortest x
    .number (layout x.negative (Decimal.digits s.significand) s.exponent)
  else .null

end EntityStore.Json
