import EntityStore.Ranked
import EntityStore.Text.Hex

/-!
# Universally unique identifiers

An identifier of 128 bits. It is written as 32 hexadecimal digits, plain or in
five groups with hyphens between them, and read from either; the groups may also
stand in braces or behind their formal name.
-/

namespace EntityStore

/-- An identifier of 128 bits. -/
structure Uuid where
  bits : BitVec 128
deriving DecidableEq

namespace Uuid

instance : Ranked Uuid :=
  Ranked.comap (fun u => u.bits.toNat) fun a b h => by
    cases a
    cases b
    simpa [BitVec.toNat_inj] using h

/-- The given number of hexadecimal digits of a number, leading zeros included. -/
def paddedHex : Nat → Nat → List Char
  | 0, _ => []
  | count + 1, n => Text.hexDigit (n / Nat.pow 16 count % 16) :: paddedHex count n

/-- The 32 digits. -/
def digits (u : Uuid) : List Char := paddedHex 32 u.bits.toNat

/-- The digits without hyphens. -/
def plain (u : Uuid) : String := String.ofList u.digits

/-- The digits without hyphens, in capital letters. -/
def plainCapital (u : Uuid) : String := String.ofList (u.digits.map Char.toUpper)

/-- Digits in groups of 8, 4, 4, 4 and 12 with hyphens between them. -/
def grouped (ds : List Char) : List Char :=
  ds.take 8 ++ '-' :: (ds.drop 8).take 4 ++ '-' :: (ds.drop 12).take 4 ++
    '-' :: (ds.drop 16).take 4 ++ '-' :: ds.drop 20

def hyphenated (u : Uuid) : String := String.ofList (grouped u.digits)

/-- The number that hexadecimal digits stand for. -/
def hexValue? (ds : List Char) : Option Nat :=
  ds.foldl (fun n d => do return (← n) * 16 + (← Hex.digit? d)) (some 0)

/-- The name that may stand before the groups, in small or capital letters. -/
def formalName : List Char := "urn:uuid:".toList

/-- The text without braces around it or the formal name before it. -/
def unwrapped (cs : List Char) : List Char :=
  match cs with
  | '\x7b' :: rest => if rest.getLast? = some '\x7d' then rest.dropLast else cs
  | _ => if formalName.isPrefixOf (cs.map Char.toLower) then cs.drop formalName.length else cs

def ofText? (s : String) : Option Uuid := do
  let cs := unwrapped s.toList
  let ds := cs.filter (· ≠ '-')
  if ds.length = 32 ∧ (s.toList = ds ∨ cs = grouped ds) then
    return ⟨BitVec.ofNat 128 (← hexValue? ds)⟩
  else none

/-- An identifier of the given number, with the marks of a random one: version 4, variant 1. -/
def version4 (n : Nat) : Uuid :=
  ⟨(BitVec.ofNat 128 n &&& ~~~(0xF#128 <<< 76) &&& ~~~(0x3#128 <<< 62)) |||
    (0x4#128 <<< 76) ||| (0x2#128 <<< 62)⟩

end Uuid

end EntityStore
