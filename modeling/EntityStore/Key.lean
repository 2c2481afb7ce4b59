import EntityStore.Decimal.Digits
import EntityStore.Text.Quoted
import EntityStore.Uuid

/-!
# Keys

A store asks little of a key: an order, so that contents are listed the same
way each time, and a text, so that it can be shown. Keys are texts, whole
numbers of four widths, or unique identifiers.
-/

namespace EntityStore

/-- A type whose values can be keys of entities. -/
class EntityKey (κ : Type) extends Ranked κ where
  /-- A key as the id of its entity. -/
  text : κ → String
  /-- A key as it is shown to a person who inspects the store. -/
  shown : κ → String
  /-- The key that a text stands for. -/
  ofText? : String → Option κ

namespace EntityKey

/-- The natural number that a text stands for: digits after an optional plus sign. -/
def natOfText? (s : String) : Option Nat :=
  match s.toList with
  | '+' :: ds => (Decimal.ofText? ds).map Decimal.value
  | ds => (Decimal.ofText? ds).map Decimal.value

/-- The whole number that a text stands for: digits after an optional sign. -/
def intOfText? (s : String) : Option Int :=
  match s.toList with
  | '-' :: ds => (Decimal.ofText? ds).map fun ds => -(Decimal.value ds : Int)
  | _ => (natOfText? s).map Int.ofNat

def natOfTextUpTo? (high : Nat) (s : String) : Option Nat :=
  (natOfText? s).filter (· ≤ high)

/-- The whole number that a text stands for, if it is in the given range. -/
def intOfTextIn? (low high : Int) (s : String) : Option Int :=
  (intOfText? s).filter fun n => low ≤ n ∧ n ≤ high

instance : EntityKey String where
  text s := s
  shown := Text.quoted
  ofText? := some

instance : Ranked Int32 := Ranked.comap Int32.toInt fun _ _ => Int32.toInt_inj.1

instance : Ranked Int64 := Ranked.comap Int64.toInt fun _ _ => Int64.toInt_inj.1

instance : Ranked UInt32 := Ranked.comap UInt32.toNat fun _ _ => UInt32.toNat_inj.1

instance : Ranked UInt64 := Ranked.comap UInt64.toNat fun _ _ => UInt64.toNat_inj.1

instance : EntityKey Int32 where
  text n := Decimal.intText n.toInt
  shown n := Decimal.intText n.toInt
  ofText? s := (intOfTextIn? (-0x80000000) 0x7FFFFFFF s).map Int32.ofInt

instance : EntityKey Int64 where
  text n := Decimal.intText n.toInt
  shown n := Decimal.intText n.toInt
  ofText? s := (intOfTextIn? (-0x8000000000000000) 0x7FFFFFFFFFFFFFFF s).map Int64.ofInt

instance : EntityKey UInt32 where
  text n := Decimal.text n.toNat
  shown n := Decimal.text n.toNat
  ofText? s := (natOfTextUpTo? 0xFFFFFFFF s).map Nat.toUInt32

instance : EntityKey UInt64 where
  text n := Decimal.text n.toNat
  shown n := Decimal.text n.toNat
  ofText? s := (natOfTextUpTo? 0xFFFFFFFFFFFFFFFF s).map Nat.toUInt64

instance : EntityKey Uuid where
  text := Uuid.plain
  shown := Uuid.hyphenated
  ofText? := Uuid.ofText?

end EntityKey

end EntityStore
