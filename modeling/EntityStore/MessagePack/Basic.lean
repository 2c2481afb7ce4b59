import EntityStore.Binary64
import EntityStore.Text.Utf8

/-!
# MessagePack values

A `Pack` is a value as its markers say it. Whole numbers keep the family of
their marker, for a signed one is no index of a member even when it is not
negative. Text keeps its bytes: whether they are UTF-8 is asked by whoever
wants a `String`.
-/

namespace EntityStore

/-- A MessagePack value. -/
inductive Pack where
  | nil
  | bool (b : Bool)
  | unsigned (n : UInt64)
  | signed (n : Int64)
  | float (x : Binary64)
  | text (bytes : Bytes)
  | binary (bytes : Bytes)
  | array (items : List Pack)
  | map (entries : List (Pack × Pack))
  | extension (kind : UInt8) (bytes : Bytes)

namespace Pack

def string (s : String) : Pack := .text (Utf8.encode s)

/-- A whole number; one that is not negative is of the unsigned family. -/
def int (n : Int64) : Pack :=
  if 0 ≤ n.toInt then .unsigned n.toInt.toNat.toUInt64 else .signed n

/-- A value or nil. -/
def orNil {α : Type} (write : α → Pack) : Option α → Pack
  | none => .nil
  | some a => write a

def record (members : List (String × Pack)) : Pack :=
  .map (members.map fun m => (string m.1, m.2))

/-- A number as the given count of bytes, the highest first. -/
def bigEndian : Nat → Nat → Bytes
  | 0, _ => []
  | count + 1, n => (n / Nat.pow 256 count % 256).toUInt8 :: bigEndian count n

/-- The number that bytes stand for, the highest first. -/
def ofBigEndian (bytes : Bytes) : Nat := bytes.foldl (fun n b => n * 256 + b.toNat) 0

end Pack

end EntityStore
