import EntityStore.MessagePack.Basic

/-!
# Reading MessagePack

A value is read from the front of the bytes and the rest is handed on. Arrays,
maps and extensions nest at most `deepest` times. Every read takes a bound on the number of
steps; twice the number of bytes is always enough, so `parse?` hides it.
-/

namespace EntityStore.Pack

/-- The first bytes, if there are so many, and the rest. -/
def take? (count : Nat) (bytes : Bytes) : Option (Bytes × Bytes) :=
  if count ≤ bytes.length then some (bytes.take count, bytes.drop count) else none

/-- The number in the first bytes, and the rest. -/
def number? (count : Nat) (bytes : Bytes) : Option (Nat × Bytes) :=
  (take? count bytes).map fun (b, rest) => (ofBigEndian b, rest)

/-- The number in the first bytes, the upper half of the range standing for negative numbers. -/
def signedNumber? (count : Nat) (bytes : Bytes) : Option (Int64 × Bytes) :=
  (number? count bytes).map fun (n, rest) =>
    let range := Nat.pow 256 count
    (Int64.ofInt (if 2 * n < range then n else (n : Int) - range), rest)

/-- A length in the first bytes, that many bytes, and the rest. -/
def counted? (width : Nat) (bytes : Bytes) : Option (Bytes × Bytes) :=
  (number? width bytes).bind fun (length, rest) => take? length rest

/-- An extension of the given length: its kind and its bytes. -/
def extension? (length : Nat) : Bytes → Option (Pack × Bytes)
  | [] => none
  | kind :: rest => (take? length rest).map fun (b, rest) => (.extension kind b, rest)

/-- The number of arrays, maps and extensions that may stand inside one another. -/
def deepest : Nat := 1023

/-- How a value goes on after its marker. -/
inductive Opening where
  /-- The value is complete. -/
  | whole (v : Pack)
  /-- An array of so many values follows. -/
  | array (count : Nat)
  /-- A map of so many entries follows. -/
  | map (count : Nat)

/-- A value that is complete, and the rest. -/
def whole (r : Option (Pack × Bytes)) : Option (Opening × Bytes) :=
  r.map fun (v, rest) => (.whole v, rest)

/-- What a marker below 0xC0 opens: a small number, map, array or text. -/
def smallOpening? (n : Nat) (rest : Bytes) : Option (Opening × Bytes) :=
  if n < 0x80 then some (.whole (.unsigned n.toUInt64), rest)
  else if n < 0x90 then some (.map (n - 0x80), rest)
  else if n < 0xA0 then some (.array (n - 0x90), rest)
  else whole ((take? (n - 0xA0) rest).map fun (b, rest) => (.text b, rest))

/-- What a marker below 0xCA opens: nil, a truth value, bytes or an extension. -/
def plainOpening? (n : Nat) (rest : Bytes) : Option (Opening × Bytes) :=
  if n = 0xC0 then some (.whole .nil, rest)
  else if n = 0xC1 then none
  else if n < 0xC4 then some (.whole (.bool (n == 0xC3)), rest)
  else if n < 0xC7 then
    whole ((counted? (Nat.pow 2 (n - 0xC4)) rest).map fun (b, rest) => (.binary b, rest))
  else
    whole ((number? (Nat.pow 2 (n - 0xC7)) rest).bind fun (length, rest) => extension? length rest)

/-- What a marker below 0xD9 opens: a number or an extension of fixed length. -/
def numberOpening? (n : Nat) (rest : Bytes) : Option (Opening × Bytes) :=
  if n = 0xCA then
    whole ((number? 4 rest).map fun (b, rest) => (.float (.ofBinary32 b.toUInt32), rest))
  else if n = 0xCB then
    whole ((number? 8 rest).map fun (b, rest) => (.float ⟨b.toUInt64⟩, rest))
  else if n < 0xD0 then
    whole ((number? (Nat.pow 2 (n - 0xCC)) rest).map fun (b, rest) => (.unsigned b.toUInt64, rest))
  else if n < 0xD4 then
    whole ((signedNumber? (Nat.pow 2 (n - 0xD0)) rest).map fun (i, rest) => (.signed i, rest))
  else whole (extension? (Nat.pow 2 (n - 0xD4)) rest)

/-- What a marker from 0xD9 on opens: a text, array or map of any length, or a small negative
number. -/
def longOpening? (n : Nat) (rest : Bytes) : Option (Opening × Bytes) :=
  if n < 0xDC then
    whole ((counted? (Nat.pow 2 (n - 0xD9)) rest).map fun (b, rest) => (.text b, rest))
  else if n < 0xDE then
    (number? (Nat.pow 2 (n - 0xDB)) rest).map fun (count, rest) => (.array count, rest)
  else if n < 0xE0 then
    (number? (Nat.pow 2 (n - 0xDD)) rest).map fun (count, rest) => (.map count, rest)
  else some (.whole (.signed (Int64.ofInt ((n : Int) - 256))), rest)

/-- What a marker opens, and the rest. -/
def opening? : Bytes → Option (Opening × Bytes)
  | [] => none
  | m :: rest =>
    if m < 0xC0 then smallOpening? m.toNat rest
    else if m < 0xCA then plainOpening? m.toNat rest
    else if m < 0xD9 then numberOpening? m.toNat rest
    else longOpening? m.toNat rest

mutual

/-- The value that bytes begin with, nesting at most to the given depth. -/
def value? : Nat → Nat → Bytes → Option (Pack × Bytes)
  | 0, _, _ => none
  | bound + 1, depth, bytes =>
    match opening? bytes with
    | none => none
    | some (.whole (.extension kind b), rest) =>
      if depth = 0 then none else some (.extension kind b, rest)
    | some (.whole v, rest) => some (v, rest)
    | some (.array count, rest) =>
      match depth with
      | 0 => none
      | depth + 1 => (items? bound depth count rest).map fun (items, rest) => (.array items, rest)
    | some (.map count, rest) =>
      match depth with
      | 0 => none
      | depth + 1 =>
        (entries? bound depth count rest).map fun (entries, rest) => (.map entries, rest)

def items? : Nat → Nat → Nat → Bytes → Option (List Pack × Bytes)
  | _, _, 0, bytes => some ([], bytes)
  | 0, _, _ + 1, _ => none
  | bound + 1, depth, count + 1, bytes =>
    match value? bound depth bytes with
    | none => none
    | some (v, rest) => (items? bound depth count rest).map fun (vs, rest) => (v :: vs, rest)

def entries? : Nat → Nat → Nat → Bytes → Option (List (Pack × Pack) × Bytes)
  | _, _, 0, bytes => some ([], bytes)
  | 0, _, _ + 1, _ => none
  | bound + 1, depth, count + 1, bytes =>
    match value? bound depth bytes with
    | none => none
    | some (k, rest) =>
      match value? bound depth rest with
      | none => none
      | some (v, rest) =>
        (entries? bound depth count rest).map fun (entries, rest) => ((k, v) :: entries, rest)

end

/-- The value that bytes begin with; what follows it does not matter. -/
def parse? (bytes : Bytes) : Option Pack :=
  (value? (2 * bytes.length + 1) deepest bytes).map Prod.fst

end EntityStore.Pack
