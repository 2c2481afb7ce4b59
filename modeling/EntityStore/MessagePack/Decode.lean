import EntityStore.MessagePack.Basic

/-!
# What a MessagePack value says

Readers from MessagePack values to typed ones. Text may stand as bytes, and
bytes stand for the list of their numbers where a list is wanted. A record is a
map from names, which may also stand as bytes or as the index of the member, or
a list of all its members in order; unknown names are passed over, and a known
one stands once at most.
-/

namespace EntityStore.Pack

def asString? : Pack → Option String
  | .text b => Utf8.decode? b
  | .binary b => Utf8.decode? b
  | _ => none

def asInt64? : Pack → Option Int64
  | .unsigned n => if n.toNat < 0x8000000000000000 then some (Int64.ofInt n.toNat) else none
  | .signed n => some n
  | _ => none

/-- The floating-point value that a value is; whole numbers are rounded. -/
def asBinary64? : Pack → Option Binary64
  | .unsigned n => some (Binary64.ofNat n.toNat)
  | .signed n => some (Binary64.ofInt n.toInt)
  | .float x => some x
  | _ => none

/-- The values that a value lists: the elements of an array, or bytes as numbers. -/
def listed? : Pack → Option (List Pack)
  | .array items => some items
  | .binary b => some (b.map fun n => .unsigned n.toUInt64)
  | _ => none

def asList? {α : Type} (item? : Pack → Option α) (v : Pack) : Option (List α) :=
  v.listed?.bind fun items => items.mapM item?

def asPair? {α β : Type} (first? : Pack → Option α) (second? : Pack → Option β) (v : Pack) :
    Option (α × β) :=
  match v.listed? with
  | some [a, b] => do return (← first? a, ← second? b)
  | _ => none

/-- A value that may be nil. -/
def asOption? {α : Type} (item? : Pack → Option α) : Pack → Option (Option α)
  | .nil => some none
  | v => (item? v).map some

/-! ## Records -/

/-- A member of a record by its index, or none when its name is unknown. A value that names no
member at all is refused. -/
def memberIndex? (known : List String) : Pack → Option (Option Nat)
  | .text b => some (known.findIdx? fun name => Utf8.encode name == b)
  | .binary b => some (known.findIdx? fun name => Utf8.encode name == b)
  | .unsigned n => some (if n.toNat < known.length then some n.toNat else none)
  | _ => none

/-- The members of a record by index, and whether they were named or listed in order. -/
structure Record where
  named : Bool
  members : List (Nat × Pack)

/-- The record that a value is, with members of the given names. -/
def asRecord? (known : List String) : Pack → Option Record
  | .map entries => do
    let members ← entries.mapM fun e => do return (← memberIndex? known e.1, e.2)
    let members := members.filterMap fun m => m.1.map fun i => (i, m.2)
    let indices := members.map Prod.fst
    if indices.all fun i => indices.count i ≤ 1 then some ⟨true, members⟩ else none
  | v =>
    match v.listed? with
    | some items =>
      if items.length = known.length then some ⟨false, (List.range known.length).zip items⟩
      else none
    | none => none

/-- A member that has to be there. -/
def Record.required? {α : Type} (r : Record) (index : Nat) (item? : Pack → Option α) : Option α :=
  (r.members.lookup index).bind item?

/-- A member that may be nil, and missing where members are named. -/
def Record.nullable? {α : Type} (r : Record) (index : Nat) (item? : Pack → Option α) :
    Option (Option α) :=
  match r.members.lookup index with
  | none => if r.named then some none else none
  | some v => asOption? item? v

end EntityStore.Pack
