import EntityStore.Json.Number
import EntityStore.SortedMap

/-!
# What a JSON value says

Readers from JSON values to typed ones. A record is an object, with its members
in any order and unknown ones passed over, or an array of its members in order;
a known member stands once at most. A whole number has no point and no
exponent. A choice among names is one of the names, or an object with the name
as its only member and null for its value.
-/

namespace EntityStore.Json

def asString? : Json → Option String
  | .text t => t.decode?
  | _ => none

def asBool? : Json → Option Bool
  | .bool b => some b
  | _ => none

def asInt? : Json → Option Int
  | .number n =>
    match n.value? with
    | some (.natural n) => some n.toNat
    | some (.negative n) => some n.toInt
    | _ => none
  | _ => none

/-- The whole number that a value is, if it is in the given range. -/
def asIntIn? (low high : Int) (v : Json) : Option Int :=
  v.asInt?.bind fun n => if low ≤ n ∧ n ≤ high then some n else none

def asUInt64? (v : Json) : Option UInt64 :=
  (v.asIntIn? 0 0xFFFFFFFFFFFFFFFF).map fun n => n.toNat.toUInt64

def asInt64? (v : Json) : Option Int64 :=
  (v.asIntIn? (-0x8000000000000000) 0x7FFFFFFFFFFFFFFF).map Int64.ofInt

def asInt32? (v : Json) : Option Int32 :=
  (v.asIntIn? (-0x80000000) 0x7FFFFFFF).map Int32.ofInt

/-- The floating-point value that a value is; whole numbers are rounded. -/
def asBinary64? : Json → Option Binary64
  | .number n =>
    match n.value? with
    | some (.natural n) => some (Binary64.ofNat n.toNat)
    | some (.negative n) => some (Binary64.ofInt n.toInt)
    | some (.real x) => some x
    | none => none
  | _ => none

def asList? {α : Type} (item? : Json → Option α) : Json → Option (List α)
  | .array items => items.mapM item?
  | _ => none

def asPair? {α β : Type} (first? : Json → Option α) (second? : Json → Option β) :
    Json → Option (α × β)
  | .array [a, b] => do return (← first? a, ← second? b)
  | _ => none

/-- A value that may be null. -/
def asOption? {α : Type} (item? : Json → Option α) : Json → Option (Option α)
  | .null => some none
  | v => (item? v).map some

/-- The name that a choice among names is. -/
def asName? : Json → Option String
  | .text t => t.decode?
  | .object [(name, .null)] => name.decode?
  | _ => none

/-- The map from texts that a value is; of two members with one name the later counts. -/
def asMap? {α : Type} (item? : Json → Option α) : Json → Option (SortedMap String α)
  | .object members => do
    let entries ← members.mapM fun m => do return (← m.1.decode?, ← item? m.2)
    return SortedMap.ofList entries
  | _ => none

/-! ## Records -/

/-- The members of a record by name, and whether they were named or listed in order. -/
structure Record where
  named : Bool
  members : List (String × Json)

/-- Whether no name but unknown ones stands twice. -/
def knownOnce (known : List String) (names : List String) : Bool :=
  known.all fun name => names.count name ≤ 1

/-- The record that a value is, with members of the given names. -/
def asRecord? (known : List String) : Json → Option Record
  | .object members => do
    let members ← members.mapM fun m => do return (← m.1.decode?, m.2)
    if knownOnce known (members.map Prod.fst) then some ⟨true, members⟩ else none
  | .array items =>
    if items.length ≤ known.length then some ⟨false, known.zip items⟩ else none
  | _ => none

def Record.get? (r : Record) (name : String) : Option Json := r.members.lookup name

/-- A member that has to be there. -/
def Record.required? {α : Type} (r : Record) (name : String) (item? : Json → Option α) : Option α :=
  (r.get? name).bind item?

/-- A member that has a value when it is not there. -/
def Record.withDefault? {α : Type} (r : Record) (name : String) (default : α)
    (item? : Json → Option α) : Option α :=
  match r.get? name with
  | none => some default
  | some v => item? v

/-- A member that may be null, or missing. -/
def Record.optional? {α : Type} (r : Record) (name : String) (item? : Json → Option α) :
    Option (Option α) :=
  r.withDefault? name none (asOption? item?)

/-- A member that may be null, and missing where members are named. -/
def Record.nullable? {α : Type} (r : Record) (name : String) (item? : Json → Option α) :
    Option (Option α) :=
  match r.get? name with
  | none => if r.named then some none else none
  | some v => asOption? item? v

end EntityStore.Json
