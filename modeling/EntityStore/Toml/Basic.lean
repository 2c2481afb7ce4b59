import EntityStore.Binary64

/-!
# TOML values and how tables grow

A TOML document spells its tables out in pieces: headers, dotted keys and
values in braces. What may still be added to a table depends on how it came
about, so every table keeps its `Origin`.

A header may define a table once, and may enter any table that is no value. A
dotted key may enter the tables that dotted keys made; it may pass through those
that headers only passed through, but not end there.
-/

namespace EntityStore

namespace Toml

/-- How a table came about. -/
inductive Origin where
  /-- Defined by a header. -/
  | header
  /-- A step on the way of a header. -/
  | passed
  /-- A step on the way of a dotted key. -/
  | dotted
  /-- A value in braces. -/
  | inline
deriving DecidableEq

end Toml

inductive Toml where
  | string (s : String)
  | integer (n : Int64)
  | float (x : Binary64)
  | boolean (b : Bool)
  /-- A date, a time or both, as written. -/
  | moment (text : String)
  | array (items : List Toml)
  | table (origin : Toml.Origin) (entries : List (String × Toml))
  /-- Tables defined one after another under one header, the last of them first. -/
  | tables (last : List (String × Toml)) (earlier : List (List (String × Toml)))

namespace Toml

/-- The entries of a table, each name once. -/
abbrev Entries := List (String × Toml)

/-- The entries with another value for a name that is there. -/
def replaceEntry (name : String) (v : Toml) (entries : Entries) : Entries :=
  entries.map fun e => if e.1 == name then (name, v) else e

/-- A key of a table: the names to pass, and the last name. -/
structure Key where
  path : List String
  name : String

def Key.names (k : Key) : List String := k.path ++ [k.name]

/-- The entries with a value at the end of a dotted key. The name has to be free. -/
def putDotted? (name : String) (v : Toml) : List String → Entries → Option Entries
  | [], entries => if entries.any (·.1 == name) then none else some (entries ++ [(name, v)])
  | step :: rest, entries =>
    match entries.lookup step with
    | none => do
      let inner ← putDotted? name v rest []
      return entries ++ [(step, .table .dotted inner)]
    | some (.table origin inner) =>
      if origin = .dotted ∨ (origin = .passed ∧ rest ≠ []) then do
        let inner ← putDotted? name v rest inner
        return replaceEntry step (.table origin inner) entries
      else none
    | some (.tables last earlier) =>
      if rest = [] then none
      else do
        let last ← putDotted? name v rest last
        return replaceEntry step (.tables last earlier) entries
    | some _ => none

/-- The entries with a change made in the table that a header leads to. -/
def atTable? (change : Entries → Option Entries) : List String → Entries → Option Entries
  | [], entries => change entries
  | step :: rest, entries =>
    match entries.lookup step with
    | none => do
      let inner ← atTable? change rest []
      return entries ++ [(step, .table .passed inner)]
    | some (.table origin inner) =>
      if origin = .inline then none
      else do
        let inner ← atTable? change rest inner
        return replaceEntry step (.table origin inner) entries
    | some (.tables last earlier) => do
      let last ← atTable? change rest last
      return replaceEntry step (.tables last earlier) entries
    | some _ => none

/-- The entries with a table defined under a name. -/
def define? (name : String) (entries : Entries) : Option Entries :=
  match entries.lookup name with
  | none => some (entries ++ [(name, .table .header [])])
  | some (.table .passed inner) => some (replaceEntry name (.table .header inner) entries)
  | some _ => none

/-- The entries with one more table defined under a name that tables share. -/
def defineAnother? (name : String) (entries : Entries) : Option Entries :=
  match entries.lookup name with
  | none => some (entries ++ [(name, .tables [] [])])
  | some (.tables last earlier) =>
    some (replaceEntry name (.tables [] (last :: earlier)) entries)
  | some _ => none

/-- The table in braces of the given entries. -/
def ofPairs? (pairs : List (Key × Toml)) : Option Toml := do
  let entries ← pairs.foldlM (fun entries p => putDotted? p.1.name p.2 p.1.path entries) []
  return .table .inline entries

/-! ## What a value says -/

def asString? : Toml → Option String
  | .string s => some s
  | _ => none

def asBool? : Toml → Option Bool
  | .boolean b => some b
  | _ => none

def asInt32? : Toml → Option Int32
  | .integer n =>
    if -0x80000000 ≤ n.toInt ∧ n.toInt < 0x80000000 then some (Int32.ofInt n.toInt) else none
  | _ => none

/-- The value of a name, or a default where the name is missing. -/
def withDefault? {α : Type} (entries : Entries) (name : String) (default : α)
    (item? : Toml → Option α) : Option α :=
  match entries.lookup name with
  | none => some default
  | some v => item? v

/-- The value of a name that may be missing. -/
def optional? {α : Type} (entries : Entries) (name : String) (item? : Toml → Option α) :
    Option (Option α) :=
  withDefault? entries name none fun v => (item? v).map some

end Toml

end EntityStore
