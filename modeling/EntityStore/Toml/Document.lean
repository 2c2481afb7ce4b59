import EntityStore.Toml.Scalar

/-!
# TOML documents

A document is a sequence of expressions, one on a line: a header that names the
table to go on with, or a key with its value. Reading goes in two steps, from
characters to expressions and from expressions to the tree of tables.

A key has fewer than 80 names, and values are nested fewer than 80 deep; these
limits are also what bounds the recursion.
-/

namespace EntityStore.Toml

/-- One more than the names of a key, or the depth of a value, can be. -/
def limit : Nat := 80

/-! ## Keys -/

/-- Whether a character may stand in a name without quotes. -/
def isBareName (c : Char) : Bool :=
  isDecimal c || (0x41 ≤ c.toNat && c.toNat ≤ 0x5A) || (0x61 ≤ c.toNat && c.toNat ≤ 0x7A) ||
    c == '_' || c == '-'

/-- One name of a key. -/
def name? (cs : List Char) : Option (String × List Char) :=
  match cs with
  | '\x22' :: _ => lineText? cs
  | '\x27' :: _ => lineText? cs
  | _ =>
    let name := cs.takeWhile isBareName
    if name.isEmpty then none else some (String.ofList name, cs.dropWhile isBareName)

/-- A key of at most the given number of names, with the blanks around it. -/
def key? : Nat → Reader Key
  | 0, _ => none
  | room + 1, cs => do
    let (name, rest) ← name? (skipBlanks cs)
    match skipBlanks rest with
    | '.' :: rest =>
      let (key, rest) ← key? room rest
      return ({ key with path := name :: key.path }, rest)
    | rest => return (⟨[], name⟩, rest)

/-! ## Values -/

/-- The rest after a comment, up to the line end. -/
def afterComment (cs : List Char) : List Char :=
  match cs with
  | '#' :: rest => rest.dropWhile isPlain
  | _ => cs

/-- Characters after blanks, line ends and comments; the bound is on the number of steps. -/
def skipLines : Nat → List Char → List Char
  | 0, cs => cs
  | bound + 1, cs =>
    let rest := afterComment (skipBlanks cs)
    match lineEnd? rest with
    | some rest => skipLines bound rest
    | none => skipBlanks cs

/-- The values of an array up to its closing bracket; the bound is on their number. -/
def items? (value? : Reader Toml) : Nat → Reader (List Toml)
  | 0, _ => none
  | bound + 1, cs =>
    match skipLines cs.length cs with
    | ']' :: rest => some ([], rest)
    | cs => do
      let (v, rest) ← value? cs
      match skipLines rest.length rest with
      | ']' :: rest => return ([v], rest)
      | ',' :: rest =>
        let (more, rest) ← items? value? bound rest
        return (v :: more, rest)
      | _ => none

/-- A key and its value. -/
def pair? (value? : Reader Toml) : Reader (Key × Toml) := fun cs => do
  let (key, rest) ← key? (limit - 1) cs
  let (v, rest) ← value? (skipBlanks (← mark? '=' rest))
  return ((key, v), rest)

/-- The pairs of a table in braces up to its closing brace, of which one is left at least. -/
def pairs? (value? : Reader Toml) : Nat → Reader (List (Key × Toml))
  | 0, _ => none
  | bound + 1, cs => do
    let (p, rest) ← pair? value? cs
    match skipBlanks rest with
    | '\x7d' :: rest => return ([p], rest)
    | ',' :: rest =>
      let (more, rest) ← pairs? value? bound rest
      return (p :: more, rest)
    | _ => none

/-- A table in braces, after its opening brace. -/
def inlineTable? (value? : Reader Toml) : Reader Toml := fun cs =>
  match skipBlanks cs with
  | '\x7d' :: rest => some (.table .inline [], rest)
  | cs => do
    let (pairs, rest) ← pairs? value? cs.length cs
    return (← ofPairs? pairs, rest)

/-- A value that is nested in no more values than there is room for. -/
def value? : Nat → Reader Toml
  | room, '[' :: rest =>
    match room with
    | 0 => none
    | room + 1 => do
      let (items, rest) ← items? (value? room) (rest.length + 1) rest
      return (.array items, rest)
  | room, '\x7b' :: rest =>
    match room with
    | 0 => none
    | room + 1 => inlineTable? (value? room) rest
  | _, '\x22' :: rest => (text? ('\x22' :: rest)).map fun p => (.string p.1, p.2)
  | _, '\x27' :: rest => (text? ('\x27' :: rest)).map fun p => (.string p.1, p.2)
  | _, 't' :: 'r' :: 'u' :: 'e' :: rest => some (.boolean true, rest)
  | _, 'f' :: 'a' :: 'l' :: 's' :: 'e' :: rest => some (.boolean false, rest)
  | _, cs => scalar? cs

/-! ## Expressions -/

/-- What stands on a line. -/
inductive Expression where
  | table (key : Key)
  | anotherTable (key : Key)
  | pair (key : Key) (v : Toml)

/-- The rest after the blanks and the comment at the end of a line. -/
def afterLine? (cs : List Char) : Option (List Char) :=
  match afterComment (skipBlanks cs) with
  | [] => some []
  | cs => lineEnd? cs

def expression? : Reader Expression
  | '[' :: '[' :: rest => do
    let (key, rest) ← key? (limit - 1) rest
    let rest ← mark? ']' (← mark? ']' rest)
    return (.anotherTable key, rest)
  | '[' :: rest => do
    let (key, rest) ← key? (limit - 1) rest
    return (.table key, ← mark? ']' rest)
  | cs => do
    let ((key, v), rest) ← pair? (value? (limit - 1)) cs
    return (.pair key v, rest)

/-- The expressions of a document; the bound is on the number of its lines. -/
def expressions? : Nat → List Char → Option (List Expression)
  | 0, _ => none
  | bound + 1, cs =>
    match skipBlanks cs with
    | [] => some []
    | cs =>
      match afterLine? cs with
      | some rest => expressions? bound rest
      | none => do
        let (e, rest) ← expression? cs
        let more ← expressions? bound (← afterLine? rest)
        return e :: more

/-! ## The tree -/

/-- The tree so far, and the names that lead to the table to go on with. -/
structure Draft where
  root : Entries := []
  current : List String := []

/-- The draft after one more expression. -/
def Draft.add? (d : Draft) : Expression → Option Draft
  | .table key => do
    return ⟨← atTable? (define? key.name) key.path d.root, key.names⟩
  | .anotherTable key => do
    return ⟨← atTable? (defineAnother? key.name) key.path d.root, key.names⟩
  | .pair key v => do
    return { d with root := ← atTable? (putDotted? key.name v key.path) d.current d.root }

/-- The entries that expressions spell out. -/
def ofExpressions? (expressions : List Expression) : Option Entries :=
  (expressions.foldlM Draft.add? {}).map Draft.root

/-- The text without the mark of its byte order. -/
def withoutMark (cs : List Char) : List Char :=
  match cs with
  | '\uFEFF' :: rest => rest
  | _ => cs

def parse? (s : String) : Option Entries :=
  let cs := withoutMark s.toList
  (expressions? (cs.length + 1) cs).bind ofExpressions?

end EntityStore.Toml
