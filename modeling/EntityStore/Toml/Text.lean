import EntityStore.Text.Hex

/-!
# Texts in TOML

A text stands between double quotes, with escapes, or between single quotes,
without. Three quotes on either side let it run over several lines: a line end
right behind the opening is dropped, one behind a backslash is dropped with the
blanks and line ends that follow, and one or two quotes may stand anywhere, also
before the closing three. A line end of two characters counts as one.
-/

namespace EntityStore.Toml

/-- Reads something from the front of characters and hands on the rest. -/
abbrev Reader (α : Type) := List Char → Option (α × List Char)

def isBlank (c : Char) : Bool := c == ' ' || c == '\t'

def skipBlanks (cs : List Char) : List Char := cs.dropWhile isBlank

/-- Whether a character may stand for itself in a text or a comment. -/
def isPlain (c : Char) : Bool := c == '\t' || (0x20 ≤ c.toNat && c.toNat != 0x7F)

/-- The rest after a line end. -/
def lineEnd? : List Char → Option (List Char)
  | '\n' :: rest => some rest
  | '\r' :: '\n' :: rest => some rest
  | _ => none

/-- The character that hexadecimal digits stand for. -/
def codePoint? (ds : List Char) : Option Char := do
  let digits ← ds.mapM Hex.digit?
  let n := digits.foldl (fun n d => n * 16 + d) 0
  if h : n.isValidChar then some (Char.ofNatAux n h) else none

/-- The character that a letter after a backslash stands for. -/
def shortEscape? (c : Char) : Option Char :=
  if c = 'b' then some '\x08'
  else if c = 't' then some '\t'
  else if c = 'n' then some '\n'
  else if c = 'f' then some '\x0c'
  else if c = 'r' then some '\r'
  else if c = '\x22' then some '\x22'
  else if c = '\\' then some '\\'
  else none

/-- A character before what is read from the rest. -/
def andThen (c : Char) (r : Option (List Char × List Char)) : Option (List Char × List Char) :=
  r.map fun p => (c :: p.1, p.2)

/-- The text of one line up to its closing double quote. -/
def basicLine? : Reader (List Char)
  | [] => none
  | '\x22' :: rest => some ([], rest)
  | '\\' :: 'u' :: a :: b :: c :: d :: rest => do
    andThen (← codePoint? [a, b, c, d]) (basicLine? rest)
  | '\\' :: 'U' :: a :: b :: c :: d :: e :: f :: g :: h :: rest => do
    andThen (← codePoint? [a, b, c, d, e, f, g, h]) (basicLine? rest)
  | '\\' :: c :: rest => do andThen (← shortEscape? c) (basicLine? rest)
  | c :: rest => if isPlain c && c != '\\' then andThen c (basicLine? rest) else none

/-- The text of one line up to its closing single quote. -/
def literalLine? : Reader (List Char)
  | [] => none
  | '\x27' :: rest => some ([], rest)
  | c :: rest => if isPlain c then andThen c (literalLine? rest) else none

/-- The quotes that stand before the closing three, two at most, and the rest. -/
def quotesBeforeEnd (quote : Char) : List Char → List Char × List Char
  | [] => ([], [])
  | [c] => if c = quote then ([quote], []) else ([], [c])
  | c :: d :: rest =>
    if c = quote then if d = quote then ([quote, quote], rest) else ([quote], d :: rest)
    else ([], c :: d :: rest)

/-- The text of several lines up to its three closing double quotes. Behind a backslash at the end
of a line, blanks and line ends are passed over. -/
def basicLines? (skipping : Bool) : Reader (List Char)
  | [] => none
  | '\x22' :: '\x22' :: '\x22' :: rest => some (quotesBeforeEnd '\x22' rest)
  | '\r' :: '\n' :: rest =>
    if skipping then basicLines? true rest else andThen '\n' (basicLines? false rest)
  | '\n' :: rest =>
    if skipping then basicLines? true rest else andThen '\n' (basicLines? false rest)
  | '\\' :: 'u' :: a :: b :: c :: d :: rest => do
    andThen (← codePoint? [a, b, c, d]) (basicLines? false rest)
  | '\\' :: 'U' :: a :: b :: c :: d :: e :: f :: g :: h :: rest => do
    andThen (← codePoint? [a, b, c, d, e, f, g, h]) (basicLines? false rest)
  | '\\' :: c :: rest =>
    if (lineEnd? (skipBlanks (c :: rest))).isSome then basicLines? true (c :: rest)
    else do andThen (← shortEscape? c) (basicLines? false rest)
  | c :: rest =>
    if skipping && isBlank c then basicLines? true rest
    else if isPlain c && c != '\\' then andThen c (basicLines? false rest)
    else none

/-- The text of several lines up to its three closing single quotes. -/
def literalLines? : Reader (List Char)
  | [] => none
  | '\x27' :: '\x27' :: '\x27' :: rest => some (quotesBeforeEnd '\x27' rest)
  | '\r' :: '\n' :: rest => andThen '\n' (literalLines? rest)
  | '\n' :: rest => andThen '\n' (literalLines? rest)
  | c :: rest => if isPlain c then andThen c (literalLines? rest) else none

/-- Characters after the line end that they may begin with. -/
def afterLineEnd (cs : List Char) : List Char := (lineEnd? cs).getD cs

def lineText? : Reader String
  | '\x22' :: rest => (basicLine? rest).map fun p => (String.ofList p.1, p.2)
  | '\x27' :: rest => (literalLine? rest).map fun p => (String.ofList p.1, p.2)
  | _ => none

/-- A text of one line or several. -/
def text? : Reader String
  | '\x22' :: '\x22' :: '\x22' :: rest =>
    (basicLines? false (afterLineEnd rest)).map fun p => (String.ofList p.1, p.2)
  | '\x27' :: '\x27' :: '\x27' :: rest =>
    (literalLines? (afterLineEnd rest)).map fun p => (String.ofList p.1, p.2)
  | cs => lineText? cs

end EntityStore.Toml
