import EntityStore.Text.CaseTable

/-!
# Lowercase

Every capital becomes its lowercase. Two letters need more than a table. The
dotted capital I becomes an i and a dot above, two characters. The capital
sigma becomes a final sigma where it ends a word and a plain one elsewhere; it
ends a word when the nearest letter before it is cased and the nearest after it
is not, with apostrophes, marks and their like passed over.
-/

namespace EntityStore.Text

def capitalSigma : Char := Char.ofNat 0x3A3

/-- The lowercase sigma inside a word. -/
def smallSigma : Char := Char.ofNat 0x3C3

/-- The lowercase sigma at the end of a word. -/
def finalSigma : Char := Char.ofNat 0x3C2

/-- The lowercase of a character, whatever stands beside it. -/
def lowerChar (c : Char) : List Char :=
  if c.toNat = 0x130 then [Char.ofNat 0x69, Char.ofNat 0x307]
  else
    match capitals.find? (·.holds c.toNat) with
    | some r => [Char.ofNat (r.lower + (c.toNat - r.first))]
    | none => [c]

/-- Whether the nearest letter is cased. -/
def meetsCased (cs : List Char) : Bool :=
  match cs.dropWhile isCaseIgnorable with
  | [] => false
  | c :: _ => isCased c

/-- Whether a word ends between the characters before, nearest first, and those after. -/
def endsWord (before after : List Char) : Bool :=
  meetsCased before && !meetsCased after

/-- The lowercase of characters that follow the given ones, nearest first. -/
def lowerAfter (before : List Char) : List Char → List Char
  | [] => []
  | c :: rest =>
    (if c = capitalSigma then [if endsWord before rest then finalSigma else smallSigma]
      else lowerChar c) ++ lowerAfter (c :: before) rest

def lowercase (s : String) : String := String.ofList (lowerAfter [] s.toList)

end EntityStore.Text
