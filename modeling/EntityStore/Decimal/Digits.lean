/-!
# Decimal digits

Natural numbers as lists of decimal digits, the first digit first, and back
(`value_digits`).
-/

namespace EntityStore.Decimal

abbrev Digit := Fin 10

def lastDigit (n : Nat) : Digit := ⟨n % 10, Nat.mod_lt n (by decide)⟩

/-- The digits of a number, at most one more than the given count. -/
def digitsWithin : Nat → Nat → List Digit
  | 0, n => [lastDigit n]
  | more + 1, n =>
    if n < 10 then [lastDigit n] else digitsWithin more (n / 10) ++ [lastDigit n]

/-- The digits of a number, without leading zeros; those of zero are one zero. -/
def digits (n : Nat) : List Digit := digitsWithin n n

/-- The number that digits stand for, after a number already read. -/
def valueFrom (read : Nat) (ds : List Digit) : Nat :=
  ds.foldl (fun n d => n * 10 + d.val) read

def value (ds : List Digit) : Nat := valueFrom 0 ds

def Digit.char (d : Digit) : Char := Char.ofNat (48 + d.val)

/-- The digit that a code point shows. -/
def Digit.ofCode? (n : Nat) : Option Digit :=
  if h : 48 ≤ n ∧ n < 58 then some ⟨n - 48, by omega⟩ else none

/-- The digits that a sequence begins with, and what follows them. -/
def leadingDigits {α : Type} (code : α → Nat) : List α → List Digit × List α
  | [] => ([], [])
  | a :: rest =>
    match Digit.ofCode? (code a) with
    | some d =>
      let (ds, after) := leadingDigits code rest
      (d :: ds, after)
    | none => ([], a :: rest)

def text (n : Nat) : String := String.ofList ((digits n).map Digit.char)

def intText (n : Int) : String := if n < 0 then "-" ++ text n.natAbs else text n.natAbs

/-- The digits of a text, if it holds at least one and nothing else. -/
def ofText? (cs : List Char) : Option (List Digit) :=
  if cs.isEmpty then none else cs.mapM fun c => Digit.ofCode? c.toNat

theorem valueFrom_append (read : Nat) (ds es : List Digit) :
    valueFrom read (ds ++ es) = valueFrom (valueFrom read ds) es := by
  simp [valueFrom]

theorem value_digitsWithin {more n : Nat} (h : n ≤ more) : value (digitsWithin more n) = n := by
  induction more generalizing n with
  | zero =>
    obtain rfl : n = 0 := by omega
    rfl
  | succ more ih =>
    rw [digitsWithin]
    split
    next hn => simp [value, valueFrom, lastDigit, Nat.mod_eq_of_lt hn]
    next hn =>
      rw [value, valueFrom_append]
      change valueFrom (value (digitsWithin more (n / 10))) [lastDigit n] = n
      rw [ih (by omega)]
      simp only [valueFrom, List.foldl, lastDigit]
      omega

/-- The digits of a number stand for it. -/
theorem value_digits (n : Nat) : value (digits n) = n := value_digitsWithin (Nat.le_refl n)

end EntityStore.Decimal
