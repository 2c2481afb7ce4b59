import EntityStore.Text.Utf8

/-!
# Base 64

Three bytes as four characters of a 64-character alphabet. A shorter last group
is filled up with equals signs.
-/

namespace EntityStore.Base64

/-- The character of a value below 64. -/
def symbol (n : Nat) : Char :=
  if n < 26 then Char.ofNat (65 + n)
  else if n < 52 then Char.ofNat (71 + n)
  else if n < 62 then Char.ofNat (n - 4)
  else if n = 62 then '+'
  else '/'

def encodeChars : Bytes → List Char
  | [] => []
  | [a] =>
    let n := a.toNat * 0x10
    [symbol (n / 0x40), symbol (n % 0x40), '=', '=']
  | [a, b] =>
    let n := (a.toNat * 0x100 + b.toNat) * 4
    [symbol (n / 0x1000), symbol (n / 0x40 % 0x40), symbol (n % 0x40), '=']
  | a :: b :: c :: rest =>
    let n := a.toNat * 0x10000 + b.toNat * 0x100 + c.toNat
    symbol (n / 0x40000) :: symbol (n / 0x1000 % 0x40) :: symbol (n / 0x40 % 0x40) ::
      symbol (n % 0x40) :: encodeChars rest

/-- Bytes in base 64. -/
def encode (bytes : Bytes) : String := String.ofList (encodeChars bytes)

end EntityStore.Base64
