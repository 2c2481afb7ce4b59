/-!
# UTF-8

Text as bytes and back. A character takes one to four bytes by the size of its
code point. Reading refuses every sequence that no character is written as:
stray and missing continuation bytes, forms longer than needed, surrogates, and
code points past the last one.
-/

namespace EntityStore

/-- A sequence of bytes. -/
abbrev Bytes := List UInt8

namespace Utf8

def encodeChar (c : Char) : Bytes :=
  let n := c.toNat
  if n < 0x80 then [n.toUInt8]
  else if n < 0x800 then [(0xC0 + n / 0x40).toUInt8, (0x80 + n % 0x40).toUInt8]
  else if n < 0x10000 then
    [(0xE0 + n / 0x1000).toUInt8, (0x80 + n / 0x40 % 0x40).toUInt8, (0x80 + n % 0x40).toUInt8]
  else
    [(0xF0 + n / 0x40000).toUInt8, (0x80 + n / 0x1000 % 0x40).toUInt8,
      (0x80 + n / 0x40 % 0x40).toUInt8, (0x80 + n % 0x40).toUInt8]

def encode (s : String) : Bytes := s.toList.flatMap encodeChar

/-- Whether a byte continues a character. -/
def isTail (b : UInt8) : Bool := 0x80 ≤ b.toNat && b.toNat < 0xC0

/-- The six bits that a continuation byte carries. -/
def tailBits (b : UInt8) : Nat := b.toNat - 0x80

/-- A character of at least the given code point, if the number is one. -/
def charAtLeast? (least n : Nat) : Option Char :=
  if h : n.isValidChar then
    if least ≤ n then some (Char.ofNatAux n h) else none
  else none

/-- The characters that the bytes are written from, if they are UTF-8. -/
def decodeChars? : Bytes → Option (List Char)
  | [] => some []
  | a :: r₁ =>
    if a.toNat < 0x80 then
      (decodeChars? r₁).map (Char.ofNat a.toNat :: ·)
    else if a.toNat < 0xC0 then none
    else
      match r₁ with
      | [] => none
      | b :: r₂ =>
        if !isTail b then none
        else if a.toNat < 0xE0 then
          (charAtLeast? 0x80 ((a.toNat - 0xC0) * 0x40 + tailBits b)).bind fun c =>
            (decodeChars? r₂).map (c :: ·)
        else
          match r₂ with
          | [] => none
          | d :: r₃ =>
            if !isTail d then none
            else if a.toNat < 0xF0 then
              (charAtLeast? 0x800
                ((a.toNat - 0xE0) * 0x1000 + tailBits b * 0x40 + tailBits d)).bind fun c =>
                (decodeChars? r₃).map (c :: ·)
            else
              match r₃ with
              | [] => none
              | e :: r₄ =>
                if !isTail e then none
                else if a.toNat < 0xF8 then
                  (charAtLeast? 0x10000 ((a.toNat - 0xF0) * 0x40000 + tailBits b * 0x1000 +
                    tailBits d * 0x40 + tailBits e)).bind fun c =>
                    (decodeChars? r₄).map (c :: ·)
                else none

/-- The text that the bytes are written from, if they are UTF-8. -/
def decode? (bytes : Bytes) : Option String := (decodeChars? bytes).map String.ofList

end Utf8

end EntityStore
