import EntityStore.Codec.Zstd.PrefixCode

/-!
# The literals of a block

A compressed block begins with the bytes that it does not copy from earlier
content. They stand as they are, are one byte over and over, or are written in a
prefix code, which is given with them or is that of an earlier block.
-/

namespace EntityStore.Zstd

structure Literals where
  bytes : Array UInt8
  /-- The code that a later block can refer to. -/
  code : Option PrefixCode
  /-- How many bytes of the block they take. -/
  size : Nat

namespace Literals

/-- Literals in a code that are written in one row or in four. Of four rows, the sizes of the first
three stand in front, and each but the last holds a quarter of the literals, rounded up. -/
def decode? (code : PrefixCode) (inFour : Bool) (count : Nat) (bytes : Array UInt8) :
    Option (Array UInt8) := do
  if inFour then
    if count < 6 ∨ bytes.size < 10 then none
    else
      let quarter := (count + 3) / 4
      let one := 6 + bitsAt bytes 0 16
      let two := one + bitsAt bytes 16 16
      let three := two + bitsAt bytes 32 16
      let out ← code.decode? quarter (← BitStack.ofBytes? (bytes.extract 6 one)) #[]
      let out ← code.decode? quarter (← BitStack.ofBytes? (bytes.extract one two)) out
      let out ← code.decode? quarter (← BitStack.ofBytes? (bytes.extract two three)) out
      code.decode? (count - 3 * quarter)
        (← BitStack.ofBytes? (bytes.extract three bytes.size)) out
  else code.decode? count (← BitStack.ofBytes? bytes) #[]

/-- Literals in a code behind their header, which says how many they are and how many bytes they
take with the code. -/
def coded? (limit : Nat) (earlier : Option PrefixCode) (block : Array UInt8) : Option Literals := do
  let form := bitsAt block 2 2
  let header := if form < 2 then 3 else form + 2
  let width := if form < 2 then 10 else 4 * form + 6
  let count := bitsAt block 4 width
  let stop := header + bitsAt block (4 + width) width
  if block.size < 5 ∨ limit < count ∨ block.size < stop then none
  else
    let part := block.extract header stop
    let (code, used) ←
      if bitsAt block 0 2 = 2 then PrefixCode.read? part else earlier.map fun code => (code, 0)
    let bytes ← decode? code (form ≠ 0) count (part.extract used part.size)
    some ⟨bytes, some code, stop⟩

/-- The literals of a block of which there may be only so many. -/
def read? (limit : Nat) (earlier : Option PrefixCode) (block : Array UInt8) : Option Literals :=
  let kind := bitsAt block 0 2
  if 2 ≤ kind then coded? limit earlier block
  else
    let form := bitsAt block 2 2
    let header := if form % 2 = 0 then 1 else (form + 3) / 2
    let count := if form % 2 = 0 then bitsAt block 3 5 else bitsAt block 4 (4 * form + 8)
    let stop := if kind = 0 then header + count else header + 1
    if limit < count ∨ block.size < stop then none
    else if kind = 0 then some ⟨block.extract header stop, earlier, stop⟩
    else some ⟨Array.replicate count (block.getD header 0), earlier, stop⟩

end Literals

end EntityStore.Zstd
