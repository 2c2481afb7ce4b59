import EntityStore.Codec.Zstd.Literals
import EntityStore.Codec.Zstd.Sequence

/-!
# Compressed blocks

A compressed block adds to the content of its frame: its literals, and between
them copies of content from before. What it leaves to later blocks are the
content, the tables that they may use again and the distances used last.
-/

namespace EntityStore.Zstd

/-- What blocks leave to those behind them. -/
structure Progress where
  content : Array UInt8 := #[]
  code : Option PrefixCode := none
  tables : Option (PerNumber StateTable) := none
  recent : Recent := {}

/-- Where a block may read and write. -/
structure Extent where
  /-- The first byte of the content that can still be copied. -/
  first : Nat
  /-- How large the content may become. -/
  stop : Nat

/-- Adds bytes one by one, each a copy of the one that lies a distance back, which may be one that
was added. -/
def copyBack (distance : Nat) : Nat → Array UInt8 → Array UInt8
  | 0, content => content
  | n + 1, content =>
    copyBack distance n (content.push (content.getD (content.size - distance) 0))

/-- Content with what a sequence adds, and the number of literals used up by then. -/
def Sequence.apply? (s : Sequence) (literals : Array UInt8) (extent : Extent)
    (done : Array UInt8 × Nat) : Option (Array UInt8 × Nat) :=
  let (content, used) := done
  let start := content.size + s.literals
  if literals.size < used + s.literals ∨ extent.stop < start + s.length ∨
      s.distance = 0 ∨ start < extent.first + s.distance then none
  else
    let content := content ++ literals.extract used (used + s.literals)
    some (copyBack s.distance s.length content, used + s.literals)

/-- Content with what sequences add, and then with the literals that are left. -/
def applyAll? (sequences : Array Sequence) (literals : Array UInt8) (extent : Extent)
    (content : Array UInt8) : Option (Array UInt8) := do
  let (content, used) ←
    sequences.foldlM (fun done s => s.apply? literals extent done) (content, 0)
  if extent.stop < content.size + (literals.size - used) then none
  else some (content ++ literals.extract used literals.size)

/-- What a compressed block of at most so many literals makes of the progress before it. -/
def Progress.compressed? (p : Progress) (limit : Nat) (extent : Extent) (block : Array UInt8) :
    Option Progress := do
  if block.size < 2 then none
  else
    let literals ← Literals.read? limit p.code block
    let sequences ← Sequences.read? p.tables p.recent (block.extract literals.size block.size)
    let content ← applyAll? sequences.sequences literals.bytes extent p.content
    some ⟨content, literals.code, sequences.tables, sequences.recent⟩

end EntityStore.Zstd
