import EntityStore.Codec.Basic

/-!
# Codecs that are metered and made to fail

A codec wrapped so that its readings are counted, that it refuses to write
bytes holding a forbidden sequence, and that it stops reading for good after a
number of readings. Whoever wants to know how a store takes a failing codec
gives it one of these.
-/

namespace EntityStore

/-- What a metered codec keeps from call to call. -/
structure Meter where
  /-- How often a reading was asked for. -/
  decodes : Nat := 0

/-- How a metered codec fails. -/
structure Faults where
  /-- A sequence that must not be written. -/
  poison : Option Bytes := none
  /-- The number of readings after which all fail. -/
  decodeLimit : Option Nat := none

namespace Codec

/-- Whether one sequence of bytes stands somewhere in another. -/
def occursIn (part : Bytes) : Bytes → Bool
  | [] => part.isEmpty
  | b :: rest => part.isPrefixOf (b :: rest) || occursIn part rest

/-- A codec with its readings counted and with faults. -/
def metered (inner : Codec Meter) (faults : Faults) : Codec Meter where
  id := inner.id
  encode bytes m :=
    if faults.poison.any (occursIn · bytes) then (.error (.encode "injected poison"), m)
    else inner.encode bytes m
  decode bytes m :=
    let m := { m with decodes := m.decodes + 1 }
    if faults.decodeLimit.any (· < m.decodes) then (.error (.decode "injected exhaustion"), m)
    else inner.decode bytes m

end Codec

end EntityStore
