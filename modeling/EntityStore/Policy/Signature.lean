import EntityStore.Digest.Base64
import EntityStore.Digest.Sha256
import EntityStore.Text.Quoted

/-!
# Signature policies

A signature is a text made from an entity and its version token when the
entity is stored, and made again when it is read: if the two differ, what is
stored is no longer what was signed. The usual signature is the text of some
fields, with the token behind it if the policy says so, and any signature can be
replaced by its digest.
-/

namespace EntityStore

/-- How entities are signed and signatures checked. -/
structure SignaturePolicy (ε : Type) where
  /-- The signature of an entity with a version token. -/
  sign : ε → Option String → String
  /-- Whether a signature is accepted for an entity with a version token. -/
  accepts : ε → Option String → String → Bool

namespace SignaturePolicy

/-- The policy that accepts exactly the signature it would make. -/
def ofSign {ε : Type} (sign : ε → Option String → String) : SignaturePolicy ε where
  sign
  accepts e version signature := sign e version == signature

/-- The policy whose signatures are the digests of those of another. -/
def hashed {ε : Type} (p : SignaturePolicy ε) : SignaturePolicy ε :=
  ofSign fun e version => Base64.encode (Sha256.digest (Utf8.encode (p.sign e version)))

/-- A policy hashed the given number of times. -/
def hashedTimes {ε : Type} : Nat → SignaturePolicy ε → SignaturePolicy ε
  | 0, p => p
  | n + 1, p => hashedTimes n p.hashed

end SignaturePolicy

/-- A signature from the text of fields. -/
structure FieldSignature (ε : Type) where
  format : ε → String
  /-- Whether the version token is signed too. -/
  includesVersion : Bool := false

namespace FieldSignature

/-- The policy that signs the fields. -/
def policy {ε : Type} (s : FieldSignature ε) : SignaturePolicy ε :=
  SignaturePolicy.ofSign fun e version =>
    if s.includesVersion then s.format e ++ ":" ++ version.getD "" else s.format e

def shown {ε : Type} (s : FieldSignature ε) : String :=
  Text.shownRecord "FieldSignaturePolicy" [("include_version", Text.shownBool s.includesVersion)]

end FieldSignature

end EntityStore
