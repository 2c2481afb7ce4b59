import EntityStore.Policy.Signature
import EntityStore.Policy.Version
import EntityStore.Property
import EntityStore.Reference
import EntityStore.Serializer

/-!
# Documents

A document is an entity with a bit of everything: an id, references,
properties, a version token, a whole number, a floating-point value, and a memo
that stays with whoever wrote it, for the memo is not serialized.
-/

namespace EntityStore

structure Doc where
  id : String
  references : List Reference := []
  properties : List Property := []
  version : Option String := none
  number : Int64 := 0
  float : Binary64 := .zero false
  /-- A remark that is not stored. -/
  memo : String := ""
deriving DecidableEq

namespace Doc

/-- The document as it comes back from storage: the same but for the memo. -/
def stored (d : Doc) : Doc := { d with memo := "" }

/-- The names of the serialized members, in their order. -/
def memberNames : List String := ["id", "refs", "props", "version", "n", "f"]

def pairToJson (a b : String) : Json := .array [.string a, .string b]

/-- What is wrong with bytes that hold no document. Of all documents only one whose float is no
number is written as bytes that do not read back; the null in its place is the last member, so it
ends one byte before the closing brace does. -/
def fault (bytes : Bytes) : String :=
  "invalid type: null, expected f64 at line 1 column " ++ Decimal.text (bytes.length - 1)

instance : JsonShape Doc where
  fault
  toJson d := Json.record [
    ("id", .string d.id),
    ("refs", .array (d.references.map fun r => pairToJson r.key r.value)),
    ("props", .array (d.properties.map fun p => pairToJson p.name p.value)),
    ("version", Json.orNull .string d.version),
    ("n", .int d.number.toInt),
    ("f", .float d.float)]
  ofJson? v := do
    let r ← v.asRecord? memberNames
    let pairs := Json.asList? (Json.asPair? Json.asString? Json.asString?)
    return {
      id := ← r.required? "id" Json.asString?
      references := (← r.required? "refs" pairs).map fun p => ⟨p.1, p.2⟩
      properties := (← r.required? "props" pairs).map fun p => ⟨p.1, p.2⟩
      version := ← r.nullable? "version" Json.asString?
      number := ← r.required? "n" Json.asInt64?
      float := ← r.required? "f" Json.asBinary64? }

def pairToPack (a b : String) : Pack := .array [.string a, .string b]

instance : PackShape Doc where
  toPack d := Pack.record [
    ("id", .string d.id),
    ("refs", .array (d.references.map fun r => pairToPack r.key r.value)),
    ("props", .array (d.properties.map fun p => pairToPack p.name p.value)),
    ("version", Pack.orNil .string d.version),
    ("n", .int d.number),
    ("f", .float d.float)]
  ofPack? v := do
    let r ← v.asRecord? memberNames
    let pairs := Pack.asList? (Pack.asPair? Pack.asString? Pack.asString?)
    return {
      id := ← r.required? 0 Pack.asString?
      references := (← r.required? 1 pairs).map fun p => ⟨p.1, p.2⟩
      properties := (← r.required? 2 pairs).map fun p => ⟨p.1, p.2⟩
      version := ← r.nullable? 3 Pack.asString?
      number := ← r.required? 4 Pack.asInt64?
      float := ← r.required? 5 Pack.asBinary64? }

/-! ## Policies -/

def withVersion (d : Doc) (token : String) : Doc := { d with version := some token }

/-- The policy whose tokens come from a source. -/
def versionPolicy {τ : Type} (next : TokenSource τ) (optimistic : Bool) : VersionPolicy Doc τ :=
  VersionPolicy.ofAccessors Doc.version withVersion next optimistic

/-- The policy whose new token is the old one with a mark behind it; it draws from no source. -/
def extendingPolicy {τ : Type} : VersionPolicy Doc τ where
  optimistic := true
  versionOf := Doc.version
  renew d t :=
    let token := d.version.getD "" ++ "+"
    ((token, d.withVersion token), t)

/-- A member of the document as it is signed; a name of no member that can be signed is the empty
text. -/
def signedMember (d : Doc) (name : String) : String :=
  if name = "id" then d.id
  else if name = "n" then Decimal.intText d.number.toInt
  else if name = "memo" then d.memo
  else if name = "version" then d.version.getD ""
  else if name = "refs" then ",".intercalate (d.references.map Reference.text)
  else ""

/-- The signature of the members of the given names. -/
def fieldSignature (names : List String) (includesVersion : Bool) : FieldSignature Doc where
  format d := ":".intercalate (names.map d.signedMember)
  includesVersion

/-- The policy that signs with the id and gives one answer to every check. -/
def constantPolicy (accepts : Bool) : SignaturePolicy Doc where
  sign d _ := d.id
  accepts _ _ _ := accepts

end Doc

end EntityStore
