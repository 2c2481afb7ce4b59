import EntityStore.Codec.Zstd
import EntityStore.Decimal.Digits
import EntityStore.Json.Shape
import EntityStore.Text.Blank
import EntityStore.Text.Quoted
import EntityStore.Toml.Document
import EntityStore.Toml.Writer

/-!
# Configuration

What can be said of a store in plain data: whether it is read-only, what its
collection is called, which search is the default, how blobs are encoded, and
when entities are decoded. A configuration is written as JSON or TOML with
every member optional, and it is checked before a store is set up with it.

A config file is one TOML document at a path. What stands at the path is a
`FilePlace`; reading and writing the file are functions on it.
-/

namespace EntityStore

/-- What can be said of a store in plain data. -/
structure Config where
  /-- Whether writes are refused once the store is set up. -/
  readOnly : Bool := false
  /-- The name of the collection, that of the entity type if there is none. -/
  collectionName : Option String := none
  /-- The search that answers requests that name none. -/
  defaultSearch : Option String := none
  /-- The id of the codec. -/
  codec : String := "zstd"
  /-- The level of the codec, if it compresses. -/
  compressionLevel : Int32 := ZstdCodec.defaultLevel
  /-- Whether entities are decoded when they are stored. -/
  eagerDeserialize : Bool := false
deriving DecidableEq

namespace Config

/-! ## Checks -/

def storageCodec {σ : Type} (c : Config) : Except StoreError (Codec σ) :=
  (Codec.named? c.codec c.compressionLevel).mapError CodecError.toStoreError

/-- Whether a compression level is one of the codec that compresses. -/
def isLevel (n : Int32) : Bool := 1 ≤ n.toInt && n.toInt ≤ 22

/-- The first thing that is wrong with a configuration, if anything is. -/
def fault? (c : Config) : Option StoreError :=
  if c.collectionName.any Text.isBlankText then
    some (.configuration "collection_name must not be empty")
  else if c.defaultSearch.any Text.isBlankText then
    some (.configuration "default_search must not be empty")
  else if c.codec = "zstd" ∧ isLevel c.compressionLevel = false then
    some (.configuration
      ("compression_level " ++ Decimal.intText c.compressionLevel.toInt ++ " out of range 1-22"))
  else
    match (c.storageCodec : Except StoreError (Codec Unit)) with
    | .error e => some e
    | .ok _ => none

/-- Whether nothing is wrong with a configuration, and what is wrong otherwise. -/
def validate (c : Config) : Except StoreError Unit :=
  match c.fault? with
  | some e => .error e
  | none => .ok ()

/-! ## JSON -/

def memberNames : List String :=
  ["read_only", "collection_name", "default_search", "codec", "compression_level",
    "eager_deserialize"]

instance : JsonShape Config where
  toJson c := Json.present [
    ("read_only", some (.bool c.readOnly)),
    ("collection_name", c.collectionName.map .string),
    ("default_search", c.defaultSearch.map .string),
    ("codec", some (.string c.codec)),
    ("compression_level", some (.int c.compressionLevel.toInt)),
    ("eager_deserialize", some (.bool c.eagerDeserialize))]
  ofJson? v := do
    let r ← v.asRecord? memberNames
    let usual : Config := {}
    return {
      readOnly := ← r.withDefault? "read_only" usual.readOnly Json.asBool?
      collectionName := ← r.optional? "collection_name" Json.asString?
      defaultSearch := ← r.optional? "default_search" Json.asString?
      codec := ← r.withDefault? "codec" usual.codec Json.asString?
      compressionLevel := ←
        r.withDefault? "compression_level" usual.compressionLevel Json.asInt32?
      eagerDeserialize := ←
        r.withDefault? "eager_deserialize" usual.eagerDeserialize Json.asBool? }

/-! ## TOML -/

/-- The configuration that the entries of a document spell out. -/
def ofEntries? (entries : Toml.Entries) : Option Config := do
  let usual : Config := {}
  return {
    readOnly := ← Toml.withDefault? entries "read_only" usual.readOnly Toml.asBool?
    collectionName := ← Toml.optional? entries "collection_name" Toml.asString?
    defaultSearch := ← Toml.optional? entries "default_search" Toml.asString?
    codec := ← Toml.withDefault? entries "codec" usual.codec Toml.asString?
    compressionLevel := ←
      Toml.withDefault? entries "compression_level" usual.compressionLevel Toml.asInt32?
    eagerDeserialize := ←
      Toml.withDefault? entries "eager_deserialize" usual.eagerDeserialize Toml.asBool? }

/-- The configuration of a document, checked. -/
def ofToml (text : String) : Except StoreError Config :=
  match (Toml.parse? text).bind ofEntries? with
  | none => .error (.configuration "Failed to parse config: not a document of the known members")
  | some c => c.validate.map fun _ => c

def boolText (b : Bool) : String := if b then "true" else "false"

def toToml (c : Config) : String :=
  Toml.lines ([
    ("read_only", some (boolText c.readOnly)),
    ("collection_name", c.collectionName.map Toml.quoted),
    ("default_search", c.defaultSearch.map Toml.quoted),
    ("codec", some (Toml.quoted c.codec)),
    ("compression_level", some (Decimal.intText c.compressionLevel.toInt)),
    ("eager_deserialize", some (boolText c.eagerDeserialize))].filterMap
      fun e => e.2.map fun v => (e.1, v))

/-- The document of the usual configuration, with an explanation of each member. -/
def defaultToml : String :=
  "# memrepo repository configuration\n" ++
  "#\n" ++
  "# Reject create/update/delete once the repository is built (default: false).\n" ++
  "# Prepopulated entities are still loaded.\n" ++
  "read_only = false\n" ++
  "\n" ++
  "# ETag prefix; defaults to the entity type name.\n" ++
  "# collection_name = \"users\"\n" ++
  "\n" ++
  "# Search algorithm used when a request does not name one.\n" ++
  "# default_search = \"scan\"\n" ++
  "\n" ++
  "# Storage codec for serialized entities: \"zstd\" (default) or \"identity\"\n" ++
  "codec = \"zstd\"\n" ++
  "\n" ++
  "# zstd level, 1-22 (default: 3)\n" ++
  "compression_level = 3\n" ++
  "\n" ++
  "# Decode entities when stored instead of on first read (default: false)\n" ++
  "eager_deserialize = false\n"

/-! ## Files -/

/-- The usual name of a config file. -/
def fileName : String := "memrepo.toml"

/-- What stands at the path of a file. -/
inductive FilePlace where
  /-- The directory of the path does not exist. -/
  | nowhere
  /-- The directory exists and the file does not. -/
  | vacant
  /-- A file with a text. -/
  | holding (text : String)
deriving DecidableEq

/-- The error for a file or a directory that does not exist. -/
def notFound : StoreError := .io "No such file or directory (os error 2)"

/-- A fault of a configuration with the path of its file behind it. -/
def atPath (path : String) : StoreError → StoreError
  | .configuration reason => .configuration (reason ++ " ('" ++ path ++ "')")
  | e => e

/-- Reads and checks the configuration of a file. -/
def load (path : String) : FilePlace → Except StoreError Config
  | .holding text => (ofToml text).mapError (atPath path)
  | _ => .error notFound

/-- Writes a text to a file; what stands at its path then. -/
def writeFile (text : String) : FilePlace → Except StoreError FilePlace
  | .nowhere => .error notFound
  | _ => .ok (.holding text)

/-- Writes a configuration to a file; what stands at its path then. -/
def save (c : Config) (place : FilePlace) : Except StoreError FilePlace :=
  writeFile c.toToml place

/-- Writes the usual document where no file is; what stands at the path then. -/
def saveDefaultIfMissing : FilePlace → Except StoreError FilePlace
  | .holding text => .ok (.holding text)
  | place => writeFile defaultToml place

def shown (c : Config) : String :=
  Text.shownRecord "RepositoryConfig" [
    ("read_only", Text.shownBool c.readOnly),
    ("collection_name", Text.shownOption Text.quoted c.collectionName),
    ("default_search", Text.shownOption Text.quoted c.defaultSearch),
    ("codec", Text.quoted c.codec),
    ("compression_level", Decimal.intText c.compressionLevel.toInt),
    ("eager_deserialize", Text.shownBool c.eagerDeserialize)]

end Config

end EntityStore
