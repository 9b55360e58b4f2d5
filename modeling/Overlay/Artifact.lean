import Overlay.Duration
import Overlay.Json
import Overlay.Stage

/-! Compiled text as the cache keeps it: with the fingerprint of the source it was made from, when,
and under which schema. That is all a reader needs to tell a fresh artifact from a stale one, so an
artifact needs no other record beside it. -/
namespace Overlay

/-- The outcome of one compilation. -/
structure Artifact where
  compiledSource : String
  /-- The fingerprint of the source before compilation. -/
  sourceHash : String
  createdAt : Millis
  version : UInt32
  deriving DecidableEq, Repr, Inhabited

namespace Artifact

/-- An artifact serves a source when schema and fingerprint agree and its age does not exceed the
limit. One from the future has no age. -/
def isValidFor (artifact : Artifact) (sourceHash : String) (schemaVersion : UInt32) (now : Millis)
    (maxAge : Duration) : Bool :=
  artifact.version == schemaVersion && artifact.sourceHash == sourceHash &&
    ageAt now artifact.createdAt ≤ maxAge.wholeMillis.toNat

def encodeText (artifact : Artifact) : List Char :=
  '{' :: Json.writeText "compiled_source" ++ ':' :: Json.writeText artifact.compiledSource ++
    ',' :: Json.writeText "source_hash" ++ ':' :: Json.writeText artifact.sourceHash ++
    ',' :: Json.writeText "created_at" ++ ':' :: Numeral.decimal artifact.createdAt.toNat ++
    ',' :: Json.writeText "version" ++ ':' :: Numeral.decimal artifact.version.toNat ++ ['}']

/-- One line of JSON, the fields in their order. -/
def encode (artifact : Artifact) : Bytes :=
  Text.Utf8.encode artifact.encodeText

/-- The fields read so far. -/
structure Draft where
  compiledSource : Option String := none
  sourceHash : Option String := none
  createdAt : Option Millis := none
  version : Option UInt32 := none
  deriving DecidableEq, Repr

/-- A field is set once. -/
def once? {α : Type} (held : Option α) (value : Option α) : Option (Option α) :=
  match held with
  | some _ => none
  | none => value.map some

def text? : Json → Option String
  | .text pieces => Json.textOf? pieces
  | _ => none

def millis? : Json → Option Millis
  | .number characters => (Json.naturalOf? Numeral.max64 characters).map UInt64.ofNat
  | _ => none

def version? : Json → Option UInt32
  | .number characters => (Json.naturalOf? Numeral.max32 characters).map UInt32.ofNat
  | _ => none

/-- A member sets its field; one of another name is skipped, but its name must be text. -/
def Draft.member? (draft : Draft) (member : List Json.Piece × Json) : Option Draft := do
  let name ← Json.textOf? member.1
  if name = "compiled_source" then
    let value ← once? draft.compiledSource (text? member.2)
    some { draft with compiledSource := value }
  else if name = "source_hash" then
    let value ← once? draft.sourceHash (text? member.2)
    some { draft with sourceHash := value }
  else if name = "created_at" then
    let value ← once? draft.createdAt (millis? member.2)
    some { draft with createdAt := value }
  else if name = "version" then
    let value ← once? draft.version (version? member.2)
    some { draft with version := value }
  else some draft

def Draft.members? (draft : Draft) : List (List Json.Piece × Json) → Option Draft
  | [] => some draft
  | member :: rest => (draft.member? member).bind fun draft => draft.members? rest

/-- Every field has been set. -/
def Draft.complete? (draft : Draft) : Option Artifact := do
  let compiledSource ← draft.compiledSource
  let sourceHash ← draft.sourceHash
  let createdAt ← draft.createdAt
  let version ← draft.version
  some { compiledSource, sourceHash, createdAt, version }

/-- An object with the four fields, or an array of the four values in their order. -/
def ofJson? : Json → Option Artifact
  | .object members => (Draft.members? {} members).bind Draft.complete?
  | .array [compiledSource, sourceHash, createdAt, version] => do
    let compiledSource ← text? compiledSource
    let sourceHash ← text? sourceHash
    let createdAt ← millis? createdAt
    let version ← version? version
    some { compiledSource, sourceHash, createdAt, version }
  | _ => none

def decode? (bytes : Bytes) : Option Artifact :=
  (Json.parse? bytes).bind ofJson?

end Artifact

/-- A stage is written as its name, or as an object whose only member has that name and holds
nothing. -/
def Stage.ofJson? : Json → Option Stage
  | .text pieces => (Json.textOf? pieces).bind Stage.ofName?
  | .object [(name, .null)] => (Json.textOf? name).bind Stage.ofName?
  | _ => none

end Overlay
