import Overlay.Artifact
import Overlay.Proofs.JsonReading

/-! An artifact survives being written and read. Its line of JSON is read as the tokens it was
written as, these make one object with the four fields, and each field holds what it was given. What
a store gives back for an artifact is therefore that artifact, with nothing lost on the way. -/
namespace Overlay.Artifact
open Json Text
open Text.Utf8 (encode_append encode_cons)

/-- The tokens of an artifact's line. -/
def tokens (artifact : Artifact) : List Token :=
  [.openBrace,
    .text (written "compiled_source"), .colon, .text (written artifact.compiledSource), .comma,
    .text (written "source_hash"), .colon, .text (written artifact.sourceHash), .comma,
    .text (written "created_at"), .colon, .number (Numeral.decimal artifact.createdAt.toNat),
    .comma,
    .text (written "version"), .colon, .number (Numeral.decimal artifact.version.toNat),
    .closeBrace]

/-- A member of the line is read as its name, a colon and whatever its value is read as. -/
private theorem reads_member (name : String) {value : Bytes} {tokens : List Token}
    (reads : Reads .between value tokens .between) :
    Reads .between (Utf8.encode (writeText name) ++ ([0x3A] ++ value))
      (.text (written name) :: .colon :: tokens) .between := by
  have colon : step? .between 0x3A = some ([.colon], .between) := rfl
  exact (reads_text name).append ((reads_step colon).append reads)

private theorem encode_members (artifact : Artifact) :
    artifact.encode = [0x7B] ++
      ((Utf8.encode (writeText "compiled_source") ++ ([0x3A] ++
        (Utf8.encode (writeText artifact.compiledSource) ++ [0x2C]))) ++
      ((Utf8.encode (writeText "source_hash") ++ ([0x3A] ++
        (Utf8.encode (writeText artifact.sourceHash) ++ [0x2C]))) ++
      ((Utf8.encode (writeText "created_at") ++ ([0x3A] ++
        (Utf8.encode (Numeral.decimal artifact.createdAt.toNat) ++ [0x2C]))) ++
      (Utf8.encode (writeText "version") ++ ([0x3A] ++
        (Utf8.encode (Numeral.decimal artifact.version.toNat) ++ [0x7D])))))) := by
  have brace : Utf8.encodeChar '{' = [0x7B] := rfl
  have colon : Utf8.encodeChar ':' = [0x3A] := rfl
  have comma : Utf8.encodeChar ',' = [0x2C] := rfl
  have close : Utf8.encodeChar '}' = [0x7D] := rfl
  have nothing : Utf8.encode [] = [] := rfl
  simp only [encode, encodeText, encode_append, encode_cons, List.append_assoc, List.cons_append,
    brace, colon, comma, close, nothing, List.append_nil, List.nil_append]

/-- The line of an artifact is read as its tokens. -/
theorem reads_artifact (artifact : Artifact) :
    Reads .between artifact.encode artifact.tokens .between := by
  have brace : step? .between 0x7B = some ([.openBrace], .between) := rfl
  have comma : step? .between 0x2C = some ([.comma], .between) := rfl
  have compiled := reads_member "compiled_source"
    ((reads_text artifact.compiledSource).append (reads_step comma))
  have hash := reads_member "source_hash"
    ((reads_text artifact.sourceHash).append (reads_step comma))
  have created := reads_member "created_at"
    (@reads_number artifact.createdAt.toNat 0x2C _ rfl rfl)
  have version := reads_member "version"
    (@reads_number artifact.version.toNat 0x7D _ rfl rfl)
  rw [encode_members]
  exact (reads_step brace).append (compiled.append (hash.append (created.append version)))

/-- The members of an artifact's object. -/
def members (artifact : Artifact) : List (List Piece × Json) :=
  [(written "compiled_source", .text (written artifact.compiledSource)),
    (written "source_hash", .text (written artifact.sourceHash)),
    (written "created_at", .number (Numeral.decimal artifact.createdAt.toNat)),
    (written "version", .number (Numeral.decimal artifact.version.toNat))]

/-- The tokens of an artifact make one object with its four members. -/
theorem ofTokens?_tokens (artifact : Artifact) :
    ofTokens? artifact.tokens = some (.object artifact.members) :=
  rfl

private theorem millis?_decimal (reading : Millis) :
    millis? (.number (Numeral.decimal reading.toNat)) = some reading := by
  have within : reading.toNat ≤ Numeral.max64 := Nat.le_of_lt_succ reading.toNat_lt
  rw [millis?, naturalOf?, Numeral.bounded?_decimal within, Option.map_some, UInt64.ofNat_toNat]

private theorem version?_decimal (version : UInt32) :
    version? (.number (Numeral.decimal version.toNat)) = some version := by
  have within : version.toNat ≤ Numeral.max32 := Nat.le_of_lt_succ version.toNat_lt
  rw [version?, naturalOf?, Numeral.bounded?_decimal within, Option.map_some, UInt32.ofNat_toNat]

/-- The four members fill the four fields, each with what it was written for. -/
private theorem members?_members (artifact : Artifact) :
    Draft.members? {} artifact.members =
      some ⟨artifact.compiledSource, artifact.sourceHash, artifact.createdAt,
        artifact.version⟩ := by
  have compiled : Draft.member? {}
      (written "compiled_source", .text (written artifact.compiledSource)) =
      some ⟨artifact.compiledSource, none, none, none⟩ := by
    simp only [Draft.member?, textOf?_written, text?, once?]
    rfl
  have hash : Draft.member? ⟨artifact.compiledSource, none, none, none⟩
      (written "source_hash", .text (written artifact.sourceHash)) =
      some ⟨artifact.compiledSource, artifact.sourceHash, none, none⟩ := by
    simp only [Draft.member?, textOf?_written, text?, once?]
    rfl
  have created : Draft.member? ⟨artifact.compiledSource, artifact.sourceHash, none, none⟩
      (written "created_at", .number (Numeral.decimal artifact.createdAt.toNat)) =
      some ⟨artifact.compiledSource, artifact.sourceHash, artifact.createdAt, none⟩ := by
    simp only [Draft.member?, textOf?_written, millis?_decimal, once?]
    rfl
  have version : Draft.member?
      ⟨artifact.compiledSource, artifact.sourceHash, artifact.createdAt, none⟩
      (written "version", .number (Numeral.decimal artifact.version.toNat)) =
      some ⟨artifact.compiledSource, artifact.sourceHash, artifact.createdAt,
        artifact.version⟩ := by
    simp only [Draft.member?, textOf?_written, version?_decimal, once?]
    rfl
  simp only [members, Draft.members?, compiled, hash, created, version, Option.bind_some]

/-- What is written for an artifact is the document with its four members. -/
theorem parse?_encode (artifact : Artifact) :
    parse? artifact.encode = some (.object artifact.members) := by
  rw [parse?, tokens?_of_reads (reads_artifact artifact), Option.bind_some, ofTokens?_tokens]

/-- The last octet is the brace that closes the object. -/
theorem encode_closed (artifact : Artifact) : artifact.encode.getLast? = some 0x7D := by
  rw [encode_members]
  simp only [← List.append_assoc, List.getLast?_append, List.getLast?_singleton, Option.some_or]

/-- An artifact is read back as it was written. -/
theorem decode?_encode (artifact : Artifact) : decode? artifact.encode = some artifact := by
  rw [decode?, parse?_encode, Option.bind_some, ofJson?, members?_members]
  rfl

/-- Whatever texts an artifact holds, and up to the greatest stamp and the greatest version, what is
written for it is text, is one document with the four members in their order, and is read back as
that artifact. -/
theorem artifact_survives_encoding (artifact : Artifact) :
    Utf8.decode? artifact.encode = some artifact.encodeText ∧
      parse? artifact.encode = some (.object artifact.members) ∧
      decode? artifact.encode = some artifact :=
  ⟨Utf8.decode?_encode artifact.encodeText, artifact.parse?_encode, artifact.decode?_encode⟩

end Overlay.Artifact
