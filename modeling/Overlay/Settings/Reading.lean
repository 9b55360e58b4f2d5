import Overlay.Settings.Fault
import Overlay.Toml.Reader
import Overlay.Duration.Phrase

/-! Reading settings. A section is a table of its fields or a list of their values in order, and the
first value that does not fit is the one that is complained about, in the order in which the
document gives them. A text that is no document at all has no such value. -/
namespace Overlay

/-- Why a text gives no settings. -/
inductive SettingsError where
  /-- It is not a document. -/
  | notToml
  | value (fault : SettingsFault)
  deriving DecidableEq, Repr

namespace Settings

/-! ### One value -/

def readText : Toml.Value → Except SettingsFault String
  | .text s => .ok s
  | value => .error (.wrongKind (.of value) .text)

/-- Whole seconds, or a phrase. -/
def readDuration : Toml.Value → Except SettingsFault Duration
  | .integer n => if n < 0 then .error .negativeDuration else .ok ⟨n.toNat, 0⟩
  | .text s =>
    match Duration.Phrase.parse? s with
    | some duration => .ok duration
    | none => .error (.unreadableDuration s)
  | value => .error (.wrongKind (.of value) .duration)

def readCount : Toml.Value → Except SettingsFault Nat
  | .integer n => if n < 0 then .error (.negativeCount n) else .ok n.toNat
  | value => .error (.wrongKind (.of value) .count)

/-- A fraction has been rounded to a double by the document and is rounded again to a single; a
whole number is rounded once. -/
def readOpacity : Toml.Value → Except SettingsFault Binary
  | .float x => .ok (Opacity.clamp (x.round .single))
  | .integer n => .ok (Opacity.clamp (.ofInt .single n))
  | value => .error (.wrongKind (.of value) .opacity)

def readModeName (name : String) : Except SettingsFault PerformanceMode :=
  match PerformanceMode.ofName? name with
  | some mode => .ok mode
  | none => .error (.unknownMode name)

/-- What may stand behind the name of a mode: something empty. -/
def readNothing : Toml.Value → Except SettingsFault Unit
  | .array [] => .ok ()
  | .array _ => .error (.modeNotEmpty "table")
  | .table _ [] => .ok ()
  | .table .. => .error (.modeNotEmpty "table")
  | .tables .. => .error (.modeNotEmpty "array")
  | .text _ => .error (.modeHolds "string")
  | .integer _ => .error (.modeHolds "integer")
  | .float _ => .error (.modeHolds "float")
  | .boolean _ => .error (.modeHolds "boolean")
  | .moment => .error (.modeHolds "datetime")

/-- A mode by its name, or a table with that name as its only key. -/
def readMode : Toml.Value → Except SettingsFault PerformanceMode
  | .text name => readModeName name
  | .table _ [] => .error .noMode
  | .table _ [(name, value)] => do
    let mode ← readModeName name
    readNothing value
    .ok mode
  | .table .. => .error .severalModes
  | _ => .error .notMode

def readPath : Toml.Value → Except SettingsFault String
  | .text s => .ok s
  | value => .error (.wrongKind (.of value) .path)

def readPaths : Toml.Value → Except SettingsFault (List String)
  | .array items => items.mapM readPath
  | .tables last earlier => (Toml.Value.inOrder last earlier).mapM readPath
  | value => .error (.wrongKind (.of value) .sequence)

/-! ### Sections -/

/-- The fields of a section in their order, each with what its value does. -/
abbrev Fields (σ : Type) := List (String × (Toml.Value → σ → Except SettingsFault σ))

namespace Fields
variable {σ : Type}

def names (fields : Fields σ) : List String :=
  fields.map (·.1)

def find? (fields : Fields σ) (name : String) :
    Option (Toml.Value → σ → Except SettingsFault σ) :=
  (List.find? (fun field => field.1 == name) fields).map (·.2)

/-- Fields by name, as far as they are given. -/
def readEntries (fields : Fields σ) : Toml.Entries → σ → Except SettingsFault σ
  | [], read => .ok read
  | (name, value) :: rest, read =>
    match fields.find? name with
    | none => .error (.unknownField name fields.names)
    | some set => (set value read).bind (readEntries fields rest)

/-- Fields by position, as far as they are given. What there is beyond the last one is ignored. -/
def readItems : Fields σ → List Toml.Value → σ → Except SettingsFault σ
  | (_, set) :: fields, value :: rest, read => (set value read).bind (readItems fields rest)
  | _, _, read => .ok read

/-- The only key of a date that is looked at as a table. -/
def momentKey : String := "$__toml_private_datetime"

def readSection (fields : Fields σ) (wanted : WantedKind) (read : σ) :
    Toml.Value → Except SettingsFault σ
  | .table _ entries => fields.readEntries entries read
  | .moment => .error (.unknownField momentKey fields.names)
  | .array items => fields.readItems items read
  | .tables last earlier => fields.readItems (Toml.Value.inOrder last earlier) read
  | value => .error (.wrongKind (.of value) wanted)

end Fields

def cacheFields : Fields CacheSection :=
  [("max_age", fun value cache => do .ok { cache with maxAge := ← readDuration value }),
    ("memory_entries", fun value cache => do .ok { cache with memoryEntries := ← readCount value })]

def overlayFields : Fields OverlaySection :=
  [("shader", fun value overlay => do .ok { overlay with shader := ← readText value }),
    ("opacity", fun value overlay => do .ok { overlay with opacity := ← readOpacity value }),
    ("performance", fun value overlay => do .ok { overlay with performance := ← readMode value }),
    ("shaders", fun value overlay => do .ok { overlay with shaders := ← readPaths value })]

def sections : Fields Settings :=
  [("cache", fun value settings => do
      .ok { settings with cache := ← cacheFields.readSection .cacheSection {} value }),
    ("overlay", fun value settings => do
      .ok { settings with overlay := ← overlayFields.readSection .overlaySection {} value })]

/-- The settings of a text. -/
def parse (text : String) : Except SettingsError Settings :=
  match Toml.parse? text with
  | none => .error .notToml
  | some entries =>
    match sections.readEntries entries {} with
    | .ok settings => .ok settings
    | .error fault => .error (.value fault)

end Settings
end Overlay
