import Overlay.Compiler

/-! What a user can ask for on the command line. The words lead from the program to one action, some
through a group; options hold for the whole program and may stand at any point on the way. -/
namespace Overlay

inductive CacheAction where
  | stats
  | clear
  deriving DecidableEq, Repr

/-- What is to be done. -/
inductive Action where
  /-- Import files and describe them. -/
  | importFiles (files : List String)
  | list
  /-- Build a shader; without a name, the one that the settings choose. -/
  | build (name : Option String)
  /-- Print the text a shader stands for, and the vertex text before it if asked. -/
  | preview (name : Option String) (withVertex : Bool)
  | cache (action : CacheAction)
  | paths
  deriving DecidableEq, Repr

/-- What holds for the whole program. -/
structure Options where
  cacheDirectory : Option String := none
  /-- The settings file, when it is not the one in its place. -/
  config : Option String := none
  /-- Compiled shaders are kept in memory only. -/
  noPersist : Bool := false
  /-- Files to import before anything else. -/
  load : List String := []
  compiler : CompilerKind := .passthrough
  deriving DecidableEq, Repr

/-- A command line that makes sense. -/
structure Invocation where
  options : Options
  action : Action
  deriving DecidableEq, Repr

/-- Why nothing is done: the user asked for a description of the program, or a word makes no sense
where it stands. -/
inductive UsageError where
  | help
  | version
  /-- Nothing was given, so help is shown. -/
  | nothingGiven
  | missingAction
  | unknownAction
  | unknownWord
  | missingOperand
  /-- An option stands without its value, or a path is empty. -/
  | missingValue
  /-- A value was looked at and refused. -/
  | refusedValue
  /-- What may be said once was said twice. -/
  | repeated
  /-- A value stands at an option that takes none. -/
  | surplusValue
  deriving DecidableEq, Repr

namespace CommandLine

/-- How far the words have led. -/
inductive Level where
  | program
  | importFiles
  | list
  | build
  | preview
  | cache
  | cacheStats
  | cacheClear
  | paths
  deriving DecidableEq, Repr

/-- Options with a value. -/
inductive ValueOption where
  | cacheDirectory
  | config
  | load
  | compiler
  deriving DecidableEq, Repr

/-- Options without one. -/
inductive Flag where
  | noPersist
  | vertex
  | help
  | version
  deriving DecidableEq, Repr

/-- How many operands an action takes. -/
inductive Operands where
  | none
  | one
  | many
  deriving DecidableEq, Repr

namespace Level

/-- The words that lead on. -/
def words : Level → List (String × Level)
  | .program => [("import", .importFiles), ("list", .list), ("build", .build),
      ("preview", .preview), ("cache", .cache), ("paths", .paths)]
  | .cache => [("stats", .cacheStats), ("clear", .cacheClear)]
  | _ => []

/-- The word that describes what the others lead to. -/
def helpWord : String := "help"

/-- Whether words lead on from here at all. -/
def isGroup (level : Level) : Bool :=
  !level.words.isEmpty

def next? (level : Level) (word : String) : Option Level :=
  (level.words.find? fun entry => entry.1 == word).map (·.2)

/-- Whether a word means something in a group. -/
def hasWord (level : Level) (word : String) : Bool :=
  level.isGroup && ((level.next? word).isSome || word == helpWord)

def operands : Level → Operands
  | .importFiles => .many
  | .build | .preview => .one
  | _ => .none

/-- What a name after two dashes stands for. -/
def longOption? (level : Level) (name : String) : Option (ValueOption ⊕ Flag) :=
  if name == "cache-dir" then some (.inl .cacheDirectory)
  else if name == "config" then some (.inl .config)
  else if name == "load" then some (.inl .load)
  else if name == "compiler" then some (.inl .compiler)
  else if name == "no-persist" then some (.inr .noPersist)
  else if name == "help" then some (.inr .help)
  else if name == "version" && level == .program then some (.inr .version)
  else if name == "vertex" && level == .preview then some (.inr .vertex)
  else none

/-- What a letter after one dash stands for. -/
def shortOption? (level : Level) (letter : Char) : Option (ValueOption ⊕ Flag) :=
  if letter == 'l' then some (.inl .load)
  else if letter == 'h' then some (.inr .help)
  else if letter == 'V' && level == .program then some (.inr .version)
  else none

end Level
end CommandLine
end Overlay
