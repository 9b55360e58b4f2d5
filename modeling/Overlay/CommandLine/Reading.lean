import Overlay.CommandLine
import Overlay.Text.Line

/-! Reading a command line, one word at a time. A value is looked at when the next option begins or
the line ends, not when it is read, so of several complaints the one is made that a reader going
from left to right comes to first; and a word that leads on is followed to its end before the values
in front of it are looked at. -/
namespace Overlay.CommandLine

/-- What one level was given. -/
structure Given where
  cacheDirectory : Option String := none
  config : Option String := none
  load : List String := []
  compiler : Option CompilerKind := none
  noPersist : Bool := false
  vertex : Bool := false
  operands : List String := []
  deriving DecidableEq, Repr

/-- What has been read but not looked at. -/
inductive Pending where
  | nothing
  /-- An option, and its value once that has been read. -/
  | option (which : ValueOption) (value : Option String)
  | operands (values : List String)
  deriving DecidableEq, Repr

/-- One level as far as it has been read. After two dashes every word is an operand. -/
structure Progress where
  given : Given := {}
  pending : Pending := .nothing
  onlyOperands : Bool := false
  deriving DecidableEq, Repr

/-! ### Looking at values -/

/-- A path that may be given once. -/
def setPath (held : Option String) (path : String) : Except UsageError (Option String) :=
  if held.isSome then .error .repeated
  else if path == "" then .error .missingValue
  else .ok (some path)

/-- Nothing is a path that is empty. -/
def allPaths (paths : List String) : Except UsageError (List String) :=
  if paths.contains "" then .error .missingValue else .ok paths

namespace Given

def set (given : Given) (which : ValueOption) (value : String) : Except UsageError Given :=
  match which with
  | .cacheDirectory => do .ok { given with cacheDirectory := ← setPath given.cacheDirectory value }
  | .config => do .ok { given with config := ← setPath given.config value }
  | .load => do .ok { given with load := given.load ++ (← allPaths [value]) }
  | .compiler =>
    if given.compiler.isSome then .error .repeated
    else
      match CompilerKind.ofText value with
      | .ok kind => .ok { given with compiler := some kind }
      | .error _ => .error .refusedValue

def raise (given : Given) (flag : Flag) : Except UsageError Given :=
  match flag with
  | .help => .error .help
  | .version => .error .version
  | .noPersist => if given.noPersist then .error .repeated else .ok { given with noPersist := true }
  | .vertex => if given.vertex then .error .repeated else .ok { given with vertex := true }

def addOperands (given : Given) (level : Level) (values : List String) :
    Except UsageError Given :=
  match level.operands with
  | .many => do .ok { given with operands := given.operands ++ (← allPaths values) }
  | _ => .ok { given with operands := given.operands ++ values }

end Given

/-- What is pending, looked at. -/
def settle (level : Level) (progress : Progress) : Except UsageError Given :=
  match progress.pending with
  | .nothing => .ok progress.given
  | .option _ none => .error .missingValue
  | .option which (some value) => progress.given.set which value
  | .operands values => progress.given.addOperands level values

/-- How many operands there are, looked at or not. -/
def Progress.operandCount (progress : Progress) : Nat :=
  progress.given.operands.length +
    match progress.pending with
    | .operands values => values.length
    | _ => 0

/-! ### One word -/

/-- An option begins; its value may stand in the same word. -/
def beginOption (level : Level) (progress : Progress) (which : ValueOption)
    (attached : Option String) : Except UsageError Progress := do
  let given ← settle level progress
  match attached with
  | none => .ok { progress with given, pending := .option which none }
  | some value => .ok { progress with given := ← given.set which value, pending := .nothing }

def raiseFlag (level : Level) (progress : Progress) (flag : Flag) : Except UsageError Progress := do
  let given ← settle level progress
  .ok { progress with given := ← given.raise flag, pending := .nothing }

/-- A word with two dashes: a name, and a value after the first equals sign. -/
def takeLong (level : Level) (progress : Progress) (body : List Char) :
    Except UsageError Progress :=
  let (name, attached) := match Text.splitFirst '=' body with
    | some (name, value) => (name, some (String.ofList value))
    | none => (body, none)
  match level.longOption? (String.ofList name), attached with
  | some (.inl which), attached => beginOption level progress which attached
  | some (.inr flag), none => raiseFlag level progress flag
  | some (.inr _), some _ => .error .surplusValue
  | none, _ => .error .unknownWord

/-- A word with one dash: a letter, and right after it the value; one equals sign between them is no
part of it. No flag of one letter lets others follow. -/
def takeShort (level : Level) (progress : Progress) (letter : Char) (rest : List Char) :
    Except UsageError Progress :=
  let attached := match rest with
    | [] => none
    | '=' :: value => some (String.ofList value)
    | value => some (String.ofList value)
  match level.shortOption? letter with
  | some (.inl which) => beginOption level progress which attached
  | some (.inr flag) => raiseFlag level progress flag
  | none => .error .unknownWord

/-- What is wrong with a word that nothing awaits. -/
def misplaced (level : Level) (onlyOperands : Bool) (word : String) : UsageError :=
  if level.isGroup && !(onlyOperands && level.hasWord word) then .unknownAction else .unknownWord

def takeOperand (level : Level) (progress : Progress) (word : String) :
    Except UsageError Progress :=
  match level.operands with
  | .none => .error (misplaced level progress.onlyOperands word)
  | .one =>
    if progress.operandCount = 0 then do
      let given ← settle level progress
      .ok { progress with given, pending := .operands [word] }
    else .error .unknownWord
  | .many =>
    match progress.pending with
    | .operands values => .ok { progress with pending := .operands (values ++ [word]) }
    | _ => do
      let given ← settle level progress
      .ok { progress with given, pending := .operands [word] }

/-- A word that leads nowhere. -/
def takeWord (level : Level) (progress : Progress) (word : String) : Except UsageError Progress :=
  if progress.onlyOperands then takeOperand level progress word
  else
    match word.toList, progress.pending with
    | ['-', '-'], _ => .ok { progress with onlyOperands := true }
    | '-' :: '-' :: body, _ => takeLong level progress body
    | '-' :: letter :: rest, _ => takeShort level progress letter rest
    | _, .option which none => .ok { progress with pending := .option which (some word) }
    | _, _ => takeOperand level progress word

/-- Whether the next word may lead on: not after two dashes, and not as the value of an option. -/
def Progress.mayLeadOn (progress : Progress) : Bool :=
  !progress.onlyOperands &&
    match progress.pending with
    | .option _ none => false
    | _ => true

/-! ### The whole line -/

/-- What the help word describes: it takes words as far as they lead. -/
def helpOn (level : Level) : List String → UsageError
  | [] => .help
  | word :: rest =>
    match level.next? word with
    | some next => helpOn next rest
    | none => if level.hasWord word && rest.isEmpty then .help else .unknownAction

/-- What a level comes to at the end of the line. -/
def finish (level : Level) (given : Given) : Except UsageError Action :=
  match level with
  | .program | .cache => .error (if given = {} then .nothingGiven else .missingAction)
  | .importFiles =>
    if given.operands.isEmpty then .error .missingOperand else .ok (.importFiles given.operands)
  | .list => .ok .list
  | .build => .ok (.build given.operands.head?)
  | .preview => .ok (.preview given.operands.head? given.vertex)
  | .cacheStats => .ok (.cache .stats)
  | .cacheClear => .ok (.cache .clear)
  | .paths => .ok .paths

/-- Reads on at a level: what it and the levels below it were given, outermost first, and the action
they lead to. -/
def readFrom (level : Level) (progress : Progress) :
    List String → Except UsageError (List Given × Action)
  | [] => do
    let given ← settle level progress
    let action ← finish level given
    .ok ([given], action)
  | word :: rest =>
    match progress.mayLeadOn, level.next? word with
    | true, some next => do
      let (deeper, action) ← readFrom next {} rest
      let given ← settle level progress
      .ok (given :: deeper, action)
    | mayLeadOn, _ =>
      if mayLeadOn && level.hasWord word then .error (helpOn level rest)
      else
        match takeWord level progress word with
        | .ok progress => readFrom level progress rest
        | .error error => .error error

/-- Of levels from the outermost inwards, the value of the innermost that has one. -/
def innermost {α : Type} (value : Given → Option α) (levels : List Given) : Option α :=
  levels.reverse.findSome? value

/-- The files to load that a level names, if it names any. -/
def Given.load? (given : Given) : Option (List String) :=
  if given.load.isEmpty then none else some given.load

def options (levels : List Given) : Options where
  cacheDirectory := innermost Given.cacheDirectory levels
  config := innermost Given.config levels
  noPersist := levels.any Given.noPersist
  load := (innermost Given.load? levels).getD []
  compiler := (innermost Given.compiler levels).getD .default

/-- What the words after the program's name ask for. -/
def read (words : List String) : Except UsageError Invocation := do
  let (levels, action) ← readFrom .program {} words
  .ok ⟨options levels, action⟩

end Overlay.CommandLine
