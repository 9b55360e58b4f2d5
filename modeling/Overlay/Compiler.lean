import Overlay.Stage
import Overlay.Text.Blank
import Overlay.Text.Line

/-! Compilers from shader text to shader text, run before the device sees a fragment. What a
compiler makes of a text is a function of the text; whether it may be asked depends on its having
been started. The compiler built in normalises line ends and the blanks before them, and leaves the
rest alone. -/
namespace Overlay

inductive CompileError where
  | empty
  | unavailable
  | failed (stage : Stage) (reason : String)
  deriving DecidableEq, Repr

def CompileError.message : CompileError → String
  | .empty => "shader source is empty"
  | .unavailable => "native compiler is not initialised"
  | .failed stage reason => stage.name ++ " shader failed to compile: " ++ reason

/-- The compilers a user can ask for. -/
inductive CompilerKind where
  /-- Normalises blanks and line ends only. -/
  | passthrough
  /-- A preprocessor that this build does not contain; the normaliser runs in its place. -/
  | shaderc
  deriving DecidableEq, Repr

namespace CompilerKind

def default : CompilerKind := .passthrough

def name : CompilerKind → String
  | .passthrough => "passthrough"
  | .shaderc => "shaderc"

/-- Why a word on the command line is no compiler. -/
inductive Refusal where
  | empty
  | notBuiltIn
  | unknown
  deriving DecidableEq, Repr

def Refusal.message : Refusal → String
  | .empty => "compiler must not be empty"
  | .notBuiltIn => "shaderc support is not enabled in this build"
  | .unknown => "unknown compiler (expected passthrough or shaderc)"

/-- Blanks around the word and capitals are accepted. -/
def ofText (text : String) : Except Refusal CompilerKind :=
  let word := String.ofList (Text.lower (Text.trim text.toList))
  if word == "" then .error .empty
  else if word == "passthrough" || word == "none" then .ok .passthrough
  else if word == "shaderc" then .error .notBuiltIn
  else .error .unknown

end CompilerKind

/-- Every line without the blanks at its end, closed by one newline. -/
def normalise (source : String) : String :=
  String.ofList ((Text.lines source.toList).flatMap fun line => Text.trimEnd line ++ ['\n'])

/-- Normalising refuses a text without content. -/
def passthrough (source : String) (_ : Stage) : Except CompileError String :=
  if Text.allBlank source.toList then .error .empty else .ok (normalise source)

/-- A compiler: what it makes of a text, and whether it has been started. -/
structure Compiler where
  translate : String → Stage → Except CompileError String := passthrough
  ready : Bool := false

namespace Compiler

/-- The compiler that runs for a kind. -/
def ofKind (_ : CompilerKind) : Compiler :=
  {}

def start (compiler : Compiler) : Compiler :=
  { compiler with ready := true }

def stop (compiler : Compiler) : Compiler :=
  { compiler with ready := false }

def compile (compiler : Compiler) (source : String) (stage : Stage) :
    Except CompileError String :=
  if compiler.ready then compiler.translate source stage else .error .unavailable

end Compiler
end Overlay
