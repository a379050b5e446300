/-!
# Log lines

Events that happen in a run, and the lines that show them.
-/
namespace PolicyLint.CommandLine
set_option autoImplicit false

inductive Level where
  | error | warn | info | debug | trace
  deriving DecidableEq, Repr, Inhabited

namespace Level

def name : Level → String
  | error => "ERROR"
  | warn => "WARN"
  | info => "INFO"
  | debug => "DEBUG"
  | trace => "TRACE"

def all : List Level := [error, warn, info, debug, trace]

/-- How much a level lets through; no level at all is zero. -/
def verbosity : Level → Nat
  | error => 1
  | warn => 2
  | info => 3
  | debug => 4
  | trace => 5

end Level

inductive Target where
  | program | check
  deriving DecidableEq, Repr

def Target.name : Target → String
  | program => "denylint"
  | check => "denylint_app::check"

structure Event where
  level : Level
  target : Target
  message : String
  /-- The values in their written form. -/
  fields : List (String × String) := []
  deriving DecidableEq, Repr

def Event.line (e : Event) : String :=
  String.ofList (List.replicate (5 - e.level.name.length) ' ') ++ e.level.name ++ " " ++ e.target.name ++
    ": " ++ e.message ++ String.join (e.fields.map fun (key, value) => " " ++ key ++ "=" ++ value) ++ "\n"

/-- The names of the fields of an event, of which its message is one. -/
def Event.fieldNames (e : Event) : List String := "message" :: e.fields.map Prod.fst

end PolicyLint.CommandLine
