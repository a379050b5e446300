import PolicyLint.Decimal.Bounds
import PolicyLint.Report.Schema
import PolicyLint.Settings.Resolve
import PolicyLint.Text.Split

/-!
# Arguments

The words of a command line: options, a command, and the options and words of that command. Global options
may stand before or behind the command; behind it they win.
-/
namespace PolicyLint.CommandLine
open Text
set_option autoImplicit false

inductive UsageFault where
  | missingCommand
  | unknownCommand (word : String)
  | unknownOption (name : String)
  | unexpectedWord (word : String)
  | missingWord (name : String)
  | missingValue (option : String)
  | unexpectedValue (option : String)
  | invalidValue (option value : String)
  | repeated (option : String)
  deriving DecidableEq, Repr

def UsageFault.message : UsageFault → String
  | missingCommand => "error: a command is required"
  | unknownCommand word => "error: unrecognized command '" ++ word ++ "'"
  | unknownOption name | unexpectedWord name => "error: unexpected argument '" ++ name ++ "' found"
  | missingWord name => "error: the argument <" ++ name ++ "> is required"
  | missingValue option => "error: a value is required for '--" ++ option ++ "'"
  | unexpectedValue option => "error: '--" ++ option ++ "' takes no value"
  | invalidValue option value => "error: invalid value '" ++ value ++ "' for '" ++ option ++ "'"
  | repeated option => "error: '--" ++ option ++ "' cannot be used multiple times"

/-- An option: its name, perhaps a letter for it, and the values it takes; a switch takes none. -/
structure OptionSpec where
  name : String
  letter : Option Char := none
  takesValue : Bool := true
  accepts : String → Bool := fun _ => true

/-- A word of a command: its name in messages and which words it may be. -/
structure WordSpec where
  name : String
  required : Bool
  accepts : String → Bool := fun _ => true

/-- What may stand at one place of a command line. At the front a word starts the command. -/
structure Grammar where
  options : List OptionSpec
  words : List WordSpec
  isFront : Bool

structure Given where
  options : List (String × String) := []
  words : List String := []
  deriving DecidableEq, Repr, Inhabited

/-- Information in place of a run. -/
inductive Shown where
  | help | version
  deriving DecidableEq, Repr

/-- How far reading got: to the end, to the word that starts a command, or to a request for information. -/
inductive Stop where
  | finished (given : Given)
  | command (given : Given) (word : String) (rest : List String)
  | shown (what : Shown)

inductive Argument where
  | escape
  | long (name : String) (value : Option String)
  | letters (first : Char) (rest : List Char)
  | word (text : String)
  deriving DecidableEq, Repr

def Argument.ofText (s : String) : Argument :=
  match s.toList with
  | ['-', '-'] => .escape
  | '-' :: '-' :: cs =>
    match cutAt (· == '=') cs with
    | some (name, value) => .long (String.ofList name) (some (String.ofList value))
    | none => .long (String.ofList cs) none
  | '-' :: c :: cs => .letters c cs
  | _ => .word s

def Argument.isWord : Argument → Bool
  | word _ => true
  | _ => false

namespace Grammar

def addOption (given : Given) (spec : OptionSpec) (value : String) : Except UsageFault Given :=
  if (given.options.lookup spec.name).isSome then .error (.repeated spec.name)
  else if spec.accepts value then .ok { given with options := given.options ++ [(spec.name, value)] }
  else .error (.invalidValue spec.name value)

def addWord (g : Grammar) (given : Given) (word : String) : Except UsageFault Given :=
  match g.words[given.words.length]? with
  | none => .error (.unexpectedWord word)
  | some spec =>
    if spec.accepts word then .ok { given with words := given.words ++ [word] }
    else .error (.invalidValue spec.name word)

/-- The words behind an escape. -/
def addWords (g : Grammar) (given : Given) (words : List String) : Except UsageFault Given :=
  words.foldlM g.addWord given

def finish (g : Grammar) (given : Given) : Except UsageFault Stop :=
  match (g.words.drop given.words.length).find? WordSpec.required with
  | some spec => .error (.missingWord spec.name)
  | none => .ok (.finished given)

/-- The value written together with the letter of an option, with or without an equals sign. -/
def attached : List Char → String
  | '=' :: cs => String.ofList cs
  | cs => String.ofList cs

/-- An option with what is written together with it; the next argument may be its value. -/
inductive Found where
  | complete (given : Given)
  | needsValue (spec : OptionSpec)
  | shown (what : Shown)

def findLong (g : Grammar) (given : Given) (name : String) (value : Option String) :
    Except UsageFault Found :=
  match g.options.find? (fun o => o.name == name), value with
  | some spec, some v =>
    if spec.takesValue then (addOption given spec v).map .complete else .error (.unexpectedValue name)
  | some spec, none =>
    if spec.takesValue then .ok (.needsValue spec) else (addOption given spec "").map .complete
  | none, some _ =>
    if name = "help" ∨ (name = "version" ∧ g.isFront) then .error (.unexpectedValue name)
    else .error (.unknownOption ("--" ++ name))
  | none, none =>
    if name = "help" then .ok (.shown .help)
    else if name = "version" ∧ g.isFront then .ok (.shown .version)
    else .error (.unknownOption ("--" ++ name))

def findLetter (g : Grammar) (given : Given) (first : Char) (rest : List Char) :
    Except UsageFault Found :=
  match g.options.find? (fun o => o.letter == some first) with
  | some spec =>
    if rest.isEmpty then .ok (.needsValue spec)
    else (addOption given spec (attached rest)).map .complete
  | none =>
    if first = 'h' then .ok (.shown .help)
    else if first = 'V' ∧ g.isFront then .ok (.shown .version)
    else .error (.unknownOption ("-" ++ String.singleton first))

def find (g : Grammar) (given : Given) : Argument → Except UsageFault Found
  | .long name value => g.findLong given name value
  | .letters first rest => g.findLetter given first rest
  | .escape | .word _ => .ok (.complete given)

def read (g : Grammar) (given : Given) (args : List String) : Except UsageFault Stop :=
  match args with
  | [] => g.finish given
  | arg :: rest =>
    match Argument.ofText arg with
    | .escape => do g.finish (← g.addWords given rest)
    | .word text =>
      if g.isFront then .ok (.command given text rest)
      else do
        let given ← g.addWord given text
        g.read given rest
    | option =>
      match g.find given option with
      | .error fault => .error fault
      | .ok (.shown what) => .ok (.shown what)
      | .ok (.complete given) => g.read given rest
      | .ok (.needsValue spec) =>
        match rest with
        | [] => .error (.missingValue spec.name)
        | value :: rest =>
          if (Argument.ofText value).isWord then
            match addOption given spec value with
            | .error fault => .error fault
            | .ok given => g.read given rest
          else .error (.missingValue spec.name)
termination_by args.length

end Grammar

/-- The digits of a number with an optional sign in front. -/
def signedDigits (signs : List Char) (cs : List Char) : Option (Option Char × List Char) :=
  let (sign, ds) : Option Char × List Char :=
    match cs with
    | c :: rest => if signs.contains c then (some c, rest) else (none, cs)
    | [] => (none, [])
  if ds.isEmpty || !ds.all Char.isDigit then none else some (sign, ds)

def digitsValue (ds : List Char) : Nat := ds.foldl (fun n c => n * 10 + (c.toNat - 48)) 0

/-- A number of findings: below 2^32, and zero may be negative. -/
def findingsNumber? (s : String) : Option Nat :=
  match signedDigits ['+', '-'] s.toList with
  | some (sign, ds) =>
    let n := digitsValue ds
    if n < Decimal.word32 ∧ (sign ≠ some '-' ∨ n = 0) then some n else none
  | none => none

/-- A number of annotations: below 2^64. -/
def annotationsNumber? (s : String) : Option Nat :=
  match signedDigits ['+'] s.toList with
  | some (_, ds) => if digitsValue ds < Decimal.word64 then some (digitsValue ds) else none
  | none => none

inductive Command where
  | check (reportOut : String) (writeMarkdown : Bool) (markdownOut : String)
  | markdown (report : String) (output : Option String)
  | annotations (report : String) (max : Nat)
  | explain (identifier : String)
  | schema (kind : Schema.Kind)
  deriving DecidableEq, Repr

structure Options where
  policy : String := "deny.toml"
  config : String := "denylint.toml"
  overrides : Settings.Overrides := {}
  logLevel : String := "warn"
  deriving DecidableEq, Repr, Inhabited

inductive Request where
  | run (options : Options) (command : Command)
  | information (what : Shown)
  deriving DecidableEq, Repr

def globalOptions : List OptionSpec := [
  { name := "policy" },
  { name := "config" },
  { name := "profile" },
  { name := "fail-on" },
  { name := "max-findings", accepts := fun s => (findingsNumber? s).isSome },
  { name := "log-level" }]

def front : Grammar := ⟨globalOptions, [], true⟩

def defaultReport : String := "artifacts/denylint/report.json"

def defaultMarkdown : String := "artifacts/denylint/comment.md"

/-- The options and words of each command, and the command that they make. -/
def commands : List (String × Grammar × (Given → Command)) := [
  ("check",
    ⟨globalOptions ++ [{ name := "report-out" }, { name := "write-markdown", takesValue := false },
      { name := "markdown-out" }], [], false⟩,
    fun g => .check ((g.options.lookup "report-out").getD defaultReport)
      (g.options.lookup "write-markdown").isSome
      ((g.options.lookup "markdown-out").getD defaultMarkdown)),
  ("md",
    ⟨globalOptions ++ [{ name := "report" }, { name := "output", letter := some 'o' }], [], false⟩,
    fun g => .markdown ((g.options.lookup "report").getD defaultReport) (g.options.lookup "output")),
  ("annotations",
    ⟨globalOptions ++ [{ name := "report" },
      { name := "max", accepts := fun s => (annotationsNumber? s).isSome }], [], false⟩,
    fun g => .annotations ((g.options.lookup "report").getD defaultReport)
      (((g.options.lookup "max").bind annotationsNumber?).getD 10)),
  ("explain",
    ⟨globalOptions, [{ name := "IDENTIFIER", required := true }], false⟩,
    fun g => .explain (g.words.headD "")),
  ("schema",
    ⟨globalOptions, [⟨"KIND", false, fun s => (Schema.Kind.ofName? s).isSome⟩], false⟩,
    fun g => .schema ((g.words.head?.bind Schema.Kind.ofName?).getD .config))]

/-- The global options that are given somewhere. -/
def optionsOf (given : List (String × String)) : Options where
  policy := (given.lookup "policy").getD "deny.toml"
  config := (given.lookup "config").getD "denylint.toml"
  overrides := {
    profile := given.lookup "profile"
    failOn := given.lookup "fail-on"
    maxFindings := (given.lookup "max-findings").bind findingsNumber? }
  logLevel := (given.lookup "log-level").getD "warn"

def helpOn : List String → Except UsageFault Request
  | [] => .ok (.information .help)
  | word :: _ =>
    if word = "help" ∨ (commands.lookup word).isSome then .ok (.information .help)
    else .error (.unknownCommand word)

def readCommand (given : Given) (word : String) (rest : List String) : Except UsageFault Request :=
  match commands.lookup word with
  | some (grammar, command) =>
    match grammar.read {} rest with
    | .ok (.finished own) => .ok (.run (optionsOf (own.options ++ given.options)) (command own))
    | .ok (.shown what) => .ok (.information what)
    | .ok (.command _ word _) => .error (.unexpectedWord word)
    | .error fault => .error fault
  | none => if word = "help" then helpOn rest else .error (.unknownCommand word)

def Request.ofArguments (args : List String) : Except UsageFault Request :=
  match front.read {} args with
  | .ok (.command given word rest) => readCommand given word rest
  | .ok (.shown what) => .ok (.information what)
  | .ok (.finished _) => .error .missingCommand
  | .error fault => .error fault

end PolicyLint.CommandLine
