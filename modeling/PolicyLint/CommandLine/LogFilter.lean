import PolicyLint.CommandLine.Log
import PolicyLint.Text.Blank
import PolicyLint.Text.Bytes
import PolicyLint.Text.Split

/-!
# Log filters

Which events become lines. A filter is a list of directives, each a level for the targets that start with a
name, for the events that have a field, or for all. The most exact directive that fits an event decides.
The program opens no spans, so a directive about spans, or about the value of a field of one, lets nothing
through.
-/
namespace PolicyLint.CommandLine
open Text
set_option autoImplicit false

/-- A field that an event or span must have, and perhaps the value it must have there. -/
structure FieldTest where
  name : String
  value : Option String
  deriving DecidableEq, Repr

structure Directive where
  target : Option String := none
  span : Option String := none
  field : Option FieldTest := none
  verbosity : Nat := Level.trace.verbosity
  deriving DecidableEq, Repr

inductive DirectiveFault where
  | form
  | level
  deriving DecidableEq, Repr

def DirectiveFault.message : DirectiveFault → String
  | form => "invalid filter directive"
  | level => "error parsing level filter: expected one of \"off\", \"error\", \"warn\", \"info\", \"debug\", " ++
    "\"trace\", or a number 0-5"

namespace Directive

/-- A number from zero to five, perhaps behind a plus sign. -/
def levelNumber? (cs : List Char) : Option Nat :=
  let ds := if cs.head? = some '+' then cs.drop 1 else cs
  let n := ds.foldl (fun n c => n * 10 + (c.toNat - 48)) 0
  if !ds.isEmpty && ds.all Char.isDigit && n ≤ Level.trace.verbosity then some n else none

/-- A level by its name or its number. -/
def verbosity? (cs : List Char) : Option Nat :=
  let lower := String.ofList (cs.map Char.toLower)
  match levelNumber? cs with
  | some n => some n
  | none =>
    if lower = "off" then some 0
    else
      (Level.all.find? fun l => String.ofList (l.name.toList.map Char.toLower) == lower).map
        Level.verbosity

/-- The level behind an equals sign; none at all stands for the most verbose. -/
def withLevel (d : Directive) (cs : List Char) : Except DirectiveFault Directive :=
  if cs.isEmpty then .ok d
  else
    match verbosity? cs with
    | some v => .ok { d with verbosity := v }
    | none => .error .level

/-- Blocks of symbols and punctuation beyond ASCII. -/
def symbolBlocks : List (Nat × Nat) := [
  (0x80, 0xA9), (0xAB, 0xB1), (0xB6, 0xB8), (0x2000, 0x206F), (0x20A0, 0x20CF), (0x2190, 0x245F),
  (0x2500, 0x2BFF), (0x3000, 0x3004), (0x3008, 0x3020), (0xE000, 0xF8FF), (0x1F000, 0x1F0FF),
  (0x1F300, 0x1FAFF)]

/-- What a target may start with: a letter or digit, a hyphen, a colon or an underscore. -/
def startsTarget (c : Char) : Bool :=
  c.isAlphanum || c == '-' || c == ':' || c == '_' ||
    (0x80 ≤ c.toNat && !symbolBlocks.any fun (low, high) => low ≤ c.toNat && c.toNat ≤ high)

def slice (cs : List Char) (start stop : Nat) : List Char := (cs.take stop).drop start

/-- A field with an equals sign is one with a value. -/
def fieldTest (cs : List Char) : FieldTest :=
  match splitAt (· == '=') cs with
  | name :: value :: _ => ⟨String.ofList name, some (String.ofList value)⟩
  | _ => ⟨String.ofList cs, none⟩

/-- What follows the brackets of a directive, from the place `start` on: nothing, or a level. -/
def readTail (d : Directive) (whole cut : List Char) (start : Nat) : Except DirectiveFault Directive :=
  match cut.drop start with
  | [] => .ok d
  | '=' :: _ => d.withLevel (whole.drop (start + 1))
  | _ => .error .form

/-- The field between braces, which end at the first closing one, and the closing bracket. -/
def readField (d : Directive) (whole cut : List Char) (start : Nat) : Except DirectiveFault Directive :=
  match cutAt (· == '}') (cut.drop start) with
  | some (inner, ']' :: _) =>
    if inner.isEmpty then .error .form
    else
      let stop := start + inner.length
      readTail { d with field := some (fieldTest (slice whole start stop)) } whole cut (stop + 2)
  | _ => .error .form

/-- A span between brackets: its name, a field in braces, or both. -/
def readSpan (d : Directive) (whole cut : List Char) (start : Nat) : Except DirectiveFault Directive :=
  let name := (cut.drop start).takeWhile fun c => c != ']' && c != '{'
  let stop := start + name.length
  let written := String.ofList (slice whole start stop)
  match cut.drop stop with
  | ']' :: _ => readTail { d with span := some written } whole cut (stop + 1)
  | '{' :: _ =>
    readField { d with span := if written.isEmpty then none else some written } whole cut (stop + 1)
  | _ => .error .form

/-- Reads a directive: a level, a target, or a target and a span with their level. Where it is cut is seen
in the text without the blanks around it; the pieces are those of the text `whole` at the same places. -/
def read (whole : List Char) : Except DirectiveFault Directive :=
  let cut := trimChars whole
  match cut with
  | [] => .error .form
  | '[' :: _ => readSpan {} whole cut 1
  | c :: _ =>
    if !startsTarget c then .error .form
    else
      let n := (cut.takeWhile fun c => c != '=' && c != '[').length
      let target := some (String.ofList (slice whole 0 n))
      match cut.drop n with
      | [] =>
        match verbosity? whole with
        | some v => .ok { verbosity := v }
        | none => .ok { target := some (String.ofList whole) }
      | '=' :: _ => withLevel { target := target } (whole.drop (n + 1))
      | _ => readSpan { target := target } whole cut (n + 1)

/-- Whether a directive can let an event through, where there are no spans. -/
def isAboutEvents (d : Directive) : Bool := d.span.isNone && d.field.all (·.value.isNone)

/-- Whether a directive is about an event. -/
def fits (d : Directive) (e : Event) : Bool :=
  d.isAboutEvents && d.target.all (fun start => start.toList.isPrefixOf e.target.name.toList) &&
    d.field.all fun f => e.fieldNames.contains f.name

/-- How exactly a directive names its targets: in bytes, with a target at all for one more. -/
def targetLength (d : Directive) : Nat := (d.target.map fun start => start.utf8ByteSize + 1).getD 0

/-- Whether a directive is at least as exact as another: by its target, then by having a field, then by
the order of the fields' names. -/
def isAtLeast (d other : Directive) : Bool :=
  if d.targetLength ≠ other.targetLength then other.targetLength < d.targetLength
  else
    match d.field, other.field with
    | some f, some g => !before f.name g.name
    | none, some _ => false
    | _, none => true

end Directive

abbrev Filter := List Directive

namespace Filter

def default : Filter := [{ verbosity := Level.error.verbosity }]

def pieces (s : String) : List (List Char) := (splitAt (· == ',') s.toList).filter fun p => !p.isEmpty

/-- The pieces that are directives make the filter. -/
def ofText (s : String) : Filter :=
  match (pieces s).filterMap fun p => (Directive.read p).toOption with
  | [] => default
  | ds => ds

def noteOf (piece : List Char) : String :=
  match Directive.read piece with
  | .ok _ => ""
  | .error fault => "ignoring `" ++ String.ofList piece ++ "`: " ++ fault.message ++ "\n"

def notes (s : String) : String := String.join ((pieces s).map noteOf)

/-- The verbosity for an event: that of the last of the most exact directives that fit. -/
def verbosityOf (f : Filter) (e : Event) : Nat :=
  let best := f.foldl (fun best d =>
    if !d.fits e then best
    else
      match best with
      | some b => if d.isAtLeast b then some d else best
      | none => some d) none
  (best.map Directive.verbosity).getD 0

def admits (f : Filter) (e : Event) : Bool := e.level.verbosity ≤ f.verbosityOf e

end Filter

end PolicyLint.CommandLine
