import PolicyLint.Decimal.Bounds
import PolicyLint.Decimal.Form
import PolicyLint.Text.Mismatch
import PolicyLint.Toml.Node

/-!
# Typed reading of document trees

Turning nodes into values of a wanted type. A record is written as a table, whose entries are read in byte
order of their keys, or as an array that holds its fields in order; fields that are not there keep their
initial value. A choice is a text, or a table whose only key names it.
-/
namespace PolicyLint.Toml
open Text
set_option autoImplicit false

structure TypeFault where
  span : Span
  mismatch : Mismatch
  deriving DecidableEq, Repr, Inhabited

def TypeFault.message (f : TypeFault) : String := f.mismatch.message

abbrev Decode (α : Type) := Node → Except TypeFault α

/-- The key under which a date or time shows where a table is wanted. -/
def momentKey : String := "$__toml_private_datetime"

/-- Whether a whole number fits into a word of 64 bits, with or without a sign. -/
def fitsWord64 (n : Int) : Bool :=
  Decimal.fitsSigned Decimal.half64 n || Decimal.fitsUnsigned Decimal.word64 n

/-- How a message shows a node; numbers out of range are faults of their own. -/
def Node.found : Node → Except Mismatch Found
  | .string _ s => .ok (.string s)
  | .integer _ (some n) =>
    if fitsWord64 n then .ok (.integer n)
    else .ok (.wideInteger n (Decimal.fitsSigned Decimal.half128 n))
  | .integer _ none => .error .integerOverflow
  | .float _ (some x) => .ok (.float x.pointed)
  | .float _ none => .error .floatOverflow
  | .boolean _ b => .ok (.boolean b)
  | .moment _ _ | .table _ _ _ => .ok .map
  | .array _ _ _ => .ok .sequence

def wrongType {α : Type} (wanted : String) (node : Node) : Except TypeFault α :=
  match node.found with
  | .ok found => .error ⟨node.span, .invalidType found wanted⟩
  | .error mismatch => .error ⟨node.span, mismatch⟩

mutual

/-- A value that nobody reads must still have its numbers in range. -/
def Node.checkRange : Node → Except TypeFault Unit
  | .array _ _ items => checkItems items
  | .table _ _ entries => checkEntries entries
  | node =>
    match node.found with
    | .ok _ => .ok ()
    | .error mismatch => .error ⟨node.span, mismatch⟩

def checkItems : List Node → Except TypeFault Unit
  | [] => .ok ()
  | node :: rest => do
    node.checkRange
    checkItems rest

def checkEntries : List (Key × Node) → Except TypeFault Unit
  | [] => .ok ()
  | (_, node) :: rest => do
    node.checkRange
    checkEntries rest

end

namespace Decode

def text : Decode String
  | .string _ s => .ok s
  | node => wrongType "a string" node

def boolean : Decode Bool
  | .boolean _ b => .ok b
  | node => wrongType "a boolean" node

/-- A whole number that fits; another one is a wrong value, one beyond 64 bits a wrong type. -/
def integerIn (fits : Int → Bool) (wanted : String) : Decode Int
  | .integer span (some n) =>
    if fits n then .ok n
    else if fitsWord64 n then .error ⟨span, .invalidValue (.integer n) wanted⟩
    else wrongType wanted (.integer span (some n))
  | node => wrongType wanted node

def natural32 : Decode Nat := fun node =>
  (integerIn (Decimal.fitsUnsigned Decimal.word32) "u32" node).map Int.toNat

def signed64 : Decode Int := integerIn (Decimal.fitsSigned Decimal.half64) "i64"

/-- Whole numbers of 64 bits count as numbers too. -/
def number : Decode Decimal.Binary64
  | .float _ (some x) => .ok x
  | .integer span (some n) =>
    if fitsWord64 n then .ok (.ofInt n) else wrongType "f64" (.integer span (some n))
  | node => wrongType "f64" node

def spanned {α : Type} (d : Decode α) : Decode (Spanned α) := fun node =>
  (d node).map (⟨·, node.span⟩)

def optional {α : Type} (d : Decode α) : Decode (Option α) := fun node => (d node).map some

def list {α : Type} (d : Decode α) : Decode (List α)
  | .array _ _ items => items.mapM d
  | node => wrongType "a sequence" node

/-- One of some names. The `known` names are those a message lists. -/
def choice {α : Type} (known : List String) (names : List (String × α)) : Decode α
  | .string span s => pick span s
  | .table span _ entries =>
    match entries with
    | [] => .error ⟨span, .noElement⟩
    | [(key, node)] => do
      let a ← pick key.span key.name
      match node with
      | .table _ _ [] | .array _ _ [] => return a
      | .table span _ _ => throw ⟨span, .notEmptyTable⟩
      | .array span _ _ => throw ⟨span, .notEmptyArray⟩
      | other => throw ⟨other.span, .notTable other.kindName⟩
    | _ => .error ⟨span, .severalElements⟩
  | node => .error ⟨node.span, .notStringOrTable⟩
where
  pick (span : Span) (s : String) : Except TypeFault α :=
    match names.lookup s with
    | some a => .ok a
    | none => .error ⟨span, .unknownVariant s known⟩

/-- A field of a record: its key and what its value changes. -/
structure Field (σ : Type) where
  name : String
  read : Node → σ → Except TypeFault σ

/-- The field that sets a part of the record to what `d` reads. -/
def field {σ α : Type} (name : String) (d : Decode α) (set : σ → α → σ) : Field σ :=
  ⟨name, fun node record => (d node).map (set record)⟩

/-- A record type: its name in messages, its fields in order, what it is before any field is read, and
whether further keys are refused. -/
structure Record (σ : Type) where
  wanted : String
  fields : List (Field σ)
  initial : σ
  strict : Bool

namespace Record

variable {σ : Type}

def names (r : Record σ) : List String := r.fields.map Field.name

def unknown (r : Record σ) (span : Span) (name : String) : TypeFault :=
  ⟨span, .unknownField name r.names⟩

def readEntry (r : Record σ) (record : σ) (entry : Key × Node) : Except TypeFault σ :=
  match r.fields.find? (fun f => f.name == entry.1.name) with
  | some f => f.read entry.2 record
  | none =>
    if r.strict then .error (r.unknown entry.1.span entry.1.name)
    else do
      entry.2.checkRange
      return record

def readEntries (r : Record σ) (entries : Entries) : Except TypeFault σ :=
  entries.foldlM r.readEntry r.initial

/-- Takes up the elements of an array as fields in order; elements beyond the last field are ignored. -/
def readItems (r : Record σ) (items : List Node) : Except TypeFault σ :=
  (r.fields.zip items).foldlM (fun record (f, node) => f.read node record) r.initial

/-- A date or time counts as a table with a key of its own. -/
def read (r : Record σ) : Decode σ
  | .table _ _ entries => r.readEntries entries
  | .array _ _ items => r.readItems items
  | .moment span _ => if r.strict then .error (r.unknown span momentKey) else .ok r.initial
  | node => wrongType r.wanted node

end Record

end Decode

end PolicyLint.Toml
