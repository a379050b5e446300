import PolicyLint.Decimal.Bounds
import PolicyLint.Json.Value
import PolicyLint.Text.Mismatch

/-!
# Typed reading of JSON

Turning JSON values into values of a wanted type. A record is written as an object, whose members are read
in byte order of their keys, or as an array that holds its fields in order. A choice is a text, or an object
whose only key names it and whose value is null.
-/
namespace PolicyLint.Json
open Text
set_option autoImplicit false

abbrev Decode (α : Type) := Value → Except Mismatch α

def Value.found : Value → Found
  | .null => .null
  | .boolean b => .boolean b
  | .number (.natural n) => .integer n
  | .number (.negative n) => .integer (Int.negSucc n)
  | .number (.float x) => .float x.compact
  | .string s => .string s
  | .array _ => .sequence
  | .object _ => .map

def wrongType {α : Type} (wanted : String) (v : Value) : Except Mismatch α :=
  .error (.invalidType v.found wanted)

namespace Decode

def text : Decode String
  | .string s => .ok s
  | v => wrongType "a string" v

/-- A whole number from zero up, below a limit. -/
def naturalBelow (limit : Nat) (wanted : String) : Decode Nat
  | .number (.natural n) =>
    if n < limit then .ok n else .error (.invalidValue (.integer n) wanted)
  | .number (.negative n) => .error (.invalidValue (.integer (Int.negSucc n)) wanted)
  | v => wrongType wanted v

def natural32 : Decode Nat := naturalBelow Decimal.word32 "u32"

def natural64 : Decode Nat := naturalBelow Decimal.word64 "u64"

/-- Null counts as absent. -/
def optional {α : Type} (d : Decode α) : Decode (Option α)
  | .null => .ok none
  | v => (d v).map some

def list {α : Type} (d : Decode α) : Decode (List α)
  | .array items => items.mapM d
  | v => wrongType "a sequence" v

def choice {α : Type} (names : List (String × α)) : Decode α
  | .string s => pick s
  | .object [(key, v)] => do
    let a ← pick key
    match v with
    | .null => return a
    | other => wrongType "unit" other
  | .object _ => .error (.invalidValue .map "map with a single key")
  | v => wrongType "string or map" v
where
  pick (s : String) : Except Mismatch α :=
    match names.lookup s with
    | some a => .ok a
    | none => .error (.unknownVariant s (names.map Prod.fst))

/-- Whether a field must be there: always, at its place in an array, or never. -/
inductive Presence where
  | required | positional | defaulted
  deriving DecidableEq, Repr

/-- A field of a record: its key and what its value changes. -/
structure Field (σ : Type) where
  name : String
  presence : Presence
  read : Value → σ → Except Mismatch σ

/-- The field that sets a part of the record to what `d` reads. -/
def field {σ α : Type} (name : String) (presence : Presence) (d : Decode α) (set : σ → α → σ) :
    Field σ :=
  ⟨name, presence, fun v record => (d v).map (set record)⟩

/-- A record type: its name in messages, its fields in order, and what it is before any field is read. -/
structure Record (σ : Type) where
  wanted : String
  fields : List (Field σ)
  initial : σ

namespace Record

variable {σ : Type}

/-- Takes up one member of an object; members without a field are passed over. -/
def readMember (r : Record σ) (record : σ) (member : String × Value) : Except Mismatch σ :=
  match r.fields.find? (fun f => f.name == member.1) with
  | some f => f.read member.2 record
  | none => .ok record

/-- The first field that must be there and is not. -/
def missing? (r : Record σ) (members : Members) : Option String :=
  (r.fields.find? fun f => f.presence == .required && (members.find? f.name).isNone).map Field.name

def readMembers (r : Record σ) (members : Members) : Except Mismatch σ := do
  let record ← List.foldlM r.readMember r.initial members
  match r.missing? members with
  | some name => throw (.missingField name)
  | none => return record

/-- The wanted type with its number of fields. -/
def sized (r : Record σ) : String :=
  r.wanted ++ " with " ++ toString r.fields.length ++ " elements"

/-- Takes up the elements of an array as fields in order, from field number `index` on; `length` is that of
the whole array. -/
def readItems (r : Record σ) (length : Nat) : (index : Nat) → List (Field σ) → List Value → σ →
    Except Mismatch σ
  | _, [], [], record => .ok record
  | _, [], _ :: _, _ => .error (.invalidLength length "fewer elements in array")
  | index, f :: fs, [], record =>
    if f.presence = .defaulted then readItems r length (index + 1) fs [] record
    else .error (.invalidLength index r.sized)
  | index, f :: fs, v :: vs, record => do
    let record ← f.read v record
    readItems r length (index + 1) fs vs record

def read (r : Record σ) : Decode σ
  | .object members => r.readMembers members
  | .array items => r.readItems items.length 0 r.fields items r.initial
  | v => wrongType r.wanted v

end Record

end Decode

end PolicyLint.Json
