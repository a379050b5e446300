import PolicyLint.Toml.Fault
import PolicyLint.Toml.Node

/-!
# Building tables

Adding values to tables by paths of keys. A dotted key may go through tables that have no header of their
own, and the one in which it ends counts from then on as made by dotted keys; nothing goes into an inline
table once it is closed. A header may go through any table, and through an array of tables into its last
one.
-/
namespace PolicyLint.Toml
open Text
set_option autoImplicit false

def duplicate (key : Key) : Fault := ⟨key.span, .duplicateKey⟩

/-- Whether a dotted key may add to a table of this form. -/
def Form.isOpen : Form → Bool
  | .implied | .dotted => true
  | .header | .inline => false

/-- A table without its place: how it came about and what it holds. -/
abbrev Held := Form × Entries

mutual

/-- Applies `change` to the table at the end of a path, making the tables on the way that do not exist. -/
def Entries.within (dotted : Bool) (change : Held → Except Fault Held) :
    (path : List Key) → Held → Except Fault Held
  | [], table => change table
  | key :: path, (own, entries) =>
    match entries.find? key.name with
    | none => do
      let form := if dotted then Form.dotted else Form.implied
      let (form, inner) ← Entries.within dotted change path (form, [])
      return (own, entries.insert key (.table key.span form inner))
    | some old => do
      return (own, entries.replace key.name (← Node.within dotted change key path old))

/-- As `Entries.within`, for the value that `key` already has. -/
def Node.within (dotted : Bool) (change : Held → Except Fault Held) (key : Key) :
    (path : List Key) → Node → Except Fault Node
  | path, .table span form inner =>
    if form = .inline then .error (duplicate key)
    else if dotted && !form.isOpen then .error (duplicate key)
    else (Entries.within dotted change path (form, inner)).map fun (form, es) => .table span form es
  | path, .array span true items =>
    match items.getLast? with
    | some (.table s form inner) =>
      (Entries.within dotted change path (form, inner)).map fun (form, es) =>
        .array span true (items.dropLast ++ [.table s form es])
    | _ => .error (duplicate key)
  | _, _ => .error (duplicate key)

end

/-- Changes what the table at the end of a path holds, on the way of headers. -/
def Entries.below (parents : List Key) (change : Entries → Except Fault Entries) (root : Entries) :
    Except Fault Entries :=
  (Entries.within false (fun (form, es) => (change es).map (form, ·)) parents (.header, root)).map Prod.snd

/-- Adds a new entry; the key must be new. -/
def Entries.add (key : Key) (node : Node) (entries : Entries) : Except Fault Entries :=
  match entries.find? key.name with
  | some _ => .error (duplicate key)
  | none => .ok (entries.insert key node)

/-- Assigns a value to a key, or to a dotted key, whose last table must be open. -/
def Entries.assign (path : List Key) (node : Node) (entries : Entries) : Except Fault Entries :=
  match path.dropLast, path.getLast? with
  | _, none => .ok entries
  | [], some key => entries.add key node
  | parent :: parents, some key =>
    (Entries.within true
      (fun (form, inner) =>
        if form.isOpen then (inner.add key node).map (.dotted, ·) else .error (duplicate key))
      (parent :: parents) (.header, entries)).map Prod.snd

end PolicyLint.Toml
