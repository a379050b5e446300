import PolicyLint.Toml.Meaning

/-!
# Reading a TOML document

Statements are taken up in order. The assignments behind a header are gathered first and put into the tree
when the next header comes, so that a table may be opened before its place in the tree is final.
-/
namespace PolicyLint.Toml
open Text
set_option autoImplicit false

/-- A header whose table is being gathered. -/
structure OpenHeader where
  span : Span
  ofTables : Bool
  parents : List Key
  key : Key

/-- The tree so far and the table being gathered; without a header that is the document itself. -/
structure Draft where
  root : Entries
  header : Option OpenHeader
  current : Entries

namespace Draft

def empty : Draft := ⟨[], none, []⟩

/-- The first start and the last end among some values. -/
def spanOf (nodes : List Node) (otherwise : Span) : Span :=
  match nodes.head?, nodes.getLast? with
  | some a, some b => ⟨a.span.start, b.span.stop⟩
  | _, _ => otherwise

/-- Adds a table to an array of tables, which it may found. -/
def pushTable (h : OpenHeader) (table : Node) (entries : Entries) : Except Fault Entries :=
  match entries.find? h.key.name with
  | none => .ok (entries.insert h.key (.array h.span true [table]))
  | some (.array _ true items) =>
    let items := items ++ [table]
    .ok (entries.replace h.key.name (.array (spanOf items h.span) true items))
  | some _ => .error (duplicate h.key)

/-- Puts the gathered table into the tree. -/
def close (d : Draft) : Except Fault Entries :=
  match d.header with
  | none => .ok d.current
  | some h =>
    let table : Node := .table h.span .header d.current
    d.root.below h.parents fun entries =>
      if h.ofTables then pushTable h table entries else entries.add h.key table

/-- Opens a table. One that exists only because of tables inside it is taken out of the tree and
goes on with what it holds. -/
def openTable (span : Span) (ofTables : Bool) (parents : List Key) (key : Key) (root : Entries) :
    Except Fault Draft :=
  let header : OpenHeader := ⟨span, ofTables, parents, key⟩
  if ofTables then .ok ⟨root, some header, []⟩
  else do
    let held ← lookup parents root
    match held with
    | none => return ⟨← root.below parents .ok, some header, []⟩
    | some (.table _ .implied inner) =>
      return ⟨← root.below parents fun es => .ok (es.erase key.name), some header, inner⟩
    | some _ => throw (duplicate key)
where
  /-- The value that the key already has below its parents. -/
  lookup (parents : List Key) (root : Entries) : Except Fault (Option Node) :=
    match parents with
    | [] => .ok (root.find? key.name)
    | p :: ps =>
      match root.find? p.name with
      | none => .ok none
      | some (.table _ form inner) => if form = .inline then .error (duplicate p) else lookup ps inner
      | some (.array _ true items) =>
        match items.getLast? with
        | some (.table _ _ inner) => lookup ps inner
        | _ => .error (duplicate p)
      | some _ => .error (duplicate p)

/-- Takes up a statement. The table gathered so far is put into the tree before the keys of the next
header are looked at. -/
def step (d : Draft) : Statement → Except Fault Draft
  | .assign path value => do
    let path ← path.mapM Token.key
    let node ← value.node
    return { d with current := ← Entries.assign path node d.current }
  | .header span ofTables path => do
    let root ← d.close
    let path ← path.mapM Token.key
    match path.getLast? with
    | none => return d
    | some key => openTable span ofTables path.dropLast key root

end Draft

def parse (s : String) : Except Fault Node := do
  let stop := byteLength s.toList
  let tokens := Token.ofText s
  let written ← statements (.ofTokens stop tokens) tokens
  let draft ← written.foldlM Draft.step .empty
  return .table ⟨0, stop⟩ .header (← draft.close)

end PolicyLint.Toml
