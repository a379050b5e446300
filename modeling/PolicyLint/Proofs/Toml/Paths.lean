import PolicyLint.Proofs.Toml.DistinctKeys

/-!
# Places inside a tree

A step goes to the value of a field or to an element of an array. Records may be written as arrays of their
fields in order, so a step to a field knows the names of all fields: an array counts as the table in which
each element has the name of its field.
-/
namespace PolicyLint.Toml
open Text
set_option autoImplicit false

namespace Entries

/-- Names for the elements of an array, in order. Elements without a name are left out. -/
def label : List String → List Node → Entries
  | name :: names, node :: nodes => (⟨name, ⟨0, 0⟩⟩, node) :: label names nodes
  | _, _ => []

theorem names_label (names : List String) (nodes : List Node) :
    ((label names nodes).map fun e => e.1.name) <+: names := by
  induction names generalizing nodes with
  | nil => exact List.nil_prefix
  | cons name names ih =>
    cases nodes with
    | nil => exact List.nil_prefix
    | cons node nodes => exact List.cons_prefix_cons.mpr ⟨rfl, ih nodes⟩

theorem mem_nodes_of_mem_label {names : List String} {nodes : List Node} {e : Key × Node}
    (h : e ∈ label names nodes) : e.2 ∈ nodes := by
  induction names generalizing nodes with
  | nil => cases h
  | cons name names ih =>
    cases nodes with
    | nil => cases h
    | cons node nodes =>
      rcases List.mem_cons.mp h with rfl | h
      · exact List.mem_cons_self
      · exact List.mem_cons_of_mem _ (ih h)

theorem find?_cons (name : String) (e : Key × Node) (es : Entries) :
    find? name (e :: es) = if e.1.name = name then some e.2 else find? name es := by
  rw [find?, List.find?_cons]
  split
  · rename_i h
    rw [if_pos (beq_iff_eq.mp h), Option.map_some]
  · rename_i h
    rw [if_neg (ne_of_beq_false h), find?]

theorem replace_cons_of_eq {name : String} {e : Key × Node} (h : e.1.name = name) (node : Node)
    (es : Entries) : replace name node (e :: es) = (e.1, node) :: replace name node es := by
  rw [replace, List.map_cons, beq_iff_eq.mpr h, if_pos rfl, replace]

theorem replace_cons_of_ne {name : String} {e : Key × Node} (h : e.1.name ≠ name) (node : Node)
    (es : Entries) : replace name node (e :: es) = e :: replace name node es := by
  rw [replace, List.map_cons, beq_false_of_ne h, if_neg Bool.false_ne_true, replace]

theorem find?_eq_none_iff {name : String} {es : Entries} :
    es.find? name = none ↔ ∀ e ∈ es, e.1.name ≠ name := by
  rw [find?, Option.map_eq_none_iff, List.find?_eq_none]
  apply forall₂_congr
  intro e _
  rw [beq_iff_eq]

theorem replace_eq_self {name : String} {es : Entries} (h : ∀ e ∈ es, e.1.name ≠ name) (node : Node) :
    es.replace name node = es := by
  induction es with
  | nil => rfl
  | cons e es ih =>
    rw [List.forall_mem_cons] at h
    rw [replace_cons_of_ne h.1, ih h.2]

/-- The entries before and behind the one with a name. -/
theorem exists_split {name : String} {es : Entries} {node : Node}
    (hNames : (es.map fun e => e.1.name).Nodup) (hFind : es.find? name = some node) :
    ∃ front key back, es = front ++ (key, node) :: back ∧ key.name = name ∧
      (∀ e ∈ front ++ back, e.1.name ≠ name) ∧
        ∀ node', es.replace name node' = front ++ (key, node') :: back := by
  induction es with
  | nil => cases hFind
  | cons e es ih =>
    rw [List.map_cons, List.nodup_cons] at hNames
    rw [find?_cons] at hFind
    split at hFind
    · rename_i hName
      obtain rfl := Option.some.inj hFind
      have hBack : ∀ f ∈ es, f.1.name ≠ name := fun f hf hEq =>
        hNames.1 (List.mem_map.mpr ⟨f, hf, hEq.trans hName.symm⟩)
      refine ⟨[], e.1, es, rfl, hName, hBack, fun node' => ?_⟩
      rw [replace_cons_of_eq hName, replace_eq_self hBack]
      rfl
    · rename_i hName
      obtain ⟨front, key, back, rfl, hKey, hOthers, hReplace⟩ := ih hNames.2 hFind
      refine ⟨e :: front, key, back, rfl, hKey, List.forall_mem_cons.mpr ⟨hName, hOthers⟩, fun node' => ?_⟩
      rw [replace_cons_of_ne hName, hReplace]
      rfl

theorem find?_of_mem {key : Key} {node : Node} {es : Entries} (hNames : (es.map fun e => e.1.name).Nodup)
    (hMem : (key, node) ∈ es) : es.find? key.name = some node := by
  induction es with
  | nil => cases hMem
  | cons e es ih =>
    rw [List.map_cons, List.nodup_cons] at hNames
    rw [find?_cons]
    rcases List.mem_cons.mp hMem with rfl | hMem
    · exact if_pos rfl
    · rw [if_neg fun hEq => hNames.1 (List.mem_map.mpr ⟨_, hMem, hEq.symm⟩)]
      exact ih hNames.2 hMem

theorem find?_replace {name : String} {es : Entries} {node : Node} (h : es.find? name = some node)
    (node' : Node) : (es.replace name node').find? name = some node' := by
  induction es with
  | nil => cases h
  | cons e es ih =>
    rw [find?_cons] at h
    split at h
    · rename_i hName
      rw [replace_cons_of_eq hName, find?_cons, if_pos hName]
    · rename_i hName
      rw [replace_cons_of_ne hName, find?_cons, if_neg hName]
      exact ih h

theorem find?_replace_of_ne {name other : String} (h : other ≠ name) (es : Entries) (node : Node) :
    (es.replace name node).find? other = es.find? other := by
  induction es with
  | nil => rfl
  | cons e es ih =>
    by_cases hName : e.1.name = name
    · have hOther : e.1.name ≠ other := fun hEq => h (hEq.symm.trans hName)
      rw [replace_cons_of_eq hName, find?_cons, find?_cons, if_neg hOther, if_neg hOther]
      exact ih
    · rw [replace_cons_of_ne hName, find?_cons, find?_cons]
      split
      · rfl
      · exact ih

/-- The entries with some names. -/
def select (names : List String) (es : Entries) : Entries :=
  List.filter (fun e : Key × Node => names.contains e.1.name) es

theorem select_cons_of_mem {names : List String} {e : Key × Node} (h : e.1.name ∈ names) (es : Entries) :
    select names (e :: es) = e :: select names es :=
  List.filter_cons_of_pos (List.contains_iff_mem.mpr h)

theorem select_cons_of_not_mem {names : List String} {e : Key × Node} (h : e.1.name ∉ names)
    (es : Entries) : select names (e :: es) = select names es :=
  List.filter_cons_of_neg fun hName => h (List.contains_iff_mem.mp hName)

theorem select_replace {names : List String} {name : String} (h : name ∉ names) (es : Entries)
    (node : Node) : (es.replace name node).select names = es.select names := by
  induction es with
  | nil => rfl
  | cons e es ih =>
    by_cases hName : e.1.name = name
    · have hOther : e.1.name ∉ names := hName ▸ h
      rw [replace_cons_of_eq hName, select_cons_of_not_mem (e := (e.1, node)) hOther,
        select_cons_of_not_mem hOther, ih]
    · rw [replace_cons_of_ne hName]
      by_cases hMem : e.1.name ∈ names
      · rw [select_cons_of_mem hMem, select_cons_of_mem hMem, ih]
      · rw [select_cons_of_not_mem hMem, select_cons_of_not_mem hMem, ih]

theorem select_erase {names : List String} {name : String} (h : name ∉ names) (es : Entries) :
    (es.erase name).select names = es.select names := by
  rw [select, erase, List.filter_filter]
  apply List.filter_congr
  intro e _
  rw [Bool.and_eq_left_iff_imp]
  intro hName
  rw [bne_iff_ne]
  rintro rfl
  exact h (List.contains_iff_mem.mp hName)

theorem mem_replace {name : String} {node : Node} {es : Entries} {e : Key × Node}
    (h : e ∈ es.replace name node) : (e.1.name = name ∧ e.2 = node) ∨ e ∈ es := by
  obtain ⟨f, hf, rfl⟩ := List.mem_map.mp h
  split
  · rename_i hName
    exact .inl ⟨beq_iff_eq.mp hName, rfl⟩
  · exact .inr hf

theorem mem_of_mem_erase {name : String} {es : Entries} {e : Key × Node} (h : e ∈ es.erase name) : e ∈ es :=
  (List.mem_filter.mp h).1

/-- Replacing a labelled value is replacing the element. -/
theorem label_set {names : List String} (hNames : names.Nodup) (nodes : List Node) (name : String)
    (node : Node) : label names (nodes.set (names.idxOf name) node) =
      (label names nodes).replace name node := by
  induction names generalizing nodes with
  | nil => rfl
  | cons n names ih =>
    rw [List.nodup_cons] at hNames
    cases nodes with
    | nil => rfl
    | cons first nodes =>
      rw [label, List.idxOf_cons]
      by_cases hName : n = name
      · have hOthers : ∀ e ∈ label names nodes, e.1.name ≠ name := fun e he hEq =>
          hNames.1 ((names_label names nodes).subset (hName ▸ hEq ▸ List.mem_map_of_mem he))
        rw [beq_iff_eq.mpr hName, cond_true, List.set_cons_zero, label, replace_cons_of_eq hName,
          replace_eq_self hOthers]
      · rw [beq_false_of_ne hName, cond_false, List.set_cons_succ, label, replace_cons_of_ne hName,
          ih hNames.2]

end Entries

/-- The entries of a value that is read as a record with these fields. -/
def Node.members (names : List String) : Node → Entries
  | .table _ _ es => es
  | .array _ _ items => Entries.label names items
  | _ => []

inductive Step where
  | field (names : List String) (name : String)
  | item (index : Nat)

abbrev Path := List Step

namespace Node

def child? : Node → Step → Option Node
  | node, .field names name => (node.members names).find? name
  | .array _ _ items, .item index => items[index]?
  | _, .item _ => none

def setChild : Node → Step → Node → Node
  | .table span form es, .field _ name, new => .table span form (Entries.replace name new es)
  | .array span ofTables items, .field names name, new =>
    .array span ofTables (items.set (names.idxOf name) new)
  | .array span ofTables items, .item index, new => .array span ofTables (items.set index new)
  | node, _, _ => node

def at? : Node → Path → Option Node
  | node, [] => some node
  | node, step :: path => (node.child? step).bind fun child => child.at? path

/-- Puts another value at a place, if there is one. -/
def setAt : Node → Path → Node → Node
  | _, [], new => new
  | node, step :: path, new =>
    match node.child? step with
    | some child => node.setChild step (child.setAt path new)
    | none => node

theorem at?_append (node : Node) (p q : Path) :
    node.at? (p ++ q) = (node.at? p).bind fun child => child.at? q := by
  induction p generalizing node with
  | nil => rfl
  | cons step p ih => simp only [List.cons_append, at?, Option.bind_assoc, ih]

theorem setAt_append {p : Path} {node child : Node} (h : node.at? p = some child) (q : Path) (new : Node) :
    node.setAt (p ++ q) new = node.setAt p (child.setAt q new) := by
  induction p generalizing node with
  | nil =>
    cases h
    rfl
  | cons step p ih =>
    obtain ⟨next, hNext, h⟩ := Option.bind_eq_some_iff.mp h
    simp only [List.cons_append, setAt, hNext, ih h]

theorem HasDistinctKeys.members {node : Node} (h : node.HasDistinctKeys) {names : List String}
    (hNames : names.Nodup) : (node.members names).AreDistinct := by
  cases node with
  | table span form es => exact Entries.areDistinct_iff.mp h
  | array span ofTables items =>
    refine ⟨hNames.sublist (Entries.names_label names items).sublist, fun e he => ?_⟩
    exact h.mem_items (Entries.mem_nodes_of_mem_label he)
  | string _ _ | integer _ _ | float _ _ | boolean _ _ | moment _ _ => exact Entries.areDistinct_nil

end Node

end PolicyLint.Toml
