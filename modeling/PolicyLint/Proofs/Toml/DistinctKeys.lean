import PolicyLint.Proofs.Outcome
import PolicyLint.Toml.Document

/-!
# Tables have distinct keys

No table of a tree that was read from a text has a key twice. Every change that statements make to the
tree keeps this: an entry is only inserted where its key is new, and a replaced value keeps its key.
-/
namespace PolicyLint.Toml
open Text
set_option autoImplicit false

def Node.IsScalar : Node → Prop
  | array _ _ _ | table _ _ _ => False
  | _ => True

/-- In no table inside the value a key stands twice. -/
inductive Node.HasDistinctKeys : Node → Prop
  | scalar {node : Node} (hScalar : node.IsScalar) : HasDistinctKeys node
  | array {span : Span} {ofTables : Bool} {items : List Node}
      (hItems : ∀ node ∈ items, HasDistinctKeys node) : HasDistinctKeys (.array span ofTables items)
  | table {span : Span} {form : Form} {entries : Entries}
      (hNames : (entries.map fun e => e.1.name).Nodup) (hValues : ∀ e ∈ entries, HasDistinctKeys e.2) :
      HasDistinctKeys (.table span form entries)

theorem Node.HasDistinctKeys.mem_items {span : Span} {ofTables : Bool} {items : List Node} {node : Node}
    (h : (Node.array span ofTables items).HasDistinctKeys) (hMem : node ∈ items) : node.HasDistinctKeys := by
  cases h with
  | scalar hScalar => cases hScalar
  | array hItems => exact hItems node hMem

namespace Entries

structure AreDistinct (es : Entries) : Prop where
  names : (es.map fun e => e.1.name).Nodup
  values : ∀ e ∈ es, e.2.HasDistinctKeys

theorem areDistinct_nil : AreDistinct [] := ⟨.nil, fun _ h => by cases h⟩

theorem areDistinct_iff {span : Span} {form : Form} {es : Entries} :
    (Node.table span form es).HasDistinctKeys ↔ AreDistinct es := by
  constructor
  · intro h
    cases h with
    | scalar hScalar => cases hScalar
    | table hNames hValues => exact ⟨hNames, hValues⟩
  · intro h
    exact .table h.names h.values

theorem mem_of_find? {name : String} {es : Entries} {node : Node} (h : es.find? name = some node) :
    ∃ key, key.name = name ∧ (key, node) ∈ es := by
  obtain ⟨⟨key, value⟩, hFind, rfl⟩ := Option.map_eq_some_iff.mp h
  have hName := List.find?_some hFind
  exact ⟨key, beq_iff_eq.mp hName, List.mem_of_find?_eq_some hFind⟩

theorem not_mem_of_find?_eq_none {name : String} {es : Entries} (h : es.find? name = none) :
    name ∉ es.map fun e => e.1.name := by
  intro hMem
  obtain ⟨e, he, hName⟩ := List.mem_map.mp hMem
  exact List.find?_eq_none.mp (Option.map_eq_none_iff.mp h) e he (beq_iff_eq.mpr hName)

theorem insert_perm (key : Key) (node : Node) (es : Entries) :
    (es.insert key node).Perm ((key, node) :: es) := by
  induction es with
  | nil => exact .refl _
  | cons e es ih =>
    rw [insert]
    split
    · exact .refl _
    · exact (ih.cons e).trans (.swap _ _ _)

theorem name_replaced (name : String) (node : Node) (e : Key × Node) :
    (if e.1.name == name then (e.1, node) else e).1.name = e.1.name := by
  split <;> rfl

theorem map_name_replace (name : String) (node : Node) (es : Entries) :
    ((es.replace name node).map fun e => e.1.name) = es.map fun e => e.1.name := by
  rw [replace, List.map_map]
  exact List.map_congr_left fun e _ => name_replaced name node e

namespace AreDistinct

variable {es es' : Entries} {key : Key} {name : String} {node : Node}

theorem insert (h : AreDistinct es) (hNew : es.find? key.name = none) (hNode : node.HasDistinctKeys) :
    AreDistinct (es.insert key node) := by
  have hPerm := insert_perm key node es
  refine ⟨(hPerm.map _).nodup_iff.mpr ?_, fun e he => ?_⟩
  · rw [List.map_cons, List.nodup_cons]
    exact ⟨not_mem_of_find?_eq_none hNew, h.names⟩
  · rcases List.mem_cons.mp (hPerm.mem_iff.mp he) with rfl | he
    · exact hNode
    · exact h.values e he

theorem replace (h : AreDistinct es) (hNode : node.HasDistinctKeys) :
    AreDistinct (es.replace name node) := by
  refine ⟨map_name_replace name node es ▸ h.names, fun e he => ?_⟩
  obtain ⟨f, hf, rfl⟩ := List.mem_map.mp he
  split
  · exact hNode
  · exact h.values f hf

theorem erase (h : AreDistinct es) (name : String) : AreDistinct (es.erase name) := by
  refine ⟨h.names.sublist (List.filter_sublist.map _), fun e he => ?_⟩
  exact h.values e (List.mem_filter.mp he).1

theorem find? (h : AreDistinct es) (hFind : es.find? name = some node) : node.HasDistinctKeys := by
  obtain ⟨key, -, hMem⟩ := mem_of_find? hFind
  exact h.values _ hMem

theorem add (h : AreDistinct es) (hNode : node.HasDistinctKeys) (hAdd : es.add key node = .ok es') :
    AreDistinct es' := by
  rw [Entries.add] at hAdd
  split at hAdd
  · cases hAdd
  · rename_i hNew
    cases hAdd
    exact h.insert hNew hNode

end AreDistinct

end Entries

/-- The entries of a held table that a change leaves distinct. -/
def KeepsDistinct (change : Held → Except Fault Held) : Prop :=
  ∀ form es form' es', change (form, es) = .ok (form', es') → Entries.AreDistinct es →
    Entries.AreDistinct es'

theorem Node.distinct_within {dotted : Bool} {change : Held → Except Fault Held} {key : Key}
    {path : List Key} (hPath : KeepsDistinct (Entries.within dotted change path)) {node node' : Node}
    (h : Node.within dotted change key path node = .ok node') (hNode : node.HasDistinctKeys) :
    node'.HasDistinctKeys := by
  rw [Node.within.eq_def] at h
  split at h
  · split at h
    · cases h
    · split at h
      · cases h
      · obtain ⟨⟨form', es⟩, hWithin, rfl⟩ := Outcome.map_eq_ok_iff.mp h
        exact Entries.areDistinct_iff.mpr (hPath _ _ _ _ hWithin (Entries.areDistinct_iff.mp hNode))
  · split at h
    · rename_i s form inner hLast
      obtain ⟨⟨form', es⟩, hWithin, rfl⟩ := Outcome.map_eq_ok_iff.mp h
      have hInner := hNode.mem_items (List.mem_of_getLast? hLast)
      refine .array fun item hItem => ?_
      rcases List.mem_append.mp hItem with hItem | hItem
      · exact hNode.mem_items (List.dropLast_subset _ hItem)
      · obtain rfl := List.mem_singleton.mp hItem
        exact Entries.areDistinct_iff.mpr (hPath _ _ _ _ hWithin (Entries.areDistinct_iff.mp hInner))
    · cases h
  · cases h

theorem Entries.keepsDistinct_within {dotted : Bool} {change : Held → Except Fault Held}
    (hChange : KeepsDistinct change) (path : List Key) :
    KeepsDistinct (Entries.within dotted change path) := by
  induction path with
  | nil =>
    intro form es form' es' h
    rw [Entries.within] at h
    exact hChange form es form' es' h
  | cons key path ih =>
    intro form es form' es' h hes
    rw [Entries.within] at h
    split at h
    · rename_i hNew
      obtain ⟨⟨inForm, inner⟩, hWithin, hPure⟩ := Outcome.bind_eq_ok_iff.mp h
      cases hPure
      exact hes.insert hNew (areDistinct_iff.mpr (ih _ _ _ _ hWithin areDistinct_nil))
    · rename_i old hOld
      obtain ⟨node, hWithin, hPure⟩ := Outcome.bind_eq_ok_iff.mp h
      cases hPure
      exact hes.replace (Node.distinct_within ih hWithin (hes.find? hOld))

theorem Entries.AreDistinct.below {parents : List Key} {change : Entries → Except Fault Entries}
    {root root' : Entries} (hRoot : AreDistinct root) (h : root.below parents change = .ok root')
    (hChange : ∀ es es', change es = .ok es' → AreDistinct es → AreDistinct es') : AreDistinct root' := by
  obtain ⟨⟨form, es⟩, hWithin, rfl⟩ := Outcome.map_eq_ok_iff.mp h
  refine keepsDistinct_within ?_ parents _ _ _ _ hWithin hRoot
  intro form es form' es' hChanged
  obtain ⟨es'', hEntries, hEq⟩ := Outcome.map_eq_ok_iff.mp hChanged
  cases hEq
  exact hChange _ _ hEntries

theorem Entries.AreDistinct.assign {path : List Key} {node : Node} {es es' : Entries}
    (hes : AreDistinct es) (hNode : node.HasDistinctKeys) (h : es.assign path node = .ok es') :
    AreDistinct es' := by
  rw [Entries.assign] at h
  split at h
  · cases h
    exact hes
  · exact hes.add hNode h
  · obtain ⟨⟨form, es''⟩, hWithin, rfl⟩ := Outcome.map_eq_ok_iff.mp h
    refine keepsDistinct_within ?_ _ _ _ _ _ hWithin hes
    intro form es form' es' hChanged hInner
    dsimp only at hChanged
    split at hChanged
    · obtain ⟨inner, hAdd, hEq⟩ := Outcome.map_eq_ok_iff.mp hChanged
      cases hEq
      exact hInner.add hNode hAdd
    · cases hChanged

theorem Bare.isScalar_node {b : Bare} {node : Node} (h : b.node = .ok node) : node.IsScalar := by
  obtain ⟨look, -, h⟩ := Outcome.bind_eq_ok_iff.mp h
  split at h
  · cases h
    trivial
  · cases h
    trivial
  · cases h
    trivial
  · obtain ⟨digits, -, h⟩ := Outcome.bind_eq_ok_iff.mp h
    cases h
    trivial
  · obtain ⟨digits, -, h⟩ := Outcome.bind_eq_ok_iff.mp h
    cases h
    trivial
  · obtain ⟨digits, -, h⟩ := Outcome.bind_eq_ok_iff.mp h
    cases h
    trivial
  · split at h
    · cases h
      trivial
    · cases h

theorem Token.isScalar_node {t : Token} {node : Node} (h : t.node = .ok node) : node.IsScalar := by
  rw [Token.node] at h
  split at h
  · obtain ⟨text, -, rfl⟩ := Outcome.map_eq_ok_iff.mp h
    trivial
  · exact Bare.isScalar_node h

mutual

theorem Term.distinct_node {t : Term} {node : Node} (h : t.node = .ok node) : node.HasDistinctKeys := by
  cases t with
  | scalar token =>
    rw [Term.node] at h
    exact .scalar (Token.isScalar_node h)
  | array span items =>
    rw [Term.node] at h
    obtain ⟨nodes, hNodes, rfl⟩ := Outcome.map_eq_ok_iff.mp h
    exact .array (Term.distinct_nodes hNodes)
  | braces span members =>
    rw [Term.node] at h
    obtain ⟨es, hes, rfl⟩ := Outcome.map_eq_ok_iff.mp h
    exact Entries.areDistinct_iff.mpr (Term.distinct_addAll hes Entries.areDistinct_nil)

theorem Term.distinct_nodes {ts : List Term} {nodes : List Node} (h : Term.nodes ts = .ok nodes) :
    ∀ node ∈ nodes, node.HasDistinctKeys := by
  cases ts with
  | nil =>
    rw [Term.nodes] at h
    cases h
    exact fun _ h => by cases h
  | cons t ts =>
    rw [Term.nodes] at h
    obtain ⟨node, hNode, h⟩ := Outcome.bind_eq_ok_iff.mp h
    obtain ⟨rest, hRest, h⟩ := Outcome.bind_eq_ok_iff.mp h
    cases h
    exact List.forall_mem_cons.mpr ⟨Term.distinct_node hNode, Term.distinct_nodes hRest⟩

theorem Term.distinct_addAll {members : List (List Token × Term)} {es es' : Entries}
    (h : Term.addAll es members = .ok es') (hes : es.AreDistinct) : es'.AreDistinct := by
  cases members with
  | nil =>
    rw [Term.addAll] at h
    cases h
    exact hes
  | cons member members =>
    obtain ⟨path, value⟩ := member
    rw [Term.addAll] at h
    obtain ⟨keys, -, h⟩ := Outcome.bind_eq_ok_iff.mp h
    obtain ⟨node, hNode, h⟩ := Outcome.bind_eq_ok_iff.mp h
    obtain ⟨more, hMore, h⟩ := Outcome.bind_eq_ok_iff.mp h
    exact Term.distinct_addAll h (hes.assign (Term.distinct_node hNode) hMore)

end

namespace Draft

structure AreDistinct (d : Draft) : Prop where
  root : d.root.AreDistinct
  current : d.current.AreDistinct

theorem distinct_pushTable {h : OpenHeader} {table : Node} {es es' : Entries} (hes : es.AreDistinct)
    (hTable : table.HasDistinctKeys) (hPush : pushTable h table es = .ok es') : es'.AreDistinct := by
  rw [pushTable] at hPush
  split at hPush
  · rename_i hNew
    cases hPush
    exact hes.insert hNew (.array (List.forall_mem_singleton.mpr hTable))
  · rename_i span items hOld
    cases hPush
    refine hes.replace (.array fun node hNode => ?_)
    rcases List.mem_append.mp hNode with hNode | hNode
    · exact (hes.find? hOld).mem_items hNode
    · exact List.mem_singleton.mp hNode ▸ hTable
  · cases hPush

theorem AreDistinct.close {d : Draft} (hDraft : d.AreDistinct) {es : Entries} (h : d.close = .ok es) :
    es.AreDistinct := by
  rw [Draft.close] at h
  split at h
  · cases h
    exact hDraft.current
  · rename_i header hHeader
    have hTable : (Node.table header.span .header d.current).HasDistinctKeys :=
      Entries.areDistinct_iff.mpr hDraft.current
    refine hDraft.root.below h fun inner inner' hChange hInner => ?_
    split at hChange
    · exact distinct_pushTable hInner hTable hChange
    · exact hInner.add hTable hChange

theorem distinct_lookup {key : Key} {parents : List Key} {root : Entries} {node : Node}
    (hRoot : root.AreDistinct) (h : openTable.lookup key parents root = .ok (some node)) :
    node.HasDistinctKeys := by
  induction parents generalizing root with
  | nil =>
    rw [openTable.lookup] at h
    exact hRoot.find? (Except.ok.inj h)
  | cons p ps ih =>
    rw [openTable.lookup] at h
    split at h
    · cases h
    · rename_i span form inner hFind
      split at h
      · cases h
      · exact ih (Entries.areDistinct_iff.mp (hRoot.find? hFind)) h
    · rename_i span items hFind
      split at h
      · rename_i s form inner hLast
        have hInner := (hRoot.find? hFind).mem_items (List.mem_of_getLast? hLast)
        exact ih (Entries.areDistinct_iff.mp hInner) h
      · cases h
    · cases h

theorem distinct_openTable {span : Span} {ofTables : Bool} {parents : List Key} {key : Key} {root : Entries}
    {d : Draft} (hRoot : root.AreDistinct) (h : openTable span ofTables parents key root = .ok d) :
    d.AreDistinct := by
  rw [openTable] at h
  split at h
  · cases h
    exact ⟨hRoot, Entries.areDistinct_nil⟩
  · obtain ⟨held, hHeld, h⟩ := Outcome.bind_eq_ok_iff.mp h
    split at h
    · obtain ⟨root', hBelow, h⟩ := Outcome.bind_eq_ok_iff.mp h
      cases h
      refine ⟨hRoot.below hBelow fun es es' hEq hes => ?_, Entries.areDistinct_nil⟩
      cases hEq
      exact hes
    · obtain ⟨root', hBelow, h⟩ := Outcome.bind_eq_ok_iff.mp h
      cases h
      refine ⟨hRoot.below hBelow fun es es' hEq hes => ?_,
        Entries.areDistinct_iff.mp (distinct_lookup hRoot hHeld)⟩
      cases hEq
      exact hes.erase key.name
    · cases h

theorem AreDistinct.step {d d' : Draft} (hDraft : d.AreDistinct) {s : Statement} (h : d.step s = .ok d') :
    d'.AreDistinct := by
  cases s with
  | assign path value =>
    obtain ⟨keys, -, h⟩ := Outcome.bind_eq_ok_iff.mp h
    obtain ⟨node, hNode, h⟩ := Outcome.bind_eq_ok_iff.mp h
    obtain ⟨es, hAssign, h⟩ := Outcome.bind_eq_ok_iff.mp h
    cases h
    exact ⟨hDraft.root, hDraft.current.assign (Term.distinct_node hNode) hAssign⟩
  | header span ofTables path =>
    obtain ⟨root, hClose, h⟩ := Outcome.bind_eq_ok_iff.mp h
    obtain ⟨keys, -, h⟩ := Outcome.bind_eq_ok_iff.mp h
    split at h
    · cases h
      exact hDraft
    · exact distinct_openTable (hDraft.close hClose) h

theorem AreDistinct.steps {d d' : Draft} {ss : List Statement} (hDraft : d.AreDistinct)
    (h : ss.foldlM Draft.step d = .ok d') : d'.AreDistinct := by
  induction ss generalizing d with
  | nil =>
    cases h
    exact hDraft
  | cons s ss ih =>
    rw [List.foldlM_cons] at h
    obtain ⟨next, hStep, h⟩ := Outcome.bind_eq_ok_iff.mp h
    exact ih (hDraft.step hStep) h

end Draft

/-- No table of a tree that was read has a key twice. -/
theorem hasDistinctKeys_of_parse {s : String} {tree : Node} (h : parse s = .ok tree) :
    tree.HasDistinctKeys := by
  obtain ⟨ss, -, h⟩ := Outcome.bind_eq_ok_iff.mp h
  obtain ⟨d, hSteps, h⟩ := Outcome.bind_eq_ok_iff.mp h
  obtain ⟨es, hClose, h⟩ := Outcome.bind_eq_ok_iff.mp h
  cases h
  have hEmpty : Draft.empty.AreDistinct := ⟨Entries.areDistinct_nil, Entries.areDistinct_nil⟩
  exact Entries.areDistinct_iff.mpr ((hEmpty.steps hSteps).close hClose)

end PolicyLint.Toml
