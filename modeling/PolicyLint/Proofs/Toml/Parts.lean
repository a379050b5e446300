import PolicyLint.Proofs.Toml.Records

/-!
# What a reader does with the values inside

A reader hands values inside a tree to other readers, and what they make of them are parts of its result.
So a value can be exchanged for another one that can be read, and the results differ only if the parts do.
-/
namespace PolicyLint.Toml
open Text
set_option autoImplicit false

namespace Node

theorem HasDistinctKeys.child? {node child : Node} (h : node.HasDistinctKeys) {step : Step}
    (hChild : node.child? step = some child) : child.HasDistinctKeys := by
  cases step with
  | field names name =>
    obtain ⟨key, -, hMem⟩ := Entries.mem_of_find? hChild
    cases node with
    | table span form es => exact (Entries.areDistinct_iff.mp h).values _ hMem
    | array span ofTables items => exact h.mem_items (Entries.mem_nodes_of_mem_label hMem)
    | string _ _ | integer _ _ | float _ _ | boolean _ _ | moment _ _ => cases hMem
  | item index =>
    cases node with
    | array span ofTables items => exact h.mem_items (List.mem_of_getElem? hChild)
    | table _ _ _ | string _ _ | integer _ _ | float _ _ | boolean _ _ | moment _ _ => cases hChild

theorem HasDistinctKeys.at? {node inner : Node} (h : node.HasDistinctKeys) {path : Path}
    (hAt : node.at? path = some inner) : inner.HasDistinctKeys := by
  induction path generalizing node with
  | nil =>
    cases hAt
    exact h
  | cons step path ih =>
    obtain ⟨child, hChild, hAt⟩ := Option.bind_eq_some_iff.mp hAt
    exact ih (h.child? hChild) hAt

theorem setChild_members {names : List String} (hNames : names.Nodup) (node : Node) (name : String)
    (new : Node) : (node.setChild (.field names name) new).members names =
      (node.members names).replace name new := by
  cases node with
  | table span form es => rfl
  | array span ofTables items => exact Entries.label_set hNames items name new
  | string _ _ | integer _ _ | float _ _ | boolean _ _ | moment _ _ => rfl

end Node

namespace Decode

variable {α β γ σ : Type}

/-- Inside trees without repeated keys, `d` reads the value at a path by `inner`, as a part of its own
result. -/
structure HasPart (d : Decode α) (path : Path) (inner : Decode β) (part : α → Option β) : Prop where
  view : ∀ {node child : Node} {a : α}, node.HasDistinctKeys → node.at? path = some child →
    d node = .ok a → ∃ b, inner child = .ok b ∧ part a = some b
  strict : ∀ {node child child' : Node} {a' : α}, node.HasDistinctKeys → node.at? path = some child →
    d (node.setAt path child') = .ok a' → ∃ b', inner child' = .ok b'
  exchange : ∀ {node child child' : Node} {a : α} {b b' : β}, node.HasDistinctKeys →
    node.at? path = some child → d node = .ok a → inner child = .ok b → inner child' = .ok b' →
      ∃ a', d (node.setAt path child') = .ok a' ∧ part a' = some b' ∧ (b' = b → a' = a)

theorem HasPart.trans {d : Decode α} {middle : Decode β} {inner : Decode γ} {p q : Path}
    {part : α → Option β} {part' : β → Option γ} (h : d.HasPart p middle part)
    (h' : middle.HasPart q inner part') : d.HasPart (p ++ q) inner fun a => (part a).bind part' := by
  have hSplit : ∀ {node child : Node}, node.at? (p ++ q) = some child →
      ∃ mid, node.at? p = some mid ∧ mid.at? q = some child := by
    intro node child hAt
    rw [Node.at?_append] at hAt
    exact Option.bind_eq_some_iff.mp hAt
  constructor
  · intro node child a hNode hAt hRead
    obtain ⟨mid, hMid, hChild⟩ := hSplit hAt
    obtain ⟨b, hb, hPart⟩ := h.view hNode hMid hRead
    obtain ⟨c, hc, hPart'⟩ := h'.view (hNode.at? hMid) hChild hb
    exact ⟨c, hc, Option.bind_eq_some_iff.mpr ⟨b, hPart, hPart'⟩⟩
  · intro node child child' a' hNode hAt hRead
    obtain ⟨mid, hMid, hChild⟩ := hSplit hAt
    rw [Node.setAt_append hMid] at hRead
    obtain ⟨b', hb'⟩ := h.strict hNode hMid hRead
    exact h'.strict (hNode.at? hMid) hChild hb'
  · intro node child child' a c c' hNode hAt hRead hc hc'
    obtain ⟨mid, hMid, hChild⟩ := hSplit hAt
    obtain ⟨b, hb, -⟩ := h.view hNode hMid hRead
    obtain ⟨b', hb', hPart', hSame'⟩ := h'.exchange (hNode.at? hMid) hChild hb hc hc'
    obtain ⟨a', ha', hPart, hSame⟩ := h.exchange hNode hMid hRead hb hb'
    rw [Node.setAt_append hMid]
    exact ⟨a', ha', Option.bind_eq_some_iff.mpr ⟨b', hPart, hPart'⟩, fun hEq => hSame (hSame' hEq)⟩

theorem hasPart_self (d : Decode α) : d.HasPart [] d some where
  view _ hAt hRead := by
    cases hAt
    exact ⟨_, hRead, rfl⟩
  strict _ _ hRead := ⟨_, hRead⟩
  exchange _ hAt hRead hb hb' := by
    cases hAt
    rw [hRead] at hb
    cases hb
    exact ⟨_, hb', rfl, id⟩

theorem hasPart_optional (d : Decode α) : (optional d).HasPart [] d id where
  view _ hAt hRead := by
    cases hAt
    obtain ⟨b, hb, rfl⟩ := Outcome.map_eq_ok_iff.mp hRead
    exact ⟨b, hb, rfl⟩
  strict _ _ hRead := by
    obtain ⟨b, hb, -⟩ := Outcome.map_eq_ok_iff.mp hRead
    exact ⟨b, hb⟩
  exchange _ hAt hRead hb hb' := by
    cases hAt
    obtain ⟨b, hOld, rfl⟩ := Outcome.map_eq_ok_iff.mp hRead
    rw [hOld] at hb
    cases hb
    exact ⟨_, Outcome.map_eq_ok_iff.mpr ⟨_, hb', rfl⟩, rfl, fun hEq => congrArg some hEq⟩

theorem eq_array_of_child? {node child : Node} {index : Nat} (h : node.child? (.item index) = some child) :
    ∃ span ofTables items, node = .array span ofTables items ∧ items[index]? = some child := by
  cases node with
  | array span ofTables items => exact ⟨span, ofTables, items, rfl, h⟩
  | table _ _ _ | string _ _ | integer _ _ | float _ _ | boolean _ _ | moment _ _ => cases h

theorem at?_singleton {node child : Node} {step : Step} (h : node.at? [step] = some child) :
    node.child? step = some child := by
  obtain ⟨next, hNext, hEq⟩ := Option.bind_eq_some_iff.mp h
  cases hEq
  exact hNext

theorem setAt_singleton {node child : Node} {step : Step} (h : node.at? [step] = some child) (new : Node) :
    node.setAt [step] new = node.setChild step new := by
  simp only [Node.setAt, at?_singleton h]

theorem read_of_getElem? {d : Decode α} {items : List Node} {as : List α} {index : Nat} {item : Node}
    (hItems : items.mapM d = .ok as) (hItem : items[index]? = some item) :
    ∃ a, d item = .ok a ∧ as[index]? = some a := by
  have hAt : (items.map d)[index]? = (as.map .ok)[index]? := by rw [Outcome.mapM_eq_ok_iff.mp hItems]
  rw [List.getElem?_map, List.getElem?_map, hItem, Option.map_some] at hAt
  obtain ⟨a, ha, hEq⟩ := Option.map_eq_some_iff.mp hAt.symm
  exact ⟨a, hEq.symm, ha⟩

theorem mapM_set {d : Decode α} {items : List Node} {as : List α} {item : Node} {a : α}
    (hItems : items.mapM d = .ok as) (hItem : d item = .ok a) (index : Nat) :
    (items.set index item).mapM d = .ok (as.set index a) := by
  rw [Outcome.mapM_eq_ok_iff, List.map_set, Outcome.mapM_eq_ok_iff.mp hItems, hItem, List.map_set]

theorem hasPart_list (d : Decode α) (index : Nat) :
    (list d).HasPart [.item index] d fun as => as[index]? := by
  constructor
  · intro node child as _ hAt hRead
    obtain ⟨span, ofTables, items, rfl, hItem⟩ := eq_array_of_child? (at?_singleton hAt)
    exact read_of_getElem? hRead hItem
  · intro node child child' as' _ hAt hRead
    rw [setAt_singleton hAt] at hRead
    obtain ⟨span, ofTables, items, rfl, hItem⟩ := eq_array_of_child? (at?_singleton hAt)
    have hLength : index < items.length := (List.getElem?_eq_some_iff.mp hItem).1
    have hSet : (items.set index child')[index]? = some child' := List.getElem?_set_self hLength
    obtain ⟨a, ha, -⟩ := read_of_getElem? hRead hSet
    exact ⟨a, ha⟩
  · intro node child child' as b b' _ hAt hRead hb hb'
    rw [setAt_singleton hAt]
    obtain ⟨span, ofTables, items, rfl, hItem⟩ := eq_array_of_child? (at?_singleton hAt)
    obtain ⟨a, ha, hIndex⟩ := read_of_getElem? hRead hItem
    rw [hb] at ha
    cases ha
    obtain ⟨hLength, hGet⟩ := List.getElem?_eq_some_iff.mp hIndex
    refine ⟨as.set index b', mapM_set hRead hb' index, List.getElem?_set_self hLength, ?_⟩
    rintro rfl
    rw [← hGet]
    exact List.set_getElem_self hLength

namespace Record

variable {r : Record σ} {name : String} {d : Decode α} {set : σ → α → σ} {get : σ → α}

theorem read_eq_readEntries (hPlain : r.IsPlain) {node child : Node}
    (h : (node.members r.names).find? name = some child) :
    r.read node = r.readEntries (node.members r.names) := by
  cases node with
  | table span form es => rfl
  | array span ofTables items => exact readItems_eq hPlain.names items
  | string _ _ | integer _ _ | float _ _ | boolean _ _ | moment _ _ => cases h

theorem read_setChild (hPlain : r.IsPlain) {node child : Node}
    (h : (node.members r.names).find? name = some child) (new : Node) :
    r.read (node.setChild (.field r.names name) new) =
      r.readEntries ((node.members r.names).replace name new) := by
  have hMembers := Node.setChild_members hPlain.names node name new
  have hFind := Entries.find?_replace h new
  rw [← hMembers] at hFind ⊢
  exact read_eq_readEntries hPlain hFind

theorem Holds.hasPart (h : r.Holds name d set get) (hPlain : r.IsPlain) :
    r.read.HasPart [.field r.names name] d fun s => some (get s) := by
  constructor
  · intro node child s hNode hAt hRead
    have hFind := at?_singleton hAt
    rw [read_eq_readEntries hPlain hFind] at hRead
    exact ⟨get s, h.read_of_find? hPlain.lax (hNode.members hPlain.names).names hFind hRead, rfl⟩
  · intro node child child' s' hNode hAt hRead
    have hFind := at?_singleton hAt
    rw [setAt_singleton hAt, read_setChild hPlain hFind] at hRead
    have hNames : (((node.members r.names).replace name child').map fun e => e.1.name).Nodup := by
      rw [Entries.map_name_replace]
      exact (hNode.members hPlain.names).names
    exact ⟨get s', h.read_of_find? hPlain.lax hNames (Entries.find?_replace hFind child') hRead⟩
  · intro node child child' s b b' hNode hAt hRead hb hb'
    have hFind := at?_singleton hAt
    have hNames := (hNode.members hPlain.names).names
    rw [read_eq_readEntries hPlain hFind] at hRead
    rw [setAt_singleton hAt, read_setChild hPlain hFind]
    obtain ⟨s', hRead', hGet, hSame⟩ := h.readEntries_replace hPlain hNames hFind hRead hb'
    have hOld := h.read_of_find? hPlain.lax hNames hFind hRead
    rw [hb] at hOld
    cases hOld
    exact ⟨s', hRead', congrArg some hGet, hSame⟩

end Record

end Decode

end PolicyLint.Toml
