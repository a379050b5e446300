import PolicyLint.Proofs.Toml.Parts

/-!
# Taking keys out of a tree

A reader forgets a key if it reads the table as before once the key is gone. Records forget the keys that
are no fields. Values that nobody reads are only looked at for their range, and a value in range stays in
range without some of its keys; so what was said about parts and their readers applies to them as well.
-/
namespace PolicyLint.Toml
open Text
set_option autoImplicit false

/-- The tree without a key of the table at a path. -/
def Node.withoutKey (tree : Node) (path : Path) (name : String) : Node :=
  match tree.at? path with
  | some (.table span form es) => tree.setAt path (.table span form (Entries.erase name es))
  | _ => tree

theorem Node.withoutKey_eq {tree : Node} {path : Path} {span : Span} {form : Form} {es : Entries}
    (h : tree.at? path = some (.table span form es)) (name : String) :
    tree.withoutKey path name = tree.setAt path (.table span form (es.erase name)) := by
  rw [withoutKey, h]

theorem checkItems_eq_ok_iff {items : List Node} :
    checkItems items = .ok () ↔ ∀ node ∈ items, node.checkRange = .ok () := by
  induction items with
  | nil => simp [checkItems]
  | cons node items ih => rw [checkItems, Outcome.seq_eq_ok_iff, ih, List.forall_mem_cons]

theorem checkEntries_eq_ok_iff {es : Entries} :
    checkEntries es = .ok () ↔ ∀ e ∈ es, e.2.checkRange = .ok () := by
  induction es with
  | nil => simp [checkEntries]
  | cons e es ih => rw [checkEntries, Outcome.seq_eq_ok_iff, ih, List.forall_mem_cons]

namespace Decode

variable {α β σ : Type}

/-- A key outside these names can be taken out of a table that `d` reads, and `d` reads it as before. -/
def Forgets (d : Decode α) (names : List String) : Prop :=
  ∀ ⦃span : Span⦄ ⦃form : Form⦄ ⦃es : Entries⦄ ⦃name : String⦄ ⦃a : α⦄, name ∉ names →
    d (.table span form es) = .ok a → d (.table span form (es.erase name)) = .ok a

theorem Forgets.mono {d : Decode α} {names names' : List String} (h : d.Forgets names)
    (hNames : names ⊆ names') : d.Forgets names' :=
  fun _ _ _ _ _ hName hRead => h (fun hMem => hName (hNames hMem)) hRead

theorem Record.forgets {r : Record σ} (hLax : r.strict = false) : Forgets r.read r.names := by
  intro span form es name s hName hRead
  obtain ⟨hRange, hFields⟩ := (readEntries_eq_ok_iff hLax).mp hRead
  refine (readEntries_eq_ok_iff hLax).mpr ⟨fun e he => hRange e (Entries.mem_of_mem_erase he), ?_⟩
  rw [Entries.select_erase hName, hFields]

theorem checkRange_forgets (names : List String) : Forgets Node.checkRange names := by
  intro span form es name _ _ hRead
  rw [Node.checkRange, checkEntries_eq_ok_iff] at hRead ⊢
  exact fun e he => hRead e (Entries.mem_of_mem_erase he)

/-- Taking a key out of a table inside makes no difference if its reader forgets the key. -/
theorem HasPart.read_withoutKey {d : Decode α} {path : Path} {inner : Decode β} {part : α → Option β}
    {names : List String} (h : d.HasPart path inner part) (hInner : inner.Forgets names) {tree : Node}
    (hTree : tree.HasDistinctKeys) {a : α} (hRead : d tree = .ok a) {span : Span} {form : Form}
    {es : Entries} (hAt : tree.at? path = some (.table span form es)) {name : String}
    (hName : name ∉ names) : d (tree.withoutKey path name) = .ok a := by
  obtain ⟨b, hb, -⟩ := h.view hTree hAt hRead
  obtain ⟨a', ha', -, hSame⟩ := h.exchange hTree hAt hRead hb (hInner hName hb)
  rw [Node.withoutKey_eq hAt, ha', hSame rfl]

/-- The elements of an array that is in range are in range. -/
theorem hasPart_element (index : Nat) :
    HasPart Node.checkRange [.item index] Node.checkRange fun _ => some () := by
  constructor
  · intro node child _ _ hAt hRead
    obtain ⟨span, ofTables, items, rfl, hItem⟩ := eq_array_of_child? (at?_singleton hAt)
    rw [Node.checkRange, checkItems_eq_ok_iff] at hRead
    exact ⟨(), hRead child (List.mem_of_getElem? hItem), rfl⟩
  · intro node child child' _ _ hAt hRead
    rw [setAt_singleton hAt] at hRead
    obtain ⟨span, ofTables, items, rfl, hItem⟩ := eq_array_of_child? (at?_singleton hAt)
    rw [Node.setChild, Node.checkRange, checkItems_eq_ok_iff] at hRead
    have hLength : index < items.length := (List.getElem?_eq_some_iff.mp hItem).1
    exact ⟨(), hRead child' (List.mem_set hLength child')⟩
  · intro node child child' _ _ _ _ hAt hRead _ hChild'
    rw [setAt_singleton hAt]
    obtain ⟨span, ofTables, items, rfl, -⟩ := eq_array_of_child? (at?_singleton hAt)
    rw [Node.checkRange, checkItems_eq_ok_iff] at hRead
    refine ⟨(), ?_, rfl, fun _ => rfl⟩
    rw [Node.setChild, Node.checkRange, checkItems_eq_ok_iff]
    intro item hItem
    rcases List.mem_or_eq_of_mem_set hItem with hItem | rfl
    · exact hRead item hItem
    · exact hChild'

/-- A record only looks at the range of a value that is no field. -/
theorem Record.hasPart_unread {r : Record σ} (hPlain : r.IsPlain) {name : String} (hName : name ∉ r.names) :
    r.read.HasPart [.field r.names name] Node.checkRange fun _ => some () := by
  have hRange : ∀ {es : Entries} {value : Node} {s : σ}, es.find? name = some value →
      r.readEntries es = .ok s → value.checkRange = .ok () := by
    intro es value s hFind hRead
    obtain ⟨key, rfl, hMem⟩ := Entries.mem_of_find? hFind
    exact ((readEntries_eq_ok_iff hPlain.lax).mp hRead).1 _ hMem hName
  constructor
  · intro node child s _ hAt hRead
    have hFind := at?_singleton hAt
    rw [read_eq_readEntries hPlain hFind] at hRead
    exact ⟨(), hRange hFind hRead, rfl⟩
  · intro node child child' s _ hAt hRead
    have hFind := at?_singleton hAt
    rw [setAt_singleton hAt, read_setChild hPlain hFind] at hRead
    exact ⟨(), hRange (Entries.find?_replace hFind child') hRead⟩
  · intro node child child' s _ _ _ hAt hRead _ hChild'
    have hFind := at?_singleton hAt
    rw [read_eq_readEntries hPlain hFind, readEntries_eq_ok_iff hPlain.lax] at hRead
    refine ⟨s, ?_, rfl, fun _ => rfl⟩
    rw [setAt_singleton hAt, read_setChild hPlain hFind, readEntries_eq_ok_iff hPlain.lax,
      Entries.select_replace hName]
    refine ⟨fun e he hOther => ?_, hRead.2⟩
    rcases Entries.mem_replace he with ⟨-, hValue⟩ | he
    · exact hValue ▸ hChild'
    · exact hRead.1 e he hOther

end Decode

end PolicyLint.Toml
