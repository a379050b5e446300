import PolicyLint.Proofs.Toml.Parts

/-!
# Keys that matter

A reader heeds a key if the value of the key makes a difference to the result. Records heed their fields,
and a reader heeds a key inside a tree if and only if the reader of the table around it does.
-/
namespace PolicyLint.Toml.Decode
open Text
set_option autoImplicit false

variable {α β σ : Type}

/-- There are values that are read differently. -/
def Varies (d : Decode α) : Prop := ∃ node node' a a', d node = .ok a ∧ d node' = .ok a' ∧ a ≠ a'

theorem Varies.exists_ne {d : Decode α} (h : d.Varies) (a : α) : ∃ node a', d node = .ok a' ∧ a' ≠ a := by
  obtain ⟨node, node', b, b', hb, hb', hNe⟩ := h
  rcases Classical.em (b = a) with rfl | hOther
  · exact ⟨node', b', hb', hNe.symm⟩
  · exact ⟨node, b, hb, hOther⟩

theorem Varies.optional {d : Decode α} (h : d.Varies) : (optional d).Varies := by
  obtain ⟨node, node', a, a', ha, ha', hNe⟩ := h
  refine ⟨node, node', some a, some a', ?_, ?_, fun hEq => hNe (Option.some.inj hEq)⟩
  · rw [Decode.optional, ha]
    rfl
  · rw [Decode.optional, ha']
    rfl

theorem Varies.spanned {d : Decode α} (h : d.Varies) : (spanned d).Varies := by
  obtain ⟨node, node', a, a', ha, ha', hNe⟩ := h
  refine ⟨node, node', ⟨a, node.span⟩, ⟨a', node'.span⟩, ?_, ?_, fun hEq => hNe (Spanned.mk.inj hEq).1⟩
  · rw [Decode.spanned, ha]
    rfl
  · rw [Decode.spanned, ha']
    rfl

/-- The empty list and a list of one element differ. -/
theorem varies_list {d : Decode α} {a : α} (node : Node) (h : d node = .ok a) : (list d).Varies := by
  refine ⟨.array ⟨0, 0⟩ false [], .array ⟨0, 0⟩ false [node], [], [a], rfl, ?_, (List.cons_ne_nil _ _).symm⟩
  exact Outcome.mapM_eq_ok_iff.mpr (by rw [List.map_singleton, h, List.map_singleton])

/-- Of the keys of a table `d` heeds those with these names and no others. -/
structure Heeds (d : Decode α) (names : List String) : Prop where
  ignores : ∀ {span : Span} {form : Form} {es : Entries} {name : String} {new : Node} {a a' : α},
    name ∉ names → d (.table span form es) = .ok a → d (.table span form (es.replace name new)) = .ok a' →
      a' = a
  notices : ∀ {span : Span} {form : Form} {es : Entries} {name : String} {old : Node} {a : α},
    es.AreDistinct → name ∈ names → es.find? name = some old → d (.table span form es) = .ok a →
      ∃ new a', d (.table span form (es.replace name new)) = .ok a' ∧ a' ≠ a

/-- Each field has a part of the record to itself and is read differently for different values. -/
def Record.IsVaried (r : Record σ) : Prop :=
  ∀ name ∈ r.names, ∃ (β : Type) (d : Decode β) (set : σ → β → σ) (get : σ → β),
    r.Holds name d set get ∧ d.Varies

/-- What is to be shown for one field. -/
theorem Varies.field {r : Record σ} {name : String} {d : Decode β} {set : σ → β → σ} (h : d.Varies)
    (get : σ → β) (hFound : r.fields.find? (fun f => f.name == name) = some (Decode.field name d set))
    (hGet : ∀ s b, get (set s b) = b) (hKeeps : ∀ f ∈ r.fields, f.name ≠ name → f.Keeps get) :
    ∃ (β : Type) (d : Decode β) (set : σ → β → σ) (get : σ → β), r.Holds name d set get ∧ d.Varies :=
  ⟨β, d, set, get, ⟨hFound, hGet, hKeeps⟩, h⟩

theorem Record.heeds {r : Record σ} (hPlain : r.IsPlain) (hVaried : r.IsVaried) :
    Heeds r.read r.names := by
  constructor
  · intro span form es name new s s' hName hRead hRead'
    exact readEntries_replace_of_not_mem hPlain.lax hName hRead hRead'
  · intro span form es name old s hes hName hFind hRead
    obtain ⟨β, d, set, get, hHolds, hVaries⟩ := hVaried name hName
    obtain ⟨new, b, hNew, hNe⟩ := hVaries.exists_ne (get s)
    obtain ⟨s', hRead', hGet, -⟩ := hHolds.readEntries_replace hPlain hes.names hFind hRead hNew
    refine ⟨new, s', hRead', ?_⟩
    rintro rfl
    exact hNe hGet.symm

/-- The value of a key inside a tree makes no difference if and only if it makes none to the reader of the
table. -/
theorem HasPart.eq_of_setAt_iff {d : Decode α} {path : Path} {inner : Decode β} {part : α → Option β}
    {names : List String} (h : d.HasPart path inner part) (hInner : inner.Heeds names) {tree : Node}
    (hTree : tree.HasDistinctKeys) {a : α} (hRead : d tree = .ok a) {span : Span} {form : Form}
    {es : Entries} (hAt : tree.at? path = some (.table span form es)) {name : String} {old : Node}
    (hOld : es.find? name = some old) :
    (∀ new a', d (tree.setAt (path ++ [.field names name]) new) = .ok a' → a' = a) ↔ name ∉ names := by
  obtain ⟨b, hb, hPart⟩ := h.view hTree hAt hRead
  have hTable : (Node.table span form es).at? [.field names name] = some old := by
    rw [Node.at?, Node.child?, Node.members, hOld]
    rfl
  have hSet : ∀ new, tree.setAt (path ++ [.field names name]) new =
      tree.setAt path (.table span form (es.replace name new)) := by
    intro new
    rw [Node.setAt_append hAt, setAt_singleton hTable]
    rfl
  constructor
  · intro hSame hName
    have hes := Entries.areDistinct_iff.mp (hTree.at? hAt)
    obtain ⟨new, b', hb', hNe⟩ := hInner.notices hes hName hOld hb
    obtain ⟨a', ha', hPart', -⟩ := h.exchange hTree hAt hRead hb hb'
    obtain rfl := hSame new a' (hSet new ▸ ha')
    rw [hPart] at hPart'
    exact hNe (Option.some.inj hPart').symm
  · intro hName new a' ha'
    rw [hSet] at ha'
    obtain ⟨b', hb'⟩ := h.strict hTree hAt ha'
    obtain ⟨a'', ha'', -, hSame⟩ := h.exchange hTree hAt hRead hb hb'
    rw [ha'] at ha''
    obtain rfl := Except.ok.inj ha''
    exact hSame (hInner.ignores hName hb hb')

end PolicyLint.Toml.Decode
