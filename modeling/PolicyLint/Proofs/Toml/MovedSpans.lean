import PolicyLint.Proofs.Toml.Records

/-!
# Trees whose spans are moved

Typed reading looks at values and names only. If a tree stands elsewhere, with its spans changed one by one, then
whatever could be read of it can be read still, with its spans changed in the same way.
-/
namespace PolicyLint.Text
set_option autoImplicit false

def Spanned.mapSpan {α : Type} (f : Span → Span) (s : Spanned α) : Spanned α := ⟨s.value, f s.span⟩

end PolicyLint.Text

namespace PolicyLint.Toml
open Text
set_option autoImplicit false

def Key.mapSpan (f : Span → Span) (key : Key) : Key := ⟨key.name, f key.span⟩

mutual

def Node.mapSpans (f : Span → Span) : Node → Node
  | .string span text => .string (f span) text
  | .integer span value => .integer (f span) value
  | .float span value => .float (f span) value
  | .boolean span value => .boolean (f span) value
  | .moment span text => .moment (f span) text
  | .array span ofTables items => .array (f span) ofTables (mapItemSpans f items)
  | .table span form entries => .table (f span) form (mapEntrySpans f entries)

def mapItemSpans (f : Span → Span) : List Node → List Node
  | [] => []
  | node :: nodes => node.mapSpans f :: mapItemSpans f nodes

def mapEntrySpans (f : Span → Span) : List (Key × Node) → List (Key × Node)
  | [] => []
  | (key, node) :: entries => (key.mapSpan f, node.mapSpans f) :: mapEntrySpans f entries

end

section
variable {f : Span → Span}

theorem mapItemSpans_eq (items : List Node) : mapItemSpans f items = items.map (Node.mapSpans f) := by
  induction items with
  | nil => rfl
  | cons node items ih => rw [mapItemSpans, ih, List.map_cons]

theorem mapEntrySpans_eq (entries : List (Key × Node)) :
    mapEntrySpans f entries = entries.map fun e => (e.1.mapSpan f, e.2.mapSpans f) := by
  induction entries with
  | nil => rfl
  | cons e entries ih => rw [mapEntrySpans, ih, List.map_cons]

@[simp] theorem span_mapSpans (node : Node) : (node.mapSpans f).span = f node.span := by
  cases node <;> rfl

theorem find?_mapEntrySpans (name : String) (entries : Entries) :
    Entries.find? name (mapEntrySpans f entries) = (Entries.find? name entries).map (Node.mapSpans f) := by
  rw [mapEntrySpans_eq, Entries.find?, Entries.find?, List.find?_map, Option.map_map, Option.map_map]
  rfl

mutual

theorem checkRange_mapSpans : (node : Node) → node.checkRange = .ok () → (node.mapSpans f).checkRange = .ok ()
  | .array _ _ items, h => checkItems_mapSpans items h
  | .table _ _ entries, h => checkEntries_mapSpans entries h
  | .integer _ none, h | .float _ none, h => by cases h
  | .integer span (some n), _ => by
    cases hFits : fitsWord64 n <;> simp [Node.mapSpans, Node.checkRange, Node.found, hFits]
  | .float _ (some _), h | .string _ _, h | .boolean _ _, h | .moment _ _, h => rfl

theorem checkItems_mapSpans : (items : List Node) → checkItems items = .ok () →
    checkItems (mapItemSpans f items) = .ok ()
  | [], _ => rfl
  | node :: items, h => by
    obtain ⟨hNode, hItems⟩ := Outcome.seq_eq_ok_iff.mp h
    exact Outcome.seq_eq_ok_iff.mpr ⟨checkRange_mapSpans node hNode, checkItems_mapSpans items hItems⟩

theorem checkEntries_mapSpans : (entries : List (Key × Node)) → checkEntries entries = .ok () →
    checkEntries (mapEntrySpans f entries) = .ok ()
  | [], _ => rfl
  | (_, node) :: entries, h => by
    obtain ⟨hNode, hEntries⟩ := Outcome.seq_eq_ok_iff.mp h
    exact Outcome.seq_eq_ok_iff.mpr ⟨checkRange_mapSpans node hNode, checkEntries_mapSpans entries hEntries⟩

end

end

namespace Decode

/-- What is read of a moved tree is what was read, moved by `g`. -/
def Moves {α : Type} (f : Span → Span) (g : α → α) (d : Decode α) : Prop :=
  ∀ node a, d node = .ok a → d (node.mapSpans f) = .ok (g a)

section
variable {α : Type} {f : Span → Span} {g : α → α} {d : Decode α}

theorem moves_text : Moves f id text := by
  intro node s h
  cases node with
  | string span value => exact h
  | integer _ _ | float _ _ => exact absurd h wrongType_ne_ok
  | boolean _ _ | moment _ _ | array _ _ _ | table _ _ _ => cases h

theorem moves_integerIn {fits : Int → Bool} {wanted : String} : Moves f id (integerIn fits wanted) := by
  intro node n h
  cases node with
  | integer span value =>
    cases value with
    | none => cases h
    | some value =>
      rw [integerIn] at h
      rw [Node.mapSpans, integerIn]
      split at h
      · rename_i hFits
        rw [if_pos hFits]
        exact h
      · split at h
        · cases h
        · exact absurd h wrongType_ne_ok
  | float _ _ => exact absurd h wrongType_ne_ok
  | string _ _ | boolean _ _ | moment _ _ | array _ _ _ | table _ _ _ => cases h

theorem moves_natural32 : Moves f id natural32 := by
  intro node n h
  obtain ⟨i, hi, rfl⟩ := Outcome.map_eq_ok_iff.mp h
  exact Outcome.map_eq_ok_iff.mpr ⟨i, moves_integerIn node i hi, rfl⟩

theorem moves_number : Moves f id number := by
  intro node x h
  cases node with
  | float span value =>
    cases value with
    | none => cases h
    | some value => exact h
  | integer span value =>
    cases value with
    | none => cases h
    | some value =>
      rw [number] at h
      rw [Node.mapSpans, number]
      split at h
      · rename_i hFits
        rw [if_pos hFits]
        exact h
      · exact absurd h wrongType_ne_ok
  | string _ _ | boolean _ _ | moment _ _ | array _ _ _ | table _ _ _ => cases h

theorem Moves.spanned (h : Moves f id d) : Moves f (Spanned.mapSpan f) (spanned d) := by
  intro node s hRead
  obtain ⟨a, ha, rfl⟩ := Outcome.map_eq_ok_iff.mp hRead
  refine Outcome.map_eq_ok_iff.mpr ⟨a, h node a ha, ?_⟩
  rw [span_mapSpans]
  rfl

theorem Moves.optional (h : Moves f g d) : Moves f (Option.map g) (optional d) := by
  intro node s hRead
  obtain ⟨a, ha, rfl⟩ := Outcome.map_eq_ok_iff.mp hRead
  exact Outcome.map_eq_ok_iff.mpr ⟨g a, h node a ha, rfl⟩

theorem Moves.optional_id (h : Moves f id d) : Moves f id (Decode.optional d) := by
  have hOptional := h.optional
  rwa [Option.map_id] at hOptional

theorem Moves.list (h : Moves f g d) : Moves f (List.map g) (list d) := by
  intro node as hRead
  cases node with
  | array span ofTables items =>
    have hItems := Outcome.mapM_eq_ok_iff.mp hRead
    rw [Node.mapSpans, mapItemSpans_eq]
    apply Outcome.mapM_eq_ok_iff.mpr
    induction items generalizing as with
    | nil =>
      cases as with
      | nil => rfl
      | cons => cases hItems
    | cons node items ih =>
      cases as with
      | nil => cases hItems
      | cons a as =>
        obtain ⟨hNode, hRest⟩ := List.cons.inj hItems
        rw [List.map_cons, List.map_cons, List.map_cons, List.map_cons, h node a hNode,
          ih as (Outcome.mapM_eq_ok_iff.mpr hRest) hRest]
  | integer _ _ | float _ _ => exact absurd hRead wrongType_ne_ok
  | string _ _ | boolean _ _ | moment _ _ | table _ _ _ => cases hRead

theorem Moves.list_id (h : Moves f id d) : Moves f id (Decode.list d) := by
  have hList := h.list
  rwa [List.map_id_fun] at hList

theorem pick_eq_ok_iff {known : List String} {names : List (String × α)} {span : Span} {s : String} {a : α} :
    choice.pick known names span s = .ok a ↔ names.lookup s = some a := by
  rw [choice.pick]
  split
  · rename_i b h
    simp [h]
  · rename_i h
    simp [h]

theorem moves_choice {known : List String} {names : List (String × α)} : Moves f id (choice known names) := by
  intro node a h
  cases node with
  | string span s => exact pick_eq_ok_iff.mpr (pick_eq_ok_iff.mp h)
  | table span form entries =>
    match entries with
    | [] => cases h
    | [(key, node)] =>
      obtain ⟨b, hPick, hRest⟩ := Outcome.bind_eq_ok_iff.mp h
      refine Outcome.bind_eq_ok_iff.mpr ⟨b, pick_eq_ok_iff.mpr (pick_eq_ok_iff.mp hPick), ?_⟩
      cases node with
      | table _ _ inner => cases inner with
        | nil => exact hRest
        | cons => cases hRest
      | array _ _ items => cases items with
        | nil => exact hRest
        | cons => cases hRest
      | string _ _ | integer _ _ | float _ _ | boolean _ _ | moment _ _ => cases hRest
    | _ :: _ :: _ => cases h
  | integer _ _ | float _ _ | boolean _ _ | moment _ _ | array _ _ _ => cases h

end

section
variable {σ α : Type} {f : Span → Span} {g : α → α} {move : σ → σ}

/-- Reading a field of a moved record from a moved tree. -/
def Field.Moves (f : Span → Span) (move : σ → σ) (field : Field σ) : Prop :=
  ∀ node s s', field.read node s = .ok s' → field.read (node.mapSpans f) (move s) = .ok (move s')

theorem Moves.field {d : Decode α} (h : Moves f g d) {name : String} {set : σ → α → σ}
    (hSet : ∀ s a, move (set s a) = set (move s) (g a)) : (field name d set).Moves f move := by
  intro node s s' hRead
  obtain ⟨a, ha, rfl⟩ := Outcome.map_eq_ok_iff.mp hRead
  exact Outcome.map_eq_ok_iff.mpr ⟨g a, h node a ha, (hSet s a).symm⟩

theorem Record.moves_readEntry {r : Record σ} (h : ∀ field ∈ r.fields, field.Moves f move) {s s' : σ}
    {e : Key × Node} (hRead : r.readEntry s e = .ok s') :
    r.readEntry (move s) (e.1.mapSpan f, e.2.mapSpans f) = .ok (move s') := by
  rcases exists_field_or_not_mem r e.1.name with ⟨field, hField, -, hFind⟩ | hNone
  · rw [readEntry_of_mem hFind] at hRead
    rw [readEntry_of_mem (e := (e.1.mapSpan f, e.2.mapSpans f)) hFind]
    exact h field hField e.2 s s' hRead
  · have hLax := strict_eq_false_of_readEntry hNone hRead
    obtain ⟨hRange, rfl⟩ := (readEntry_eq_ok_iff_of_not_mem hLax hNone).mp hRead
    exact (readEntry_eq_ok_iff_of_not_mem hLax (e := (e.1.mapSpan f, e.2.mapSpans f)) hNone).mpr
      ⟨checkRange_mapSpans e.2 hRange, rfl⟩

theorem Record.moves_read {r : Record σ} (h : ∀ field ∈ r.fields, field.Moves f move)
    (hInitial : move r.initial = r.initial) : Decode.Moves f move r.read := by
  intro node s hRead
  cases node with
  | table span form entries =>
    rw [Node.mapSpans, mapEntrySpans_eq, read, readEntries, ← hInitial]
    exact Outcome.foldlM_map (fun e _ s s' hEntry => moves_readEntry h hEntry) hRead
  | array span ofTables items =>
    rw [Node.mapSpans, mapItemSpans_eq, read, readItems, ← hInitial, List.zip_map_right]
    refine Outcome.foldlM_map ?_ hRead
    rintro ⟨field, node⟩ hMem s s' hField
    exact h field (List.of_mem_zip hMem).1 node s s' hField
  | moment span value =>
    rw [read] at hRead
    split at hRead
    · cases hRead
    · rename_i hLax
      cases hRead
      rw [Node.mapSpans, read, if_neg hLax, hInitial]
  | integer _ _ | float _ _ => exact absurd hRead wrongType_ne_ok
  | string _ _ | boolean _ _ => cases hRead

end

end Decode

end PolicyLint.Toml
