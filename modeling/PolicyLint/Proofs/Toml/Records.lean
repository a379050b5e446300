import Mathlib.Data.List.Nodup
import PolicyLint.Proofs.Toml.Paths
import PolicyLint.Toml.Shape

/-!
# Records and their fields

What a record becomes when it is read, field by field. A field is held if its part of the record is what
its own reader makes of its value and no other field touches that part.
-/
namespace PolicyLint.Toml.Decode
open Text
set_option autoImplicit false

variable {σ α : Type}

theorem wrongType_ne_ok {wanted : String} {node : Node} {a : α} : wrongType wanted node ≠ .ok a := by
  intro hRead
  rw [wrongType] at hRead
  split at hRead <;> cases hRead

/-- Reading the field leaves this part of the record as it is. -/
def Field.Keeps (f : Field σ) (get : σ → α) : Prop :=
  ∀ node s s', f.read node s = .ok s' → get s' = get s

@[simp] theorem name_field {name : String} {d : Decode α} {set : σ → α → σ} :
    (field name d set).name = name := rfl

@[simp] theorem keeps_field {β : Type} {name : String} {d : Decode β} {set : σ → β → σ} {get : σ → α}
    (h : ∀ s b, get (set s b) = get s) : (field name d set).Keeps get := by
  intro node s s' hRead
  obtain ⟨b, -, rfl⟩ := Outcome.map_eq_ok_iff.mp hRead
  exact h s b

/-- Whether the field can be read does not depend on the record so far. -/
def Field.IsPlain (f : Field σ) : Prop :=
  ∀ node s t s', f.read node s = .ok s' → ∃ t', f.read node t = .ok t'

@[simp] theorem isPlain_field {name : String} {d : Decode α} {set : σ → α → σ} :
    (field name d set).IsPlain := by
  intro node s t s' hRead
  obtain ⟨a, ha, -⟩ := Outcome.map_eq_ok_iff.mp hRead
  exact ⟨set t a, Outcome.map_eq_ok_iff.mpr ⟨a, ha, rfl⟩⟩

namespace Record

/-- Every field stands for itself, and further keys are ignored. -/
structure IsPlain (r : Record σ) : Prop where
  fields : ∀ f ∈ r.fields, f.IsPlain
  names : r.names.Nodup
  lax : r.strict = false

/-- The field with this name is read by `d` into the part that `get` shows. -/
structure Holds (r : Record σ) (name : String) (d : Decode α) (set : σ → α → σ) (get : σ → α) : Prop where
  found : r.fields.find? (fun f => f.name == name) = some (field name d set)
  get_set : ∀ s a, get (set s a) = a
  keeps : ∀ f ∈ r.fields, f.name ≠ name → f.Keeps get

variable {r : Record σ} {name : String} {d : Decode α} {set : σ → α → σ} {get : σ → α}

theorem find?_eq_none_of_not_mem (h : name ∉ r.names) : r.fields.find? (fun f => f.name == name) = none := by
  rw [List.find?_eq_none]
  exact fun f hf hName => h (List.mem_map.mpr ⟨f, hf, beq_iff_eq.mp hName⟩)

theorem readEntry_eq_ok_iff_of_not_mem (hLax : r.strict = false) {s s' : σ} {e : Key × Node}
    (h : e.1.name ∉ r.names) : r.readEntry s e = .ok s' ↔ e.2.checkRange = .ok () ∧ s' = s := by
  rw [readEntry, find?_eq_none_of_not_mem h]
  simp only [hLax, Bool.false_eq_true, if_false]
  rw [Outcome.seq_eq_ok_iff]
  constructor
  · rintro ⟨hCheck, hPure⟩
    cases hPure
    exact ⟨hCheck, rfl⟩
  · rintro ⟨hCheck, rfl⟩
    exact ⟨hCheck, rfl⟩

theorem strict_eq_false_of_readEntry {s s' : σ} {e : Key × Node} (h : e.1.name ∉ r.names)
    (hRead : r.readEntry s e = .ok s') : r.strict = false := by
  rw [readEntry, find?_eq_none_of_not_mem h] at hRead
  by_contra hStrict
  simp only [Bool.not_eq_false] at hStrict
  simp only [hStrict, if_true] at hRead
  cases hRead

theorem readEntry_of_mem {s : σ} {e : Key × Node} {f : Field σ}
    (h : r.fields.find? (fun f => f.name == e.1.name) = some f) : r.readEntry s e = f.read e.2 s := by
  rw [readEntry, h]

theorem Holds.readEntry (h : r.Holds name d set get) {s : σ} {key : Key} (hKey : key.name = name)
    (node : Node) : r.readEntry s (key, node) = (d node).map (set s) := by
  subst hKey
  exact readEntry_of_mem (e := (key, node)) h.found

/-- An entry is either read by a field of its name or only checked. -/
theorem exists_field_or_not_mem (r : Record σ) (name : String) :
    (∃ f ∈ r.fields, f.name = name ∧ r.fields.find? (fun f => f.name == name) = some f) ∨
      name ∉ r.names := by
  cases h : r.fields.find? (fun f => f.name == name) with
  | some f =>
    have hName := List.find?_some h
    exact .inl ⟨f, List.mem_of_find?_eq_some h, beq_iff_eq.mp hName, rfl⟩
  | none =>
    refine .inr fun hMem => ?_
    obtain ⟨f, hf, hName⟩ := List.mem_map.mp hMem
    exact List.find?_eq_none.mp h f hf (beq_iff_eq.mpr hName)

theorem Holds.keeps_readEntry (h : r.Holds name d set get) (hLax : r.strict = false) {s s' : σ}
    {e : Key × Node} (hName : e.1.name ≠ name) (hRead : r.readEntry s e = .ok s') : get s' = get s := by
  rcases exists_field_or_not_mem r e.1.name with ⟨f, hf, hField, hFind⟩ | hNone
  · rw [readEntry_of_mem hFind] at hRead
    exact h.keeps f hf (hField ▸ hName) _ _ _ hRead
  · rw [((readEntry_eq_ok_iff_of_not_mem hLax hNone).mp hRead).2]

theorem IsPlain.readEntry (h : r.IsPlain) {s s' : σ} {e : Key × Node} (hRead : r.readEntry s e = .ok s')
    (t : σ) : ∃ t', r.readEntry t e = .ok t' := by
  rcases exists_field_or_not_mem r e.1.name with ⟨f, hf, -, hFind⟩ | hNone
  · rw [readEntry_of_mem hFind] at hRead ⊢
    exact h.fields f hf _ _ t _ hRead
  · exact ⟨t, (readEntry_eq_ok_iff_of_not_mem h.lax hNone).mpr
      ⟨((readEntry_eq_ok_iff_of_not_mem h.lax hNone).mp hRead).1, rfl⟩⟩

theorem Holds.keeps_foldlM (h : r.Holds name d set get) (hLax : r.strict = false) {es : Entries}
    (hes : ∀ e ∈ es, e.1.name ≠ name) {s s' : σ} (hRead : es.foldlM r.readEntry s = .ok s') :
    get s' = get s := by
  induction es generalizing s with
  | nil =>
    cases hRead
    rfl
  | cons e es ih =>
    rw [List.forall_mem_cons] at hes
    rw [List.foldlM_cons] at hRead
    obtain ⟨next, hNext, hRead⟩ := Outcome.bind_eq_ok_iff.mp hRead
    exact (ih hes.2 hRead).trans (h.keeps_readEntry hLax hes.1 hNext)

theorem IsPlain.foldlM (h : r.IsPlain) {es : Entries} {s s' : σ}
    (hRead : es.foldlM r.readEntry s = .ok s') (t : σ) : ∃ t', es.foldlM r.readEntry t = .ok t' := by
  induction es generalizing s t with
  | nil => exact ⟨t, rfl⟩
  | cons e es ih =>
    rw [List.foldlM_cons] at hRead
    obtain ⟨next, hNext, hRead⟩ := Outcome.bind_eq_ok_iff.mp hRead
    obtain ⟨next', hNext'⟩ := h.readEntry hNext t
    obtain ⟨t', ht'⟩ := ih hRead next'
    exact ⟨t', by rw [List.foldlM_cons]; exact Outcome.bind_eq_ok_iff.mpr ⟨next', hNext', ht'⟩⟩

theorem find?_self (hNames : r.names.Nodup) {f : Field σ} (hf : f ∈ r.fields) :
    r.fields.find? (fun g => g.name == f.name) = some f := by
  rcases exists_field_or_not_mem r f.name with ⟨g, hg, hName, hFind⟩ | hNone
  · rw [hFind, List.inj_on_of_nodup_map hNames hg hf hName]
  · exact absurd (List.mem_map_of_mem hf) hNone

theorem foldlM_split {front back : Entries} {e : Key × Node} {s s' : σ} :
    (front ++ e :: back).foldlM r.readEntry s = .ok s' ↔ ∃ s₁, front.foldlM r.readEntry s = .ok s₁ ∧
      ∃ s₂, r.readEntry s₁ e = .ok s₂ ∧ back.foldlM r.readEntry s₂ = .ok s' := by
  rw [List.foldlM_append, Outcome.bind_eq_ok_iff]
  apply exists_congr
  intro s₁
  rw [List.foldlM_cons, Outcome.bind_eq_ok_iff]

theorem Holds.get_of_find?_eq_none (h : r.Holds name d set get) (hLax : r.strict = false) {es : Entries}
    {s : σ} (hFind : es.find? name = none) (hRead : r.readEntries es = .ok s) : get s = get r.initial :=
  h.keeps_foldlM hLax (Entries.find?_eq_none_iff.mp hFind) hRead

/-- The part of a field is what its value is read as. -/
theorem Holds.read_of_find? (h : r.Holds name d set get) (hLax : r.strict = false) {es : Entries}
    (hNames : (es.map fun e => e.1.name).Nodup) {s : σ} {node : Node} (hFind : es.find? name = some node)
    (hRead : r.readEntries es = .ok s) : d node = .ok (get s) := by
  obtain ⟨front, key, back, rfl, hKey, hOthers, -⟩ := Entries.exists_split hNames hFind
  obtain ⟨s₁, -, s₂, hEntry, hBack⟩ := foldlM_split.mp hRead
  rw [h.readEntry hKey] at hEntry
  obtain ⟨a, ha, rfl⟩ := Outcome.map_eq_ok_iff.mp hEntry
  have hKeeps := h.keeps_foldlM hLax (fun e he => hOthers e (List.mem_append_right _ he)) hBack
  rw [ha, hKeeps, h.get_set]

/-- Another value of a field can be read if the field can read it. It changes the part of the field, and
nothing if that stays the same. -/
theorem Holds.readEntries_replace (h : r.Holds name d set get) (hPlain : r.IsPlain) {es : Entries}
    (hNames : (es.map fun e => e.1.name).Nodup) {s : σ} {node node' : Node} {a : α}
    (hFind : es.find? name = some node) (hRead : r.readEntries es = .ok s) (hNode : d node' = .ok a) :
    ∃ s', r.readEntries (es.replace name node') = .ok s' ∧ get s' = a ∧ (a = get s → s' = s) := by
  have hOld := h.read_of_find? hPlain.lax hNames hFind hRead
  obtain ⟨front, key, back, rfl, hKey, hOthers, hReplace⟩ := Entries.exists_split hNames hFind
  obtain ⟨s₁, hFront, s₂, hEntry, hBack⟩ := foldlM_split.mp hRead
  have hEntry' : r.readEntry s₁ (key, node') = .ok (set s₁ a) := by
    rw [h.readEntry hKey, hNode]
    rfl
  obtain ⟨s', hBack'⟩ := hPlain.foldlM hBack (set s₁ a)
  refine ⟨s', ?_, ?_, ?_⟩
  · rw [hReplace]
    exact foldlM_split.mpr ⟨s₁, hFront, _, hEntry', hBack'⟩
  · rw [h.keeps_foldlM hPlain.lax (fun e he => hOthers e (List.mem_append_right _ he)) hBack', h.get_set]
  · rintro rfl
    rw [h.readEntry hKey, hOld] at hEntry
    cases hEntry
    rw [hBack] at hBack'
    exact (Except.ok.inj hBack').symm

/-- The value of one key makes no difference to the fields of other names. -/
theorem Holds.get_eq_of_replace (h : r.Holds name d set get) (hLax : r.strict = false) {es : Entries}
    (hNames : (es.map fun e => e.1.name).Nodup) {other : String} (hOther : name ≠ other) {node : Node}
    {s s' : σ} (hRead : r.readEntries es = .ok s) (hRead' : r.readEntries (es.replace other node) = .ok s') :
    get s' = get s := by
  have hFind := Entries.find?_replace_of_ne hOther es node
  cases hOld : es.find? name with
  | none =>
    rw [hOld] at hFind
    rw [h.get_of_find?_eq_none hLax hOld hRead, h.get_of_find?_eq_none hLax hFind hRead']
  | some old =>
    rw [hOld] at hFind
    have hNames' : ((es.replace other node).map fun e => e.1.name).Nodup := by
      rw [Entries.map_name_replace]
      exact hNames
    have hPart := h.read_of_find? hLax hNames hOld hRead
    rw [h.read_of_find? hLax hNames' hFind hRead'] at hPart
    exact Except.ok.inj hPart

/-- The fields make the record, and all other values are only looked at for their range. -/
theorem readEntries_eq_ok_iff (hLax : r.strict = false) {es : Entries} {s : σ} :
    r.readEntries es = .ok s ↔ (∀ e ∈ es, e.1.name ∉ r.names → e.2.checkRange = .ok ()) ∧
      r.readEntries (es.select r.names) = .ok s := by
  unfold readEntries
  generalize r.initial = start
  induction es generalizing start with
  | nil => simp [Entries.select]
  | cons e es ih =>
    rw [List.foldlM_cons, Outcome.bind_eq_ok_iff, List.forall_mem_cons]
    by_cases hName : e.1.name ∈ r.names
    · rw [Entries.select_cons_of_mem hName, List.foldlM_cons, Outcome.bind_eq_ok_iff]
      simp only [ih, hName, not_true_eq_false, false_implies, true_and]
      constructor
      · rintro ⟨next, hNext, hRange, hRead⟩
        exact ⟨hRange, next, hNext, hRead⟩
      · rintro ⟨hRange, next, hNext, hRead⟩
        exact ⟨next, hNext, hRange, hRead⟩
    · rw [Entries.select_cons_of_not_mem hName]
      simp only [ih, readEntry_eq_ok_iff_of_not_mem hLax hName]
      constructor
      · rintro ⟨_, ⟨hCheck, rfl⟩, hRange, hRead⟩
        exact ⟨⟨fun _ => hCheck, hRange⟩, hRead⟩
      · rintro ⟨⟨hCheck, hRange⟩, hRead⟩
        exact ⟨start, ⟨hCheck hName, rfl⟩, hRange, hRead⟩

/-- A key that is no field makes no difference, as long as it can be read. -/
theorem readEntries_replace_of_not_mem (hLax : r.strict = false) {es : Entries} {node : Node} {s s' : σ}
    (hName : name ∉ r.names) (hRead : r.readEntries es = .ok s)
    (hRead' : r.readEntries (es.replace name node) = .ok s') : s' = s := by
  have hFields := ((readEntries_eq_ok_iff hLax).mp hRead).2
  have hFields' := ((readEntries_eq_ok_iff hLax).mp hRead').2
  rw [Entries.select_replace hName, hFields] at hFields'
  exact (Except.ok.inj hFields').symm

/-- An array is read as the table in which each element has the name of its field. -/
theorem readItems_eq (hNames : r.names.Nodup) (items : List Node) :
    r.readItems items = r.readEntries (Entries.label r.names items) := by
  have hFields : ∀ fs : List (Field σ), (∀ f ∈ fs, r.fields.find? (fun g => g.name == f.name) = some f) →
      ∀ (nodes : List Node) (s : σ), (fs.zip nodes).foldlM (fun s p => p.1.read p.2 s) s =
        (Entries.label (fs.map Field.name) nodes).foldlM r.readEntry s := by
    intro fs
    induction fs with
    | nil => exact fun _ nodes s => rfl
    | cons f fs ih =>
      intro hfs nodes s
      rw [List.forall_mem_cons] at hfs
      cases nodes with
      | nil => rfl
      | cons node nodes =>
        rw [List.zip_cons_cons, List.map_cons, Entries.label, List.foldlM_cons, List.foldlM_cons,
          readEntry_of_mem (e := (⟨f.name, ⟨0, 0⟩⟩, node)) hfs.1]
        congr 1
        funext next
        exact ih hfs.2 nodes next
  exact hFields r.fields (fun f hf => find?_self hNames hf) items r.initial

end Record

end PolicyLint.Toml.Decode
