import Mathlib.Data.List.Induction
import PolicyLint.Proofs.Json.Records

/-!
# The parts of a record

Where the parts of a record come from. A field is held if its part of the record is what its own reader makes of
a value and no other field touches that part. Then the part of a record that was read is made of the member with
the name of the field, or of the item at its place.
-/
namespace PolicyLint.Json
set_option autoImplicit false

def Value.items : Value → List Value
  | .array items => items
  | _ => []

namespace Decode
open Text

variable {σ α β : Type}

def Field.Keeps (f : Field σ) (get : σ → α) : Prop :=
  ∀ v s s', f.read v s = .ok s' → get s' = get s

/-- The field reads this part of the record by `d`. -/
def Field.Sets (f : Field σ) (d : Decode α) (get : σ → α) : Prop :=
  ∀ v s s', f.read v s = .ok s' → d v = .ok (get s')

@[simp] theorem name_field {name : String} {presence : Presence} {d : Decode α} {set : σ → α → σ} :
    (field name presence d set).name = name := rfl

@[simp] theorem keeps_field {name : String} {presence : Presence} {d : Decode β} {set : σ → β → σ}
    {get : σ → α} (h : ∀ s b, get (set s b) = get s) : (field name presence d set).Keeps get := by
  intro v s s' hRead
  obtain ⟨b, -, rfl⟩ := Outcome.map_eq_ok_iff.mp hRead
  exact h s b

theorem sets_field {name : String} {presence : Presence} {d : Decode α} {set : σ → α → σ} {get : σ → α}
    (h : ∀ s a, get (set s a) = a) : (field name presence d set).Sets d get := by
  intro v s s' hRead
  obtain ⟨a, ha, rfl⟩ := Outcome.map_eq_ok_iff.mp hRead
  rw [ha, h]

theorem optional_eq_ok {d : Decode α} {v : Value} {o : Option α} (h : optional d v = .ok o) :
    (v = .null ∧ o = none) ∨ ∃ a, d v = .ok a ∧ o = some a := by
  rw [optional.eq_def] at h
  split at h
  · cases h
    exact .inl ⟨rfl, rfl⟩
  · obtain ⟨a, ha, rfl⟩ := Outcome.map_eq_ok_iff.mp h
    exact .inr ⟨a, ha, rfl⟩

namespace Record

def names (r : Record σ) : List String := r.fields.map Field.name

/-- The members of a value that a record is read from; an item has the name of the field at its place. -/
def members (r : Record σ) : Value → Members
  | .object ms => ms
  | .array items => r.names.zip items
  | _ => []

/-- The value that a field is read from. Of equal keys the last one counts. -/
def part? (r : Record σ) (name : String) (v : Value) : Option Value := (r.members v).reverse.lookup name

/-- The field with this name is read by `d` into the part that `get` shows. -/
structure Holds (r : Record σ) (name : String) (presence : Presence) (d : Decode α) (get : σ → α) : Prop where
  found : ∃ f, r.fields.find? (fun f => f.name == name) = some f ∧ f.presence = presence ∧ f.Sets d get
  keeps : ∀ f ∈ r.fields, f.name ≠ name → f.Keeps get

variable {r : Record σ} {name : String} {presence : Presence} {d : Decode α} {get : σ → α} {s s' : σ}

theorem Holds.sets_readMember (h : r.Holds name presence d get) {v : Value}
    (hRead : r.readMember s (name, v) = .ok s') : d v = .ok (get s') := by
  obtain ⟨f, hFound, -, hSets⟩ := h.found
  rw [readMember_of_some hFound] at hRead
  exact hSets v s s' hRead

theorem Holds.keeps_readMember (h : r.Holds name presence d get) {m : String × Value} (hName : m.1 ≠ name)
    (hRead : r.readMember s m = .ok s') : get s' = get s := by
  cases hFind : r.fields.find? (fun f => f.name == m.1) with
  | none =>
    rw [readMember_of_none hFind] at hRead
    cases hRead
    rfl
  | some f =>
    rw [readMember_of_some hFind] at hRead
    have hField := List.find?_some hFind
    rw [beq_iff_eq] at hField
    exact h.keeps f (List.mem_of_find?_eq_some hFind) (hField ▸ hName) _ _ _ hRead

theorem Holds.foldlM (h : r.Holds name presence d get) {ms : Members}
    (hRead : ms.foldlM r.readMember s = .ok s') :
    (ms.reverse.lookup name = none ∧ get s' = get s) ∨
      ∃ v, ms.reverse.lookup name = some v ∧ d v = .ok (get s') := by
  -- The members are taken from the last one back, since a later member overrides an earlier one.
  induction ms using List.reverseRecOn generalizing s' with
  | nil =>
    cases hRead
    exact .inl ⟨rfl, rfl⟩
  | append_singleton ms m ih =>
    rw [List.foldlM_append, Outcome.bind_eq_ok_iff] at hRead
    obtain ⟨mid, hFront, hBack⟩ := hRead
    obtain ⟨last, hLast, hEnd⟩ := Outcome.bind_eq_ok_iff.mp hBack
    cases hEnd
    obtain ⟨key, v⟩ := m
    rw [List.reverse_append, List.reverse_singleton, List.singleton_append, List.lookup_cons]
    by_cases hName : name = key
    · subst hName
      rw [beq_self_eq_true]
      exact .inr ⟨v, rfl, h.sets_readMember hLast⟩
    · rw [beq_false_of_ne hName, h.keeps_readMember (Ne.symm hName) hLast]
      exact ih hFront

theorem foldlM_of_readItems {length index : Nat} {fs : List (Field σ)} {items : List Value}
    (hFields : ∀ f ∈ fs, r.fields.find? (fun g => g.name == f.name) = some f)
    (hRead : r.readItems length index fs items s = .ok s') :
    ((fs.map Field.name).zip items).foldlM r.readMember s = .ok s' ∧
      ∀ f ∈ fs, f.presence = .required → f.name ∈ ((fs.map Field.name).zip items).map Prod.fst := by
  induction fs generalizing index items s with
  | nil =>
    cases items with
    | nil => exact ⟨hRead, by simp⟩
    | cons => cases hRead
  | cons f fs ih =>
    rw [List.forall_mem_cons] at hFields
    cases items with
    | nil =>
      -- The items are used up, so this field and all further ones have defaults.
      rw [readItems] at hRead
      split_ifs at hRead with hDefault
      obtain ⟨hFold, hRest⟩ := ih hFields.2 hRead
      rw [List.zip_nil_right] at hFold
      refine ⟨hFold, List.forall_mem_cons.mpr ⟨fun hRequired => ?_, fun g hg hRequired => ?_⟩⟩
      · cases hDefault.symm.trans hRequired
      · have hNone := hRest g hg hRequired
        rw [List.zip_nil_right] at hNone
        cases hNone
    | cons v items =>
      rw [readItems, Outcome.bind_eq_ok_iff] at hRead
      obtain ⟨next, hNext, hRead⟩ := hRead
      obtain ⟨hFold, hRest⟩ := ih hFields.2 hRead
      rw [List.map_cons, List.zip_cons_cons, List.foldlM_cons, readMember_of_some hFields.1, hNext]
      refine ⟨hFold, List.forall_mem_cons.mpr ⟨fun _ => List.mem_cons_self, fun g hg hRequired => ?_⟩⟩
      exact List.mem_cons_of_mem _ (hRest g hg hRequired)

/-- A record is read member by member, in objects and in arrays. -/
theorem foldlM_of_read (hOrder : r.AnyOrder) {v : Value} (hRead : r.read v = .ok s) :
    (r.members v).foldlM r.readMember r.initial = .ok s ∧
      ∀ f ∈ r.fields, f.presence = .required → f.name ∈ (r.members v).map Prod.fst := by
  cases v with
  | object ms =>
    rw [read, readMembers, Outcome.bind_eq_ok_iff] at hRead
    obtain ⟨s', hFold, hRead⟩ := hRead
    split at hRead
    · cases hRead
    · rename_i hMissing
      cases hRead
      refine ⟨hFold, fun f hf hRequired => ?_⟩
      rw [missing?, Option.map_eq_none_iff, List.find?_eq_none] at hMissing
      have hFound := hMissing f hf
      rw [hRequired, beq_self_eq_true, Bool.true_and, Option.isNone_iff_eq_none, Members.find?,
        List.lookup_eq_none_iff] at hFound
      by_contra hNone
      refine hFound fun m hm => bne_iff_ne.mpr ?_
      rintro hName
      exact hNone (hName ▸ List.mem_map_of_mem hm)
  | array items => exact foldlM_of_readItems (fun f hf => AnyOrder.find?_eq hOrder hf) hRead
  | _ => cases hRead

theorem Holds.read_required (h : r.Holds name .required d get) (hOrder : r.AnyOrder) {v : Value}
    (hRead : r.read v = .ok s) : ∃ w, r.part? name v = some w ∧ d w = .ok (get s) := by
  obtain ⟨hFold, hThere⟩ := foldlM_of_read hOrder hRead
  obtain ⟨hNone, -⟩ | hPart := h.foldlM hFold
  · obtain ⟨f, hFound, hRequired, -⟩ := h.found
    have hName := List.find?_some hFound
    rw [beq_iff_eq] at hName
    obtain ⟨m, hm, hKey⟩ := List.mem_map.mp (hThere f (List.mem_of_find?_eq_some hFound) hRequired)
    rw [List.lookup_eq_none_iff] at hNone
    exact absurd (hKey.trans hName).symm (bne_iff_ne.mp (hNone m (List.mem_reverse.mpr hm)))
  · exact hPart

theorem Holds.read_optional (h : r.Holds name presence d get) (hOrder : r.AnyOrder) {v : Value}
    (hRead : r.read v = .ok s) : (r.part? name v = none ∧ get s = get r.initial) ∨
      ∃ w, r.part? name v = some w ∧ d w = .ok (get s) :=
  h.foldlM (foldlM_of_read hOrder hRead).1

end Record

end Decode

end PolicyLint.Json
