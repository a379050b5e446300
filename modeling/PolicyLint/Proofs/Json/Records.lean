import Mathlib.Data.List.Nodup
import Mathlib.Data.List.Pairwise
import PolicyLint.Json.Shape
import PolicyLint.Proofs.Json.Canonical
import PolicyLint.Proofs.Outcome

/-!
# Records are read in any order

If the fields of a record set different parts of it, the members of an object can be read in any order. So an
object that was written field by field is read back as the record, although its members come in byte order.
-/
namespace PolicyLint.Json.Decode
open Text
set_option autoImplicit false

variable {σ α β : Type}

/-- Two fields with different keys, of which either may be read first. -/
def Field.Independent (f g : Field σ) : Prop :=
  f.name ≠ g.name ∧ ∀ v w s s', f.read v s >>= g.read w = .ok s' ↔ g.read w s >>= f.read v = .ok s'

instance : Std.Symm (Field.Independent (σ := σ)) where
  symm _ _ h := ⟨h.1.symm, fun v w s s' => (h.2 w v s s').symm⟩

@[simp] theorem independent_field {name name' : String} {p p' : Presence} {d : Decode α} {d' : Decode β}
    {set : σ → α → σ} {set' : σ → β → σ} (hName : name ≠ name')
    (hSet : ∀ s a b, set' (set s a) b = set (set' s b) a) :
    (field name p d set).Independent (field name' p' d' set') := by
  refine ⟨hName, fun v w s s' => ?_⟩
  cases ha : d v <;> cases hb : d' w <;> simp [field, ha, hb, Except.map, bind, Except.bind, hSet]

namespace Record

variable {r : Record σ}

def AnyOrder (r : Record σ) : Prop := r.fields.Pairwise Field.Independent

theorem readMember_of_none {m : String × Value} (h : r.fields.find? (fun f => f.name == m.1) = none) (s : σ) :
    r.readMember s m = .ok s := by rw [readMember, h]

theorem readMember_of_some {m : String × Value} {f : Field σ}
    (h : r.fields.find? (fun f => f.name == m.1) = some f) (s : σ) : r.readMember s m = f.read m.2 s := by
  rw [readMember, h]

theorem readMember_comm (h : r.AnyOrder) {a b : String × Value} (hKeys : a.1 ≠ b.1) (s s' : σ) :
    (r.readMember s a >>= fun t => r.readMember t b) = .ok s' ↔
      (r.readMember s b >>= fun t => r.readMember t a) = .ok s' := by
  cases hf : r.fields.find? (fun f => f.name == a.1) with
  | none => simp [Outcome.bind_eq_ok_iff, readMember_of_none hf]
  | some f =>
    cases hg : r.fields.find? (fun f => f.name == b.1) with
    | none => simp [Outcome.bind_eq_ok_iff, readMember_of_none hg]
    | some g =>
      have hFirst := List.find?_some hf
      have hSecond := List.find?_some hg
      have hApart : f ≠ g := by
        rintro rfl
        exact hKeys ((beq_iff_eq.mp hFirst).symm.trans (beq_iff_eq.mp hSecond))
      simp only [readMember_of_some hf, readMember_of_some hg]
      exact (List.Pairwise.forall h (List.mem_of_find?_eq_some hf) (List.mem_of_find?_eq_some hg) hApart).2
        a.2 b.2 s s'

theorem foldlM_perm (hOrder : r.AnyOrder) {ms ms' : List (String × Value)} (hPerm : ms.Perm ms')
    (hKeys : (ms.map Prod.fst).Nodup) {s s' : σ} (h : ms.foldlM r.readMember s = .ok s') :
    ms'.foldlM r.readMember s = .ok s' := by
  induction hPerm generalizing s with
  | nil => exact h
  | cons m _ ih =>
    rw [List.foldlM_cons] at h ⊢
    obtain ⟨next, hNext, hRest⟩ := Outcome.bind_eq_ok_iff.mp h
    exact Outcome.bind_eq_ok_iff.mpr ⟨next, hNext, ih (List.nodup_cons.mp hKeys).2 hRest⟩
  | swap a b ms =>
    have hApart : b.1 ≠ a.1 := by
      rw [List.map_cons, List.map_cons, List.nodup_cons, List.mem_cons, not_or] at hKeys
      exact hKeys.1.1
    simp only [List.foldlM_cons] at h ⊢
    rw [← bind_assoc] at h ⊢
    obtain ⟨next, hNext, hRest⟩ := Outcome.bind_eq_ok_iff.mp h
    exact Outcome.bind_eq_ok_iff.mpr ⟨next, (readMember_comm hOrder hApart s next).mp hNext, hRest⟩
  | trans hFirst _ ih ih' => exact ih' ((hFirst.map Prod.fst).nodup_iff.mp hKeys) (ih hKeys h)

/-- The members come from the fields in order, some of which may be left out. Reading the members leads from
one state of the record to another. -/
inductive Written : List (Field σ) → List (String × Value) → σ → σ → Prop
  | nil (s : σ) : Written [] [] s s
  | present {f : Field σ} {fs : List (Field σ)} {v : Value} {ms : List (String × Value)} {s s' s'' : σ}
    (hRead : f.read v.canonical s = .ok s') (hRest : Written fs ms s' s'') :
    Written (f :: fs) ((f.name, v) :: ms) s s''
  | absent {f : Field σ} {fs : List (Field σ)} {ms : List (String × Value)} {s s' : σ}
    (hPresence : f.presence ≠ .required) (hRest : Written fs ms s s') : Written (f :: fs) ms s s'

namespace Written

variable {fs : List (Field σ)} {ms : List (String × Value)} {s s' : σ}

theorem keys_sublist (h : Written fs ms s s') : (ms.map Prod.fst).Sublist (fs.map Field.name) := by
  induction h with
  | nil => exact .slnil
  | present _ _ ih => exact ih.cons_cons _
  | absent _ _ ih => exact ih.cons _

theorem mem_keys (h : Written fs ms s s') {f : Field σ} (hf : f ∈ fs) (hPresence : f.presence = .required) :
    f.name ∈ ms.map Prod.fst := by
  induction h with
  | nil => cases hf
  | present _ _ ih =>
    rcases List.mem_cons.mp hf with rfl | hf
    · exact List.mem_cons_self
    · exact List.mem_cons_of_mem _ (ih hf)
  | absent hAbsent _ ih =>
    rcases List.mem_cons.mp hf with rfl | hf
    · exact absurd hPresence hAbsent
    · exact ih hf

theorem foldlM_eq (h : Written fs ms s s')
    (hFind : ∀ f ∈ fs, r.fields.find? (fun g => g.name == f.name) = some f) :
    (ms.map fun m => (m.1, m.2.canonical)).foldlM r.readMember s = .ok s' := by
  induction h with
  | nil => rfl
  | present hRead _ ih =>
    rw [List.forall_mem_cons] at hFind
    rw [List.map_cons, List.foldlM_cons, readMember_of_some hFind.1, hRead]
    exact ih hFind.2
  | absent _ _ ih => exact ih (List.forall_mem_cons.mp hFind).2

end Written

theorem AnyOrder.find?_eq {fs : List (Field σ)} (h : fs.Pairwise Field.Independent) {f : Field σ} (hf : f ∈ fs) :
    fs.find? (fun g => g.name == f.name) = some f := by
  induction fs with
  | nil => cases hf
  | cons g fs ih =>
    obtain ⟨hFirst, hRest⟩ := List.pairwise_cons.mp h
    rcases List.mem_cons.mp hf with rfl | hf
    · exact List.find?_cons_of_pos (beq_self_eq_true _)
    · have hOther : (g.name == f.name) = false := beq_false_of_ne (hFirst f hf).1
      simp only [List.find?_cons, hOther, ih hRest hf]

/-- An object that was written field by field is read back. -/
theorem read_canonical (hOrder : r.AnyOrder) {ms : List (String × Value)} {s : σ}
    (h : Written r.fields ms r.initial s) : r.read (Value.object ms).canonical = .ok s := by
  have hNames : (r.fields.map Field.name).Nodup :=
    List.pairwise_map.mpr (hOrder.imp And.left)
  have hKeys : ((ms.map fun m => (m.1, m.2.canonical)).map Prod.fst).Nodup := by
    rw [List.map_map]
    exact hNames.sublist h.keys_sublist
  -- Writing goes field by field and reading in byte order of the keys, so the fold is done in another order.
  have hPerm := Members.ofList_perm hKeys
  have hFold := foldlM_perm hOrder hPerm.symm hKeys (h.foldlM_eq fun f hf => AnyOrder.find?_eq hOrder hf)
  have hMissing : r.missing? (Members.ofList (ms.map fun m => (m.1, m.2.canonical))) = none := by
    rw [missing?, Option.map_eq_none_iff, List.find?_eq_none]
    intro f hf hMiss
    rw [Bool.and_eq_true, beq_iff_eq, Option.isNone_iff_eq_none, Members.find?, List.lookup_eq_none_iff] at hMiss
    have hName : f.name ∈ (Members.ofList (ms.map fun m => (m.1, m.2.canonical))).map Prod.fst := by
      rw [(hPerm.map Prod.fst).mem_iff, List.map_map]
      exact h.mem_keys hf hMiss.1
    obtain ⟨m, hm, hKey⟩ := List.mem_map.mp hName
    exact bne_iff_ne.mp (hMiss.2 m hm) hKey.symm
  rw [canonical_object, Value.ofMembers, read, readMembers, hFold]
  simp only [bind, Except.bind, hMissing]
  rfl

end Record

theorem list_canonical {d : Decode α} {write : α → Value} {xs : List α}
    (h : ∀ x ∈ xs, d (write x).canonical = .ok x) :
    list d (Value.array (xs.map write)).canonical = .ok xs := by
  rw [canonical_array, List.map_map, list]
  induction xs with
  | nil => rfl
  | cons x xs ih =>
    rw [List.forall_mem_cons] at h
    rw [List.map_cons, List.mapM_cons, Function.comp, h.1]
    simp only [bind, Except.bind, ih h.2]
    rfl

end PolicyLint.Json.Decode
