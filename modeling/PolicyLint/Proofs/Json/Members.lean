import Mathlib.Data.List.Nodup
import PolicyLint.Json.Value

/-!
# Members in byte order

Putting members in byte order keeps them all if no key comes twice, and changes nothing if they are in order
already.
-/
namespace PolicyLint.Json
open Text
set_option autoImplicit false

namespace Members

/-- The keys stand in byte order, each once. -/
def Sorted (ms : Members) : Prop := ms.Pairwise fun a b => before a.1 b.1

theorem before_iff {a b : String} : before a b ↔ a < b := decide_eq_true_iff

theorem before_irrefl (a : String) : ¬ before a a := by
  rw [before_iff]
  exact String.lt_irrefl a

theorem before_trans {a b c : String} (hab : before a b) (hbc : before b c) : before a c := by
  rw [before_iff] at *
  exact String.lt_trans hab hbc

theorem before_of_not_before {a b : String} (hne : a ≠ b) (h : ¬ before a b) : before b a := by
  rw [before_iff] at *
  exact Decidable.byContradiction fun hNot =>
    hne (String.le_antisymm (String.not_lt.mp hNot) (String.not_lt.mp h))

theorem insert_perm {key : String} (v : Value) {ms : Members} (h : key ∉ ms.map Prod.fst) :
    (insert key v ms).Perm ((key, v) :: ms) := by
  induction ms with
  | nil => exact .refl _
  | cons m ms ih =>
    rw [List.map_cons, List.mem_cons, not_or] at h
    rw [insert, if_neg h.1]
    split
    · exact .refl _
    · exact ((ih h.2).cons m).trans (.swap _ _ _)

theorem mem_insert {key : String} {v : Value} {ms : Members} {m : String × Value} (h : m ∈ insert key v ms) :
    m = (key, v) ∨ m ∈ ms := by
  induction ms with
  | nil => exact .inl (List.mem_singleton.mp h)
  | cons n ms ih =>
    rw [insert] at h
    split at h
    · exact (List.mem_cons.mp h).imp_right (List.mem_cons_of_mem n)
    · split at h
      · exact List.mem_cons.mp h
      · rcases List.mem_cons.mp h with rfl | h
        · exact .inr List.mem_cons_self
        · exact (ih h).imp_right (List.mem_cons_of_mem n)

theorem Sorted.insert {ms : Members} (h : ms.Sorted) (key : String) (v : Value) :
    (Members.insert key v ms).Sorted := by
  induction ms with
  | nil => exact List.pairwise_singleton _ _
  | cons m ms ih =>
    obtain ⟨hFirst, hRest⟩ := List.pairwise_cons.mp h
    rw [Members.insert]
    split
    · rename_i hKey
      exact List.pairwise_cons.mpr ⟨fun n hn => hKey ▸ hFirst n hn, hRest⟩
    · rename_i hKey
      split
      · rename_i hBefore
        refine List.pairwise_cons.mpr ⟨fun n hn => ?_, h⟩
        rcases List.mem_cons.mp hn with rfl | hn
        · exact hBefore
        · exact before_trans hBefore (hFirst n hn)
      · rename_i hBefore
        refine List.pairwise_cons.mpr ⟨fun n hn => ?_, ih hRest⟩
        rcases mem_insert hn with rfl | hn
        · exact before_of_not_before hKey hBefore
        · exact hFirst n hn

theorem insert_of_forall_before {key : String} {v : Value} {ms : Members} (h : ∀ m ∈ ms, before m.1 key) :
    insert key v ms = ms ++ [(key, v)] := by
  induction ms with
  | nil => rfl
  | cons m ms ih =>
    rw [List.forall_mem_cons] at h
    have hKey : key ≠ m.1 := fun hEq => before_irrefl key (hEq ▸ h.1)
    have hBefore : ¬ before key m.1 := fun hLess => before_irrefl key (before_trans hLess h.1)
    rw [insert, if_neg hKey, if_neg hBefore, ih h.2, List.cons_append]

theorem foldl_insert_perm {acc ms : Members} (h : ((acc ++ ms).map Prod.fst).Nodup) :
    (ms.foldl (fun acc (key, value) => insert key value acc) acc).Perm (acc ++ ms) := by
  induction ms generalizing acc with
  | nil => rw [List.append_nil]; exact .refl _
  | cons m ms ih =>
    have hMiddle : (acc ++ m :: ms).Perm ((m :: acc) ++ ms) := List.perm_middle
    have hNodup := (hMiddle.map Prod.fst).nodup_iff.mp h
    -- An earlier value would be replaced and lost, but the key is new.
    have hKey : m.1 ∉ acc.map Prod.fst := by
      intro hMem
      rw [List.cons_append, List.map_cons, List.nodup_cons, List.map_append] at hNodup
      exact hNodup.1 (List.mem_append_left _ hMem)
    have hInsert := (insert_perm m.2 hKey).append_right ms
    exact (ih ((hInsert.map Prod.fst).nodup_iff.mpr hNodup)).trans (hInsert.trans hMiddle.symm)

theorem ofList_perm {ms : Members} (h : (ms.map Prod.fst).Nodup) : (ofList ms).Perm ms := foldl_insert_perm h

theorem mem_of_mem_ofList {ms : Members} {m : String × Value} (h : m ∈ ofList ms) : m ∈ ms := by
  have hFold : ∀ acc : Members,
      m ∈ ms.foldl (fun acc (key, value) => Members.insert key value acc) acc → m ∈ acc ∨ m ∈ ms := by
    clear h
    induction ms with
    | nil => exact fun _ hm => .inl hm
    | cons n ms ih =>
      intro acc hm
      rcases ih _ hm with hm | hm
      · rcases mem_insert hm with rfl | hm
        · exact .inr List.mem_cons_self
        · exact .inl hm
      · exact .inr (List.mem_cons_of_mem n hm)
  exact (hFold [] h).resolve_left List.not_mem_nil

theorem sorted_ofList (ms : Members) : (ofList ms).Sorted := by
  have hFold : ∀ acc : Members, acc.Sorted →
      (ms.foldl (fun acc (key, value) => Members.insert key value acc) acc).Sorted := by
    induction ms with
    | nil => exact fun _ h => h
    | cons m ms ih => exact fun acc h => ih _ (h.insert m.1 m.2)
  exact hFold [] List.Pairwise.nil

theorem Sorted.ofList_eq {ms : Members} (h : ms.Sorted) : ofList ms = ms := by
  have hFold : ∀ acc : Members, (acc ++ ms).Sorted →
      ms.foldl (fun acc (key, value) => Members.insert key value acc) acc = acc ++ ms := by
    induction ms with
    | nil => exact fun acc _ => (List.append_nil acc).symm
    | cons m ms ih =>
      intro acc hAcc
      have hEarlier : ∀ n ∈ acc, before n.1 m.1 := fun n hn =>
        (List.pairwise_append.mp hAcc).2.2 n hn m List.mem_cons_self
      rw [List.append_cons] at hAcc ⊢
      rw [← insert_of_forall_before hEarlier] at hAcc ⊢
      exact ih h.of_cons _ hAcc
  exact hFold [] h

theorem Sorted.find?_eq {ms : Members} (h : ms.Sorted) {key : String} {v : Value} (hm : (key, v) ∈ ms) :
    find? key ms = some v := by
  induction ms with
  | nil => cases hm
  | cons n ms ih =>
    obtain ⟨hFirst, hRest⟩ := List.pairwise_cons.mp h
    rcases List.mem_cons.mp hm with rfl | hm
    · exact List.lookup_cons_self
    · have hOther : (key == n.1) = false := by
        refine beq_false_of_ne fun hEq => before_irrefl n.1 ?_
        exact hEq ▸ hFirst _ hm
      have hStep : find? key (n :: ms) = find? key ms := by
        rw [find?, List.lookup_cons, hOther]
        rfl
      rw [hStep, ih hRest hm]

theorem find?_ofList {ms : Members} (hKeys : (ms.map Prod.fst).Nodup) {key : String} {v : Value}
    (hm : (key, v) ∈ ms) : find? key (ofList ms) = some v :=
  (sorted_ofList ms).find?_eq ((ofList_perm hKeys).mem_iff.mpr hm)

theorem find?_ofList_eq_none {ms : Members} {key : String} (h : ∀ m ∈ ms, key ≠ m.1) :
    find? key (ofList ms) = none := by
  rw [find?, List.lookup_eq_none_iff]
  exact fun m hm => bne_iff_ne.mpr (h m (mem_of_mem_ofList hm))

end Members

end PolicyLint.Json
