import PolicyLint.Lint.Checks.LicenseLists
import PolicyLint.Proofs.License.Single
import PolicyLint.Proofs.Lint.Entries

/-!
# When the license lists are in order

The check remembers licenses by how they are written. That tells them apart, because a written license is
read back as itself.
-/
namespace PolicyLint.Lint.LicenseLists
open Text Policy License
set_option autoImplicit false

/-- Every entry is a license, and none of them is written like another one or like one met before. -/
def Fresh (seen : Seen) (es : List Entry) : Prop :=
  ∃ rs : List Requirement, es.map (fun e => Requirement.parse e.license.value) = rs.map .ok ∧
    NewTo (seen.map Prod.fst) (rs.map Requirement.render)

theorem not_fresh_cons {seen : Seen} {e : Entry} {es : List Entry} {fault : Fault}
    (h : Requirement.parse e.license.value = .error fault) : ¬ Fresh seen (e :: es) := by
  rintro ⟨rs, hEq, -⟩
  cases rs with
  | nil => cases hEq
  | cons r rs => simp [h] at hEq

theorem fresh_cons_iff {seen : Seen} {e : Entry} {es : List Entry} {license : Requirement}
    (h : Requirement.parse e.license.value = .ok license) : Fresh seen (e :: es) ↔
      license.render ∉ seen.map Prod.fst ∧ Fresh ((license.render, e.list) :: seen) es := by
  constructor
  · rintro ⟨rs, hEq, hNew⟩
    cases rs with
    | nil => cases hEq
    | cons r rs =>
      simp only [List.map_cons, h, List.cons.injEq, Except.ok.injEq] at hEq
      obtain ⟨rfl, hEq⟩ := hEq
      rw [List.map_cons, newTo_cons_iff] at hNew
      exact ⟨hNew.1, rs, hEq, hNew.2⟩
  · rintro ⟨hSeen, rs, hEq, hNew⟩
    refine ⟨license :: rs, by simp [h, hEq], ?_⟩
    rw [List.map_cons, newTo_cons_iff]
    exact ⟨hSeen, hNew⟩

theorem lookup_eq_none_iff {seen : Seen} {name : String} :
    seen.lookup name = none ↔ name ∉ seen.map Prod.fst := by
  rw [List.lookup_eq_none_iff, List.mem_map]
  constructor
  · rintro h ⟨p, hp, rfl⟩
    simpa using h p hp
  · intro h p hp
    rw [bne_iff_ne]
    rintro rfl
    exact h ⟨p, hp, rfl⟩

theorem walk_eq_nil_iff {m : Model} {seen : Seen} {es : List Entry} :
    walk m seen es = [] ↔ Fresh seen es := by
  induction es generalizing seen with
  | nil => exact iff_of_true rfl ⟨[], rfl, newTo_nil _⟩
  | cons e es ih =>
    rw [walk]
    split
    · rename_i fault hFault
      exact iff_of_false (List.cons_ne_nil _ _) (not_fresh_cons hFault)
    · rename_i license hLicense
      rw [fresh_cons_iff hLicense, ← lookup_eq_none_iff]
      split
      · rename_i first hFirst
        simp [hFirst]
      · rename_i hNone
        rw [ih, and_iff_right hNone]

/-- Licenses that were read differ if and only if they are written differently. -/
theorem nodup_render_iff {texts : List (Spanned String)} {rs : List Requirement}
    (h : texts.map (fun text => Requirement.parse text.value) = rs.map .ok) :
    (rs.map Requirement.render).Nodup ↔ rs.Nodup := by
  have hParsed : ∀ r ∈ rs, ∃ s, Requirement.parse s = .ok r := by
    intro r hr
    have hMem : Except.ok r ∈ texts.map fun text => Requirement.parse text.value :=
      h ▸ List.mem_map_of_mem hr
    obtain ⟨text, -, hText⟩ := List.mem_map.mp hMem
    exact ⟨text.value, hText⟩
  constructor
  · intro hNodup
    exact hNodup.of_map _
  · intro hNodup
    refine hNodup.map_on fun r hr r' hr' hRender => ?_
    obtain ⟨s, hs⟩ := hParsed r hr
    obtain ⟨s', hs'⟩ := hParsed r' hr'
    exact (Requirement.render_eq_iff hs hs').mp hRender

theorem fresh_entries_iff {l : Licenses} : Fresh [] (entries l) ↔ DistinctLicenses l := by
  have hTexts : (entries l).map (fun e => Requirement.parse e.license.value) =
      (l.allow ++ l.deny).map fun license => Requirement.parse license.value := by
    rw [entries, List.map_append, List.map_map, List.map_map, List.map_append]
    rfl
  rw [Fresh, DistinctLicenses, hTexts]
  apply exists_congr
  intro rs
  rw [List.map_nil, newTo_empty_iff, and_comm]
  apply and_congr_left
  intro hEq
  exact nodup_render_iff hEq

theorem issues_eq_nil_iff {m : Model} :
    issues m (fun _ => false) = [] ↔ DistinctLicenses m.licenses := by
  have hAll : (entries m.licenses).filter (fun e => !e.isAllowed fun _ => false) = entries m.licenses :=
    List.filter_eq_self.mpr fun _ _ => rfl
  rw [issues, hAll, walk_eq_nil_iff, fresh_entries_iff]

end PolicyLint.Lint.LicenseLists
