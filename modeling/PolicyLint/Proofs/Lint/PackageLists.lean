import PolicyLint.Lint.Checks.Exceptions
import PolicyLint.Lint.Checks.SkipEntries
import PolicyLint.Proofs.Lint.Entries

/-!
# When exceptions and skip entries are in order

Both checks walk a list of entries about packages and remember the packages. An entry without a name is
not remembered, but then there is an issue already.
-/
namespace PolicyLint.Lint
open Text Policy License
set_option autoImplicit false

namespace Exceptions

theorem Named.invalidVersion_eq_nil_iff {m : Model} {e : Named} :
    e.invalidVersion m = [] ↔ ∀ v ∈ e.entry.version, IsVersion (trim v.value) := by
  apply versionIssues_eq_nil_iff
  · intro h
    rw [invalidVersion, h]
  · intro v h
    simp only [invalidVersion, h]
    split <;> simp [*]

theorem Named.invalidLicense_eq_none_iff {m : Model} {e : Named} {license : Spanned String} :
    e.invalidLicense m license = none ↔ IsLicense license.value := by
  rw [invalidLicense, IsLicense]
  split
  · rename_i r h
    simp [h]
  · rename_i fault h
    simp [h]

theorem Named.issues_eq_nil_iff {m : Model} {again : Bool} {e : Named} : e.issues m again = [] ↔
    (∀ v ∈ e.entry.version, IsVersion (trim v.value)) ∧ again = false ∧ e.entry.allow ≠ [] ∧
      ∀ license ∈ e.entry.allow, IsLicense license.value := by
  have hAgain : (if again then [e.duplicate m] else []) = [] ↔ again = false := by cases again <;> simp
  have hAllow : e.emptyAllow m = [] ↔ e.entry.allow ≠ [] := by
    rw [emptyAllow]
    cases e.entry.allow <;> simp
  rw [issues, List.append_eq_nil_iff, List.append_eq_nil_iff, List.append_eq_nil_iff,
    invalidVersion_eq_nil_iff, hAgain, hAllow, List.filterMap_eq_nil_iff, and_assoc, and_assoc]
  simp only [invalidLicense_eq_none_iff]

theorem walk_eq_nil_iff {m : Model} {seen : List PackageKey} {es : List (Exception × Nat)} :
    walk m seen es = [] ↔ (∀ e ∈ es, SoundException e.1) ∧
      NewTo seen (es.map fun e => package e.1.name e.1.version) := by
  induction es generalizing seen with
  | nil => exact iff_of_true rfl ⟨by simp, newTo_nil _⟩
  | cons e es ih =>
    obtain ⟨e, index⟩ := e
    rw [walk, List.forall_mem_cons, List.map_cons, newTo_cons_iff]
    split
    · rename_i hName
      exact iff_of_false (List.cons_ne_nil _ _) fun h => h.1.1.named (packageName_eq_none_iff.mp hName)
    · rename_i name hName
      have hNamed : trimmed e.name ≠ "" := named_of_packageName hName
      obtain rfl := eq_trimmed_of_packageName hName
      rw [List.append_eq_nil_iff, Named.issues_eq_nil_iff, ih, List.contains_eq_mem, decide_eq_false_iff_not]
      constructor
      · rintro ⟨⟨hVersion, hSeen, hAllow, hLicenses⟩, hSound, hNew⟩
        exact ⟨⟨⟨hNamed, hVersion, hAllow, hLicenses⟩, hSound⟩, hSeen, hNew⟩
      · rintro ⟨⟨h, hSound⟩, hSeen, hNew⟩
        exact ⟨⟨h.version, hSeen, h.allows, h.licenses⟩, hSound, hNew⟩

theorem issues_eq_nil_iff {m : Model} : issues m (fun _ => false) = [] ↔
    (∀ e ∈ m.licenses.exceptions, SoundException e) ∧
      (m.licenses.exceptions.map fun e => package e.name e.version).Nodup := by
  rw [issues, List.filter_eq_self.mpr, walk_eq_nil_iff, newTo_empty_iff, forall_mem_zipIdx_iff,
    map_zipIdx fun e : Exception => package e.name e.version]
  rintro ⟨e, index⟩ -
  simp only [allowsPackage_none, Bool.not_false]

end Exceptions

namespace SkipEntries

theorem Entry.invalidVersion_eq_nil_iff {m : Model} {e : Entry} {name : String} :
    e.invalidVersion m name = [] ↔ ∀ v ∈ e.version, IsVersion (trim v.value) := by
  apply versionIssues_eq_nil_iff
  · intro h
    rw [invalidVersion, h]
  · intro v h
    simp only [invalidVersion, h]
    split <;> simp [*]

theorem walk_eq_nil_iff {m : Model} {seen : Seen} {es : List Entry} :
    walk m seen es = [] ↔ (∀ e ∈ es, SoundSkip e.name e.version) ∧
      NewTo seen (es.map fun e => (e.list, package e.name e.version)) := by
  induction es generalizing seen with
  | nil => exact iff_of_true rfl ⟨by simp, newTo_nil _⟩
  | cons e es ih =>
    rw [walk, List.forall_mem_cons, List.map_cons, newTo_cons_iff]
    split
    · rename_i hName
      exact iff_of_false (List.cons_ne_nil _ _) fun h => h.1.1.named (packageName_eq_none_iff.mp hName)
    · rename_i name hName
      have hNamed : trimmed e.name ≠ "" := named_of_packageName hName
      obtain rfl := eq_trimmed_of_packageName hName
      have hKey : PackageKey.of (trimmed e.name) e.trimmed = package e.name e.version := rfl
      have hAgain : (if seen.contains (e.list, package e.name e.version) then
          [e.duplicate m (trimmed e.name)] else []) = [] ↔ (e.list, package e.name e.version) ∉ seen := by
        rw [List.contains_eq_mem]
        split <;> simp_all
      simp only [hKey]
      rw [List.append_eq_nil_iff, List.append_eq_nil_iff, Entry.invalidVersion_eq_nil_iff, hAgain, ih]
      constructor
      · rintro ⟨⟨hVersion, hSeen⟩, hSound, hNew⟩
        exact ⟨⟨⟨hNamed, hVersion⟩, hSound⟩, hSeen, hNew⟩
      · rintro ⟨⟨h, hSound⟩, hSeen, hNew⟩
        exact ⟨⟨h.version, hSeen⟩, hSound, hNew⟩

theorem forall_mem_entries_iff {b : Bans} : (∀ e ∈ entries b, SoundSkip e.name e.version) ↔
    (∀ s ∈ b.skip, SoundSkip s.name s.version) ∧ ∀ s ∈ b.skipTree, SoundSkip s.name s.version := by
  rw [entries, List.forall_mem_append, List.forall_mem_map, List.forall_mem_map]
  have hSkips := @forall_mem_zipIdx_iff Skip (fun s => SoundSkip s.name s.version) b.skip
  have hTreeSkips := @forall_mem_zipIdx_iff TreeSkip (fun s => SoundSkip s.name s.version) b.skipTree
  exact and_congr hSkips hTreeSkips

/-- Entries of different lists never clash. -/
theorem nodup_entries_iff {b : Bans} :
    ((entries b).map fun e => (e.list, package e.name e.version)).Nodup ↔
      (b.skip.map fun s => package s.name s.version).Nodup ∧
        (b.skipTree.map fun s => package s.name s.version).Nodup := by
  have hKeys : (entries b).map (fun e => (e.list, package e.name e.version)) =
      (b.skip.map fun s => package s.name s.version).map (Prod.mk ListName.skip) ++
        (b.skipTree.map fun s => package s.name s.version).map (Prod.mk ListName.skipTree) := by
    rw [entries, List.map_append, List.map_map, List.map_map, List.map_map, List.map_map]
    have hSkips := map_zipIdx (fun s : Skip => (ListName.skip, package s.name s.version)) b.skip
    have hTreeSkips :=
      map_zipIdx (fun s : TreeSkip => (ListName.skipTree, package s.name s.version)) b.skipTree
    exact congrArg₂ _ hSkips hTreeSkips
  have hApart : ∀ (ps qs : List PackageKey), ∀ a ∈ ps.map (Prod.mk ListName.skip),
      ∀ c ∈ qs.map (Prod.mk ListName.skipTree), a ≠ c := by
    intro ps qs a ha c hc
    obtain ⟨p, -, rfl⟩ := List.mem_map.mp ha
    obtain ⟨q, -, rfl⟩ := List.mem_map.mp hc
    simp
  rw [hKeys, List.nodup_append, List.nodup_map_iff (Prod.mk_right_injective _),
    List.nodup_map_iff (Prod.mk_right_injective _), and_iff_left (hApart _ _)]

theorem issues_eq_nil_iff {m : Model} : issues m (fun _ => false) = [] ↔
    ((∀ s ∈ m.bans.skip, SoundSkip s.name s.version) ∧
      ∀ s ∈ m.bans.skipTree, SoundSkip s.name s.version) ∧
    (m.bans.skip.map fun s => package s.name s.version).Nodup ∧
      (m.bans.skipTree.map fun s => package s.name s.version).Nodup := by
  rw [issues, List.filter_eq_self.mpr, walk_eq_nil_iff, newTo_empty_iff, forall_mem_entries_iff,
    nodup_entries_iff]
  rintro e -
  rw [allowsPackage_none, Bool.not_false]

end SkipEntries

end PolicyLint.Lint
