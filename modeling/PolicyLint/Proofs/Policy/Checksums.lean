import PolicyLint.Policy.Model
import PolicyLint.Proofs.Policy.Records

/-!
# Checksums have 64 bits

A policy is only loaded if the checksums of its license files are signed words. The bound is carried from the
reader of numbers through the records up to the policy: a record has what the reader of its field yields.
-/
namespace PolicyLint.Toml.Decode
open Text
set_option autoImplicit false

variable {σ α : Type} {d : Decode α} {P : α → Prop}

/-- All that is read has the property. -/
def Yields (d : Decode α) (P : α → Prop) : Prop := ∀ node a, d node = .ok a → P a

theorem Yields.spanned (h : d.Yields P) : (spanned d).Yields fun s => P s.value := by
  intro node s hRead
  obtain ⟨a, ha, rfl⟩ := Outcome.map_eq_ok_iff.mp hRead
  exact h node a ha

theorem Yields.optional (h : d.Yields P) : (optional d).Yields fun o => ∀ a ∈ o, P a := by
  intro node o hRead
  obtain ⟨a, ha, rfl⟩ := Outcome.map_eq_ok_iff.mp hRead
  rintro a' ⟨⟩
  exact h node a ha

theorem Yields.list (h : d.Yields P) : (list d).Yields fun as => ∀ a ∈ as, P a := by
  intro node as hRead a ha
  cases node with
  | array span ofTables items =>
    have hItems : items.map d = as.map .ok := Outcome.mapM_eq_ok_iff.mp hRead
    have hMem : Except.ok a ∈ items.map d := hItems ▸ List.mem_map_of_mem ha
    obtain ⟨item, -, hItem⟩ := List.mem_map.mp hMem
    exact h item a hItem
  | _ =>
    simp only [Decode.list] at hRead
    exact absurd hRead wrongType_ne_ok

theorem yields_integerIn {fits : Int → Bool} {wanted : String} : (integerIn fits wanted).Yields fun n => fits n := by
  intro node n hRead
  unfold integerIn at hRead
  split at hRead
  · split at hRead
    · rename_i hFits
      cases hRead
      exact hFits
    · split at hRead
      · cases hRead
      · exact absurd hRead wrongType_ne_ok
  · exact absurd hRead wrongType_ne_ok

theorem yields_signed64 : signed64.Yields fun n => Decimal.fitsSigned Decimal.half64 n := yields_integerIn

namespace Record

variable {r : Record σ} {name : String} {set : σ → α → σ} {get : σ → α}

/-- No field takes the property from the part that the named field sets. -/
theorem Holds.read_preserves (h : r.Holds name d set get) (hPlain : r.IsPlain) (hYields : d.Yields P)
    {f : Field σ} (hf : f ∈ r.fields) {node : Node} {s s' : σ} (hRead : f.read node s = .ok s')
    (hs : P (get s)) : P (get s') := by
  by_cases hName : f.name = name
  · have hSame := find?_self hPlain.names hf
    rw [hName, h.found] at hSame
    cases hSame
    obtain ⟨a, ha, rfl⟩ := Outcome.map_eq_ok_iff.mp hRead
    rw [h.get_set]
    exact hYields node a ha
  · rwa [h.keeps f hf hName node s s' hRead]

theorem Holds.readEntry_preserves (h : r.Holds name d set get) (hPlain : r.IsPlain) (hYields : d.Yields P)
    {e : Key × Node} {s s' : σ} (hRead : r.readEntry s e = .ok s') (hs : P (get s)) : P (get s') := by
  rcases exists_field_or_not_mem r e.1.name with ⟨f, hf, -, hFind⟩ | hNone
  · rw [readEntry_of_mem hFind] at hRead
    exact h.read_preserves hPlain hYields hf hRead hs
  · rwa [((readEntry_eq_ok_iff_of_not_mem hPlain.lax hNone).mp hRead).2]

theorem Holds.yields (h : r.Holds name d set get) (hPlain : r.IsPlain) (hYields : d.Yields P)
    (hInitial : P (get r.initial)) : Yields r.read fun s => P (get s) := by
  intro node s hRead
  cases node with
  | table span form entries =>
    have hStep : ∀ e ∈ entries, ∀ s s', r.readEntry s e = .ok s' → P (get s) → P (get s') :=
      fun e _ s s' hRead hs => h.readEntry_preserves hPlain hYields hRead hs
    exact Outcome.foldlM_preserves hStep hRead hInitial
  | array span ofTables items =>
    have hStep : ∀ e ∈ r.fields.zip items, ∀ s s', e.1.read e.2 s = .ok s' → P (get s) → P (get s') :=
      fun e he s s' hRead hs => h.read_preserves hPlain hYields (List.of_mem_zip he).1 hRead hs
    exact Outcome.foldlM_preserves hStep hRead hInitial
  | moment span text =>
    have hMoment : (Except.ok r.initial : Except TypeFault σ) = .ok s := by
      rw [← hRead, read, hPlain.lax]
      rfl
    cases hMoment
    exact hInitial
  | _ =>
    simp only [read] at hRead
    exact absurd hRead wrongType_ne_ok

end Record

end PolicyLint.Toml.Decode

namespace PolicyLint.Policy
open Toml Toml.Decode

/-- The checksums of license files are signed words. -/
def Document.HasWords (d : Document) : Prop :=
  ∀ l ∈ d.licenses, ∀ c ∈ l.clarify, ∀ file ∈ c.licenseFiles, Decimal.fitsSigned Decimal.half64 file.hash.value

theorem yields_licenseFile : licenseFile.Yields fun file => Decimal.fitsSigned Decimal.half64 file.hash.value := by
  intro node file hRead
  rw [licenseFile] at hRead
  obtain ⟨draft, hDraft, hRead⟩ := Outcome.bind_eq_ok_iff.mp hRead
  have hHash := fileRecord_holds_hash.yields fileRecord_isPlain yields_signed64.spanned.optional
    (by rintro _ ⟨⟩) node draft hDraft
  split at hRead
  · rename_i path hash hPath hFound
    cases hRead
    exact hHash hash hFound
  · split at hRead <;> cases hRead

theorem yields_document : ofTree.Yields Document.HasWords := by
  have hFiles := clarificationRecord_holds_licenseFiles.yields clarificationRecord_isPlain yields_licenseFile.list
    (by rintro _ ⟨⟩)
  have hClarify := licensesRecord_holds_clarify.yields licensesRecord_isPlain hFiles.list (by rintro _ ⟨⟩)
  exact documentRecord_holds_licenses.yields documentRecord_isPlain hClarify.optional (by rintro _ ⟨⟩)

theorem hasWords_of_load {source : String} {document : Document} (h : load source = .ok document) :
    document.HasWords := by
  rw [load] at h
  split at h
  · cases h
    rintro _ ⟨⟩
  · split at h
    · cases h
    · rename_i tree hTree
      split at h
      · cases h
      · rename_i read hRead
        cases h
        exact yields_document tree _ hRead

theorem Model.hasWords_of_ofSource {path : FilePath} {source : String} {m : Model}
    (h : ofSource path source = .ok m) : m.document.HasWords := by
  obtain ⟨document, hLoad, rfl⟩ := Outcome.map_eq_ok_iff.mp h
  exact hasWords_of_load hLoad

end PolicyLint.Policy
