import PolicyLint.Policy.Load
import PolicyLint.Proofs.Toml.Heeded
import PolicyLint.Proofs.Toml.Removal

/-!
# The records of a policy

Each record of a policy ignores further keys, and each of its fields has a part to itself that takes more
than one value.
-/
namespace PolicyLint.Policy
open Text Toml Toml.Decode
set_option autoImplicit false

theorem varies_text : text.Varies :=
  ⟨.string ⟨0, 0⟩ "", .string ⟨0, 0⟩ "a", "", "a", rfl, rfl, by decide⟩

theorem varies_place : place.Varies := varies_text.spanned.optional

theorem varies_remark : (optional text).Varies := varies_text.optional

theorem varies_names : (list text).Varies := varies_list (.string ⟨0, 0⟩ "") rfl

theorem varies_texts : (list (spanned text)).Varies := varies_list (.string ⟨0, 0⟩ "") rfl

theorem varies_level : (optional level).Varies :=
  Varies.optional ⟨.string ⟨0, 0⟩ "deny", .string ⟨0, 0⟩ "warn", .deny, .warn, rfl, rfl, by decide⟩

theorem varies_freeSoftware : (optional freeSoftware).Varies :=
  Varies.optional ⟨.string ⟨0, 0⟩ "yes", .string ⟨0, 0⟩ "no", .yes, .no, rfl, rfl, by decide⟩

theorem varies_number : (optional (spanned number)).Varies :=
  Varies.optional (Varies.spanned
    ⟨.float ⟨0, 0⟩ (some .nan), .float ⟨0, 0⟩ (some (.infinite false)), .nan, .infinite false, rfl, rfl,
      by decide⟩)

theorem varies_hash : (optional (spanned signed64)).Varies :=
  Varies.optional (Varies.spanned
    ⟨.integer ⟨0, 0⟩ (some 0), .integer ⟨0, 0⟩ (some 1), 0, 1, rfl, rfl, by decide⟩)

theorem varies_depth : (optional natural32).Varies :=
  Varies.optional ⟨.integer ⟨0, 0⟩ (some 0), .integer ⟨0, 0⟩ (some 1), 0, 1, rfl, rfl, by decide⟩

theorem varies_exceptions : (list exceptionRecord.read).Varies := varies_list (.table ⟨0, 0⟩ .inline []) rfl

theorem varies_licenseFiles : (list licenseFile).Varies :=
  varies_list (.array ⟨0, 0⟩ false [.string ⟨0, 0⟩ "", .integer ⟨0, 0⟩ (some 0)]) rfl

theorem varies_clarifications : (list clarificationRecord.read).Varies :=
  varies_list (.table ⟨0, 0⟩ .inline []) rfl

theorem varies_skips : (list skipRecord.read).Varies := varies_list (.table ⟨0, 0⟩ .inline []) rfl

theorem varies_treeSkips : (list treeSkipRecord.read).Varies := varies_list (.table ⟨0, 0⟩ .inline []) rfl

theorem varies_licenses : (optional licensesRecord.read).Varies :=
  Varies.optional ⟨.array ⟨0, 0⟩ false [], .array ⟨0, 0⟩ false [.string ⟨0, 0⟩ "deny"], {},
    { unlicensed := some .deny }, rfl, rfl, by decide⟩

theorem varies_bans : (optional bansRecord.read).Varies :=
  Varies.optional ⟨.array ⟨0, 0⟩ false [], .array ⟨0, 0⟩ false [.string ⟨0, 0⟩ "deny"], {},
    { multipleVersions := some .deny }, rfl, rfl, by decide⟩

theorem varies_sources : (optional sourcesRecord.read).Varies :=
  Varies.optional ⟨.array ⟨0, 0⟩ false [], .array ⟨0, 0⟩ false [.string ⟨0, 0⟩ "deny"], {},
    { unknownRegistry := some .deny }, rfl, rfl, by decide⟩

theorem exceptionRecord_isPlain : exceptionRecord.IsPlain where
  fields := by simp [exceptionRecord]
  names := by decide
  lax := rfl

theorem exceptionRecord_isVaried : exceptionRecord.IsVaried := by
  intro name hName
  have hNames : exceptionRecord.names = ["name", "version", "allow"] := rfl
  simp only [hNames, List.mem_cons, List.not_mem_nil, or_false] at hName
  rcases hName with rfl | rfl | rfl
  · exact varies_place.field Exception.name rfl (fun _ _ => rfl) (by simp [exceptionRecord])
  · exact varies_place.field Exception.version rfl (fun _ _ => rfl) (by simp [exceptionRecord])
  · exact varies_texts.field Exception.allow rfl (fun _ _ => rfl) (by simp [exceptionRecord])

theorem fileRecord_isPlain : fileRecord.IsPlain where
  fields := by simp [fileRecord]
  names := by decide
  lax := rfl

theorem fileRecord_holds_path :
    fileRecord.Holds "path" place (fun f v => { f with path := v }) FileDraft.path :=
  ⟨rfl, fun _ _ => rfl, by simp [fileRecord]⟩

theorem fileRecord_holds_hash :
    fileRecord.Holds "hash" (optional (spanned signed64)) (fun f v => { f with hash := v }) FileDraft.hash :=
  ⟨rfl, fun _ _ => rfl, by simp [fileRecord]⟩

theorem clarificationRecord_isPlain : clarificationRecord.IsPlain where
  fields := by simp [clarificationRecord]
  names := by decide
  lax := rfl

theorem clarificationRecord_holds_licenseFiles : clarificationRecord.Holds "license-files" (list licenseFile)
    (fun c v => { c with licenseFiles := v }) Clarification.licenseFiles :=
  ⟨rfl, fun _ _ => rfl, by simp [clarificationRecord]⟩

theorem clarificationRecord_isVaried : clarificationRecord.IsVaried := by
  intro name hName
  have hNames : clarificationRecord.names = ["name", "version", "expression", "license-files"] := rfl
  simp only [hNames, List.mem_cons, List.not_mem_nil, or_false] at hName
  rcases hName with rfl | rfl | rfl | rfl
  · exact varies_place.field Clarification.name rfl (fun _ _ => rfl) (by simp [clarificationRecord])
  · exact varies_place.field Clarification.version rfl (fun _ _ => rfl) (by simp [clarificationRecord])
  · exact varies_place.field Clarification.expression rfl (fun _ _ => rfl) (by simp [clarificationRecord])
  · exact ⟨_, _, _, _, clarificationRecord_holds_licenseFiles, varies_licenseFiles⟩

theorem licensesRecord_isPlain : licensesRecord.IsPlain where
  fields := by simp [licensesRecord]
  names := by decide
  lax := rfl

theorem licensesRecord_holds_exceptions : licensesRecord.Holds "exceptions" (list exceptionRecord.read)
    (fun l v => { l with exceptions := v }) Licenses.exceptions :=
  ⟨rfl, fun _ _ => rfl, by simp [licensesRecord]⟩

theorem licensesRecord_holds_clarify : licensesRecord.Holds "clarify" (list clarificationRecord.read)
    (fun l v => { l with clarify := v }) Licenses.clarify :=
  ⟨rfl, fun _ _ => rfl, by simp [licensesRecord]⟩

theorem licensesRecord_isVaried : licensesRecord.IsVaried := by
  intro name hName
  have hNames : licensesRecord.names = ["unlicensed", "copyleft", "allow-osi-fsf-free", "default",
      "confidence-threshold", "allow", "deny", "exceptions", "clarify"] := rfl
  simp only [hNames, List.mem_cons, List.not_mem_nil, or_false] at hName
  rcases hName with rfl | rfl | rfl | rfl | rfl | rfl | rfl | rfl | rfl
  · exact varies_level.field Licenses.unlicensed rfl (fun _ _ => rfl) (by simp [licensesRecord])
  · exact varies_level.field Licenses.copyleft rfl (fun _ _ => rfl) (by simp [licensesRecord])
  · exact varies_freeSoftware.field Licenses.freeSoftware rfl (fun _ _ => rfl) (by simp [licensesRecord])
  · exact varies_level.field Licenses.otherwise rfl (fun _ _ => rfl) (by simp [licensesRecord])
  · exact varies_number.field Licenses.confidenceThreshold rfl (fun _ _ => rfl) (by simp [licensesRecord])
  · exact varies_texts.field Licenses.allow rfl (fun _ _ => rfl) (by simp [licensesRecord])
  · exact varies_texts.field Licenses.deny rfl (fun _ _ => rfl) (by simp [licensesRecord])
  · exact ⟨_, _, _, _, licensesRecord_holds_exceptions, varies_exceptions⟩
  · exact ⟨_, _, _, _, licensesRecord_holds_clarify, varies_clarifications⟩

theorem skipRecord_isPlain : skipRecord.IsPlain where
  fields := by simp [skipRecord]
  names := by decide
  lax := rfl

theorem skipRecord_isVaried : skipRecord.IsVaried := by
  intro name hName
  have hNames : skipRecord.names = ["name", "version", "reason"] := rfl
  simp only [hNames, List.mem_cons, List.not_mem_nil, or_false] at hName
  rcases hName with rfl | rfl | rfl
  · exact varies_place.field Skip.name rfl (fun _ _ => rfl) (by simp [skipRecord])
  · exact varies_place.field Skip.version rfl (fun _ _ => rfl) (by simp [skipRecord])
  · exact varies_remark.field Skip.reason rfl (fun _ _ => rfl) (by simp [skipRecord])

theorem treeSkipRecord_isPlain : treeSkipRecord.IsPlain where
  fields := by simp [treeSkipRecord]
  names := by decide
  lax := rfl

theorem treeSkipRecord_isVaried : treeSkipRecord.IsVaried := by
  intro name hName
  have hNames : treeSkipRecord.names = ["name", "version", "depth", "reason"] := rfl
  simp only [hNames, List.mem_cons, List.not_mem_nil, or_false] at hName
  rcases hName with rfl | rfl | rfl | rfl
  · exact varies_place.field TreeSkip.name rfl (fun _ _ => rfl) (by simp [treeSkipRecord])
  · exact varies_place.field TreeSkip.version rfl (fun _ _ => rfl) (by simp [treeSkipRecord])
  · exact varies_depth.field TreeSkip.depth rfl (fun _ _ => rfl) (by simp [treeSkipRecord])
  · exact varies_remark.field TreeSkip.reason rfl (fun _ _ => rfl) (by simp [treeSkipRecord])

theorem bansRecord_isPlain : bansRecord.IsPlain where
  fields := by simp [bansRecord]
  names := by decide
  lax := rfl

theorem bansRecord_holds_skip : bansRecord.Holds "skip" (list skipRecord.read)
    (fun b v => { b with skip := v }) Bans.skip :=
  ⟨rfl, fun _ _ => rfl, by simp [bansRecord]⟩

theorem bansRecord_holds_skipTree : bansRecord.Holds "skip-tree" (list treeSkipRecord.read)
    (fun b v => { b with skipTree := v }) Bans.skipTree :=
  ⟨rfl, fun _ _ => rfl, by simp [bansRecord]⟩

theorem bansRecord_isVaried : bansRecord.IsVaried := by
  intro name hName
  have hNames : bansRecord.names = ["multiple-versions", "wildcards", "skip", "skip-tree"] := rfl
  simp only [hNames, List.mem_cons, List.not_mem_nil, or_false] at hName
  rcases hName with rfl | rfl | rfl | rfl
  · exact varies_level.field Bans.multipleVersions rfl (fun _ _ => rfl) (by simp [bansRecord])
  · exact varies_level.field Bans.wildcards rfl (fun _ _ => rfl) (by simp [bansRecord])
  · exact ⟨_, _, _, _, bansRecord_holds_skip, varies_skips⟩
  · exact ⟨_, _, _, _, bansRecord_holds_skipTree, varies_treeSkips⟩

theorem sourcesRecord_isPlain : sourcesRecord.IsPlain where
  fields := by simp [sourcesRecord]
  names := by decide
  lax := rfl

theorem sourcesRecord_isVaried : sourcesRecord.IsVaried := by
  intro name hName
  have hNames : sourcesRecord.names =
      ["unknown-registry", "unknown-git", "allow-registry", "allow-git"] := rfl
  simp only [hNames, List.mem_cons, List.not_mem_nil, or_false] at hName
  rcases hName with rfl | rfl | rfl | rfl
  · exact varies_level.field Sources.unknownRegistry rfl (fun _ _ => rfl) (by simp [sourcesRecord])
  · exact varies_level.field Sources.unknownGit rfl (fun _ _ => rfl) (by simp [sourcesRecord])
  · exact varies_names.field Sources.allowRegistry rfl (fun _ _ => rfl) (by simp [sourcesRecord])
  · exact varies_names.field Sources.allowGit rfl (fun _ _ => rfl) (by simp [sourcesRecord])

theorem documentRecord_isPlain : documentRecord.IsPlain where
  fields := by simp [documentRecord]
  names := by decide
  lax := rfl

theorem documentRecord_holds_licenses : documentRecord.Holds "licenses" (optional licensesRecord.read)
    (fun d v => { d with licenses := v }) Document.licenses :=
  ⟨rfl, fun _ _ => rfl, by simp [documentRecord]⟩

theorem documentRecord_holds_bans : documentRecord.Holds "bans" (optional bansRecord.read)
    (fun d v => { d with bans := v }) Document.bans :=
  ⟨rfl, fun _ _ => rfl, by simp [documentRecord]⟩

theorem documentRecord_holds_sources : documentRecord.Holds "sources" (optional sourcesRecord.read)
    (fun d v => { d with sources := v }) Document.sources :=
  ⟨rfl, fun _ _ => rfl, by simp [documentRecord]⟩

theorem documentRecord_isVaried : documentRecord.IsVaried := by
  intro name hName
  have hNames : documentRecord.names = ["licenses", "bans", "sources"] := rfl
  simp only [hNames, List.mem_cons, List.not_mem_nil, or_false] at hName
  rcases hName with rfl | rfl | rfl
  · exact ⟨_, _, _, _, documentRecord_holds_licenses, varies_licenses⟩
  · exact ⟨_, _, _, _, documentRecord_holds_bans, varies_bans⟩
  · exact ⟨_, _, _, _, documentRecord_holds_sources, varies_sources⟩

theorem licenseFile_table_eq_ok_iff {span : Span} {form : Form} {es : Entries} {f : LicenseFile} :
    licenseFile (.table span form es) = .ok f ↔
      fileRecord.readEntries es = .ok ⟨some f.path, some f.hash⟩ := by
  rw [licenseFile, Outcome.bind_eq_ok_iff]
  constructor
  · rintro ⟨draft, hDraft, h⟩
    split at h
    · rename_i path hash hPath hHash
      cases h
      rw [← hPath, ← hHash]
      exact hDraft
    · cases h
  · intro h
    exact ⟨_, h, rfl⟩

theorem licenseFile_forgets : Forgets licenseFile fileRecord.names := by
  intro span form es name f hName hRead
  rw [licenseFile_table_eq_ok_iff] at hRead ⊢
  have hForgets : Forgets fileRecord.read fileRecord.names := Record.forgets fileRecord_isPlain.lax
  exact @hForgets span form es name _ hName hRead

theorem exists_eq_some_of_optional {α : Type} {d : Decode α} {node : Node} {a : Option α}
    (h : optional d node = .ok a) : ∃ b, a = some b := by
  obtain ⟨b, -, rfl⟩ := Outcome.map_eq_ok_iff.mp h
  exact ⟨b, rfl⟩

theorem licenseFile_heeds : Heeds licenseFile fileRecord.names := by
  have hLax := fileRecord_isPlain.lax
  constructor
  · intro span form es name new f f' hName hRead hRead'
    rw [licenseFile_table_eq_ok_iff] at hRead hRead'
    have hSame := Record.readEntries_replace_of_not_mem hLax hName hRead hRead'
    obtain ⟨path, hash⟩ := f
    obtain ⟨path', hash'⟩ := f'
    cases hSame
    rfl
  · intro span form es name old f hes hName hFind hRead
    rw [licenseFile_table_eq_ok_iff] at hRead
    have hNames : fileRecord.names = ["path", "hash"] := rfl
    simp only [hNames, List.mem_cons, List.not_mem_nil, or_false] at hName
    rcases hName with rfl | rfl
    · obtain ⟨new, path, hNew, hNe⟩ := varies_place.exists_ne (some f.path)
      obtain ⟨path, rfl⟩ := exists_eq_some_of_optional hNew
      obtain ⟨draft, hDraft, hPath, -⟩ :=
        fileRecord_holds_path.readEntries_replace fileRecord_isPlain hes.names hFind hRead hNew
      have hHash : draft.hash = some f.hash :=
        fileRecord_holds_hash.get_eq_of_replace hLax hes.names (by decide) hRead hDraft
      refine ⟨new, ⟨path, f.hash⟩, ?_, fun hEq => hNe (congrArg (fun f => some f.path) hEq)⟩
      rw [licenseFile_table_eq_ok_iff, hDraft, ← hPath, ← hHash]
    · obtain ⟨new, hash, hNew, hNe⟩ := varies_hash.exists_ne (some f.hash)
      obtain ⟨hash, rfl⟩ := exists_eq_some_of_optional hNew
      obtain ⟨draft, hDraft, hHash, -⟩ :=
        fileRecord_holds_hash.readEntries_replace fileRecord_isPlain hes.names hFind hRead hNew
      have hPath : draft.path = some f.path :=
        fileRecord_holds_path.get_eq_of_replace hLax hes.names (by decide) hRead hDraft
      refine ⟨new, ⟨f.path, hash⟩, ?_, fun hEq => hNe (congrArg (fun f => some f.hash) hEq)⟩
      rw [licenseFile_table_eq_ok_iff, hDraft, ← hPath, ← hHash]

end PolicyLint.Policy
