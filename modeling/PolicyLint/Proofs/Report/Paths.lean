import PolicyLint.Proofs.Json.Fields
import PolicyLint.Proofs.Policy.FilePaths
import PolicyLint.Proofs.Report.Runs
import PolicyLint.Report.Annotations

/-!
# Paths in reports

All paths in the report of a run are the path of its policy, so they are in normal form if that is. A report that
is read has the paths that stand in its text. They are not brought into normal form again, and whoever wrote the
text may not have done so.
-/
namespace PolicyLint.Report
open Json Json.Decode Lint Policy Settings Text Time
set_option autoImplicit false

/-- The path of the policy, and those of the places of findings. -/
def paths (r : Report) : List FilePath :=
  r.summary.policyPath :: r.findings.filterMap fun f => f.location.map Location.path

def HasNormalPaths (r : Report) : Prop := ∀ path ∈ r.paths, path.IsNormal

/-- Reports on the policy with this path, whether it could be checked or not. -/
inductive IsAbout (path : FilePath) : Report → Prop
  | check {started finished : Stamp} {policy settings : String} {overrides : Overrides} {r : Report}
    (h : check started finished path policy settings overrides = .ok r) : IsAbout path r
  | policyFailure (now : Stamp) (profile : String) (line : Option Nat) (message : String) :
    IsAbout path (policyFailure now path profile line message)
  | runtimeError (now : Stamp) (message : String) : IsAbout path (runtimeError now path message)

/-- The path of the place of a finding, as it is written. -/
def placeIn (finding : Value) : Option String :=
  ((findingRecord.part? "location" finding).bind (locationRecord.part? "path")).bind Value.string?

/-- The path of the policy and the paths of the places of findings, as they are written. -/
def pathsIn (v : Value) : List String :=
  (((record.part? "data" v).bind (summaryRecord.part? "policy_path")).bind Value.string?).toList ++
    ((record.part? "findings" v).elim [] Value.items).filterMap placeIn

theorem eq_of_mem_paths_ofEvaluation {run : RunTimes} {m : Model} {plan : Plan} {path : FilePath}
    (h : path ∈ (ofEvaluation run (evaluate m plan)).paths) : path = m.path := by
  rw [paths, List.mem_cons, List.mem_filterMap] at h
  obtain rfl | ⟨f, hf, hPath⟩ := h
  · rfl
  · obtain ⟨check, rule, -, i, -, rfl⟩ := mem_findingsOf_iff.mp (mem_findingsOf_of_mem_findings hf)
    exact (Option.some.inj hPath).symm

theorem path_of_ofSource {path : FilePath} {source : String} {m : Model} (h : Model.ofSource path source = .ok m) :
    m.path = path := by
  obtain ⟨document, -, rfl⟩ := Outcome.map_eq_ok_iff.mp h
  rfl

theorem eq_of_mem_paths_policyFailure {now : Stamp} {path other : FilePath} {profile message : String}
    {line : Option Nat} (h : other ∈ (policyFailure now path profile line message).paths) : other = path := by
  obtain rfl | h := List.mem_cons.mp h
  · rfl
  · exact List.mem_singleton.mp h

theorem IsAbout.eq_of_mem_paths {path other : FilePath} {r : Report} (h : IsAbout path r) (hMem : other ∈ r.paths) :
    other = path := by
  cases h with
  | check h =>
    rw [Report.check, Outcome.map_eq_ok_iff] at h
    obtain ⟨plan, -, rfl⟩ := h
    cases hModel : Model.ofSource path _ with
    | ok m =>
      rw [hModel] at hMem
      exact (eq_of_mem_paths_ofEvaluation hMem).trans (path_of_ofSource hModel)
    | error fault =>
      rw [hModel] at hMem
      exact eq_of_mem_paths_policyFailure hMem
  | policyFailure => exact eq_of_mem_paths_policyFailure hMem
  | runtimeError => exact List.mem_singleton.mp hMem

theorem holds_data : record.Holds "data" .required summaryRecord.read summary :=
  ⟨⟨_, rfl, rfl, sets_field fun _ _ => rfl⟩, by simp [record]⟩

theorem holds_findings : record.Holds "findings" .required (list findingRecord.read) findings :=
  ⟨⟨_, rfl, rfl, sets_field fun _ _ => rfl⟩, by simp [record]⟩

theorem holds_policyPath : summaryRecord.Holds "policy_path" .required filePath Summary.policyPath :=
  ⟨⟨_, rfl, rfl, sets_field fun _ _ => rfl⟩, by simp [summaryRecord]⟩

theorem holds_location :
    findingRecord.Holds "location" .positional (optional locationRecord.read) Finding.location :=
  ⟨⟨_, rfl, rfl, sets_field fun _ _ => rfl⟩, by simp [findingRecord]⟩

theorem holds_path : locationRecord.Holds "path" .required filePath Location.path :=
  ⟨⟨_, rfl, rfl, sets_field fun _ _ => rfl⟩, by simp [locationRecord]⟩

theorem string?_of_filePath {v : Value} {path : FilePath} (h : filePath v = .ok path) : v.string? = some path.text := by
  obtain ⟨s, hText, rfl⟩ := Outcome.map_eq_ok_iff.mp h
  cases v with
  | string s =>
    cases hText
    rfl
  | _ => cases hText

theorem placeIn_eq {v : Value} {f : Finding} (h : findingRecord.read v = .ok f) :
    placeIn v = f.location.map fun l => l.path.text := by
  rw [placeIn]
  -- A place may be left out, and it may be null.
  obtain ⟨hNone, hLocation⟩ | ⟨w, hPart, hRead⟩ := holds_location.read_optional anyOrder_findingRecord h
  · rw [hNone, hLocation]
    rfl
  · rw [hPart, Option.bind_some]
    obtain ⟨rfl, hLocation⟩ | ⟨l, hPlace, hLocation⟩ := optional_eq_ok hRead
    · rw [hLocation]
      rfl
    · obtain ⟨path, hPath, hText⟩ := holds_path.read_required anyOrder_locationRecord hPlace
      rw [hPath, Option.bind_some, string?_of_filePath hText, hLocation]
      rfl

theorem filterMap_placeIn {v : Value} {fs : List Finding} (h : list findingRecord.read v = .ok fs) :
    v.items.filterMap placeIn = fs.filterMap fun f => f.location.map fun l => l.path.text := by
  cases v with
  | array items =>
    have hPlaces := Outcome.map_eq_map_of_mapM (fun v f => placeIn_eq) h
    calc
      items.filterMap placeIn = (items.map placeIn).filterMap id := by rw [List.filterMap_map, Function.id_comp]
      _ = (fs.map fun f => f.location.map fun l => l.path.text).filterMap id := by rw [hPlaces]
      _ = fs.filterMap fun f => f.location.map fun l => l.path.text := by rw [List.filterMap_map, Function.id_comp]
  | _ => cases h

/-- A report that is read has the paths that are written. -/
theorem map_text_paths {v : Value} {r : Report} (h : record.read v = .ok r) :
    r.paths.map FilePath.text = pathsIn v := by
  obtain ⟨data, hData, hSummary⟩ := holds_data.read_required anyOrder_record h
  obtain ⟨policy, hPolicy, hPath⟩ := holds_policyPath.read_required anyOrder_summaryRecord hSummary
  obtain ⟨found, hFound, hFindings⟩ := holds_findings.read_required anyOrder_record h
  have hPlaces : (r.findings.filterMap fun f => f.location.map Location.path).map FilePath.text =
      r.findings.filterMap fun f => f.location.map fun l => l.path.text := by
    simp only [List.map_filterMap, Option.map_map, Function.comp_def]
  rw [pathsIn, hData, Option.bind_some, hPolicy, Option.bind_some, string?_of_filePath hPath, hFound,
    Option.elim_some, filterMap_placeIn hFindings, paths, List.map_cons, hPlaces]
  rfl

theorem read_of_parse {text : String} {r : Report} (h : parse text = .ok r) :
    ∃ v, Json.parse text = .ok v ∧ record.read v = .ok r := by
  rw [parse] at h
  split at h
  · rename_i v hParse
    rw [ofJson] at h
    split_ifs at h
    split at h
    · rename_i hRead
      cases h
      exact ⟨v, hParse, hRead⟩
    · cases h
  · cases h

/-- The reports on a path that was read have their paths in normal form, and are read back so. Of any report that
is read this is true exactly if its paths are written so. -/
theorem hasNormalPaths_iff_pathsIn (s text : String) (r : Report) :
    FilePath.default.IsNormal ∧
    (IsAbout (.ofText s) r → r.HasNormalPaths ∧ (r.Made → r.Fits → parse r.serialize = .ok r)) ∧
    (parse text = .ok r → ∃ v, Json.parse text = .ok v ∧ r.paths.map FilePath.text = pathsIn v ∧
      (r.HasNormalPaths ↔ ∀ path ∈ pathsIn v, (FilePath.mk path).IsNormal)) := by
  refine ⟨FilePath.isNormal_default, fun hAbout => ⟨fun path hPath => ?_, fun hMade hFits => ?_⟩,
    fun hParse => ?_⟩
  · rw [hAbout.eq_of_mem_paths hPath]
    exact FilePath.isNormal_ofText s
  · exact parse_serialize_of_writable (hMade.writable hFits)
  · obtain ⟨v, hJson, hRead⟩ := read_of_parse hParse
    refine ⟨v, hJson, map_text_paths hRead, ?_⟩
    rw [← map_text_paths hRead, List.forall_mem_map]
    rfl

theorem fits_policyFailure (now : Stamp) (path : FilePath) (profile message : String) {line : Option Nat}
    (hLine : ∀ n ∈ line, n < Decimal.word32) : (policyFailure now path profile line message).Fits := by
  have hZero : 0 < Decimal.word32 := by decide
  have hOne : 1 < Decimal.word32 := by decide
  refine ⟨hOne, hZero, hZero, hZero, fun f hf place hPlace => ?_, fun f hf n hOffset => ?_⟩
  · rw [List.mem_singleton.mp hf] at hPlace
    cases hPlace
    exact hLine
  · rw [List.mem_singleton.mp hf] at hOffset
    cases hOffset

/-- The report on a policy that ends too soon. -/
def brokenReport (path : FilePath) : Report :=
  policyFailure (.ofEpoch 0 0) path "strict" (some 3) "expected a value"

theorem made_brokenReport (path : FilePath) : (brokenReport path).Made :=
  .policyFailure Stamp.isUniversal_ofEpoch_zero path _ _ _

theorem fits_brokenReport (path : FilePath) : (brokenReport path).Fits := by
  refine fits_policyFailure _ path _ _ ?_
  rintro n ⟨⟩
  decide

theorem parse_brokenReport (path : FilePath) : parse (brokenReport path).serialize = .ok (brokenReport path) :=
  parse_serialize_of_writable ((made_brokenReport path).writable (fits_brokenReport path))

theorem hasNormalPaths_brokenReport :
    IsAbout (.ofText ".\\ci/deny.toml") (brokenReport (.ofText ".\\ci/deny.toml")) ∧
    (brokenReport (.ofText ".\\ci/deny.toml")).HasNormalPaths ∧
    parse (brokenReport (.ofText ".\\ci/deny.toml")).serialize = .ok (brokenReport (.ofText ".\\ci/deny.toml")) ∧
    ∃ v, Json.parse (brokenReport (.ofText ".\\ci/deny.toml")).serialize = .ok v ∧
      pathsIn v = ["ci/deny.toml", "ci/deny.toml"] := by
  obtain ⟨-, hRun, hRead⟩ := hasNormalPaths_iff_pathsIn ".\\ci/deny.toml"
    (brokenReport (.ofText ".\\ci/deny.toml")).serialize (brokenReport (.ofText ".\\ci/deny.toml"))
  have hAbout : IsAbout (.ofText ".\\ci/deny.toml") (brokenReport (.ofText ".\\ci/deny.toml")) :=
    .policyFailure _ _ _ _
  obtain ⟨hNormal, hBack⟩ := hRun hAbout
  have hParse := hBack (made_brokenReport _) (fits_brokenReport _)
  obtain ⟨v, hJson, hPaths, -⟩ := hRead hParse
  exact ⟨hAbout, hNormal, hParse, v, hJson, hPaths.symm.trans (by decide)⟩

/-- A path with a dot in front keeps it when a report is read, and it is shown so. A run on this path leaves it
out. -/
theorem not_hasNormalPaths_dotted :
    parse (brokenReport ⟨"./deny.toml"⟩).serialize = .ok (brokenReport ⟨"./deny.toml"⟩) ∧
    ¬ (brokenReport ⟨"./deny.toml"⟩).HasNormalPaths ∧
    (brokenReport ⟨"./deny.toml"⟩).allAnnotations =
      ["::error file=./deny.toml,line=3,title=tool.runtime::[policy_parse] expected a value"] ∧
    (brokenReport (.ofText "./deny.toml")).allAnnotations =
      ["::error file=deny.toml,line=3,title=tool.runtime::[policy_parse] expected a value"] := by
  refine ⟨parse_brokenReport _, fun hNormal => ?_, by decide +kernel, by decide +kernel⟩
  exact (hNormal ⟨"./deny.toml"⟩ List.mem_cons_self).noDots (by decide)

end PolicyLint.Report
