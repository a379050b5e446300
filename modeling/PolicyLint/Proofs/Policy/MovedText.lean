import PolicyLint.Policy.Model
import PolicyLint.Proofs.Policy.IgnoredKeys
import PolicyLint.Proofs.Toml.BlankTexts
import PolicyLint.Proofs.Toml.MovedSpans

/-!
# Policies further down in their text

Empty lines above a text move everything that it says: the same policy is loaded, with each span moved by as many
bytes, and the same keys are unknown, each on a line so many lines further down.
-/
namespace PolicyLint.Text
set_option autoImplicit false

/-- The text with empty lines above it. -/
def below (lines : Nat) (text : String) : String := String.ofList (List.replicate lines '\n' ++ text.toList)

def Span.shift (bytes : Nat) (span : Span) : Span := ⟨span.start + bytes, span.stop + bytes⟩

theorem feedsBefore_replicate (lines offset : Nat) (cs : List Char) :
    feedsBefore (offset + lines) (List.replicate lines '\n' ++ cs) = feedsBefore offset cs + lines := by
  induction lines with
  | zero => rfl
  | succ n ih =>
    have hFeed : '\n'.utf8Size = 1 := rfl
    rw [List.replicate_succ, List.cons_append, feedsBefore, if_neg (by omega), if_pos rfl, hFeed]
    have hOffset : offset + (n + 1) - 1 = offset + n := by omega
    rw [hOffset, ih]
    omega

theorem lineAt_below (lines : Nat) (text : String) (span : Span) :
    lineAt (below lines text) (span.shift lines).start = lineAt text span.start + lines := by
  rw [lineAt, lineAt, below, String.toList_ofList, Span.shift, feedsBefore_replicate]
  omega

theorem isAllBlank_below (lines : Nat) (text : String) : isAllBlank (below lines text) = isAllBlank text := by
  have hFeed : isBlank '\n' = true := rfl
  rw [isAllBlank, below, String.toList_ofList, List.all_append, List.all_replicate, hFeed, isAllBlank]
  simp

end PolicyLint.Text

namespace PolicyLint.Policy
open Text Toml Toml.Decode
set_option autoImplicit false

section
variable (f : Span → Span)

def Exception.mapSpans (e : Exception) : Exception where
  name := e.name.map (Spanned.mapSpan f)
  version := e.version.map (Spanned.mapSpan f)
  allow := e.allow.map (Spanned.mapSpan f)

def LicenseFile.mapSpans (file : LicenseFile) : LicenseFile := ⟨file.path.mapSpan f, file.hash.mapSpan f⟩

def Clarification.mapSpans (c : Clarification) : Clarification where
  name := c.name.map (Spanned.mapSpan f)
  version := c.version.map (Spanned.mapSpan f)
  expression := c.expression.map (Spanned.mapSpan f)
  licenseFiles := c.licenseFiles.map (LicenseFile.mapSpans f)

def Licenses.mapSpans (l : Licenses) : Licenses :=
  { l with
    confidenceThreshold := l.confidenceThreshold.map (Spanned.mapSpan f)
    allow := l.allow.map (Spanned.mapSpan f)
    deny := l.deny.map (Spanned.mapSpan f)
    exceptions := l.exceptions.map (Exception.mapSpans f)
    clarify := l.clarify.map (Clarification.mapSpans f) }

def Skip.mapSpans (s : Skip) : Skip :=
  { s with name := s.name.map (Spanned.mapSpan f), version := s.version.map (Spanned.mapSpan f) }

def TreeSkip.mapSpans (s : TreeSkip) : TreeSkip :=
  { s with name := s.name.map (Spanned.mapSpan f), version := s.version.map (Spanned.mapSpan f) }

def Bans.mapSpans (b : Bans) : Bans :=
  { b with skip := b.skip.map (Skip.mapSpans f), skipTree := b.skipTree.map (TreeSkip.mapSpans f) }

def Document.mapSpans (d : Document) : Document :=
  { d with licenses := d.licenses.map (Licenses.mapSpans f), bans := d.bans.map (Bans.mapSpans f) }

/-- A file draft whose spans are moved. -/
def FileDraft.mapSpans (draft : FileDraft) : FileDraft :=
  ⟨draft.path.map (Spanned.mapSpan f), draft.hash.map (Spanned.mapSpan f)⟩

end

section
variable {f : Span → Span}

theorem moves_place : place.Moves f (Option.map (Spanned.mapSpan f)) := moves_text.spanned.optional

theorem moves_level : (optional level).Moves f id := moves_choice.optional_id

theorem moves_texts : (list (spanned text)).Moves f (List.map (Spanned.mapSpan f)) := moves_text.spanned.list

theorem moves_exception : exceptionRecord.read.Moves f (Exception.mapSpans f) := by
  apply Record.moves_read
  · simp only [exceptionRecord, List.forall_mem_cons]
    exact ⟨moves_place.field fun _ _ => rfl, moves_place.field fun _ _ => rfl, moves_texts.field fun _ _ => rfl,
      List.forall_mem_nil _⟩
  · rfl

theorem moves_fileDraft : fileRecord.read.Moves f (FileDraft.mapSpans f) := by
  apply Record.moves_read
  · simp only [fileRecord, List.forall_mem_cons]
    exact ⟨moves_place.field fun _ _ => rfl, moves_integerIn.spanned.optional.field fun _ _ => rfl,
      List.forall_mem_nil _⟩
  · rfl

theorem moves_licenseFile : licenseFile.Moves f (LicenseFile.mapSpans f) := by
  intro node file hRead
  obtain ⟨draft, hDraft, hFile⟩ := Outcome.bind_eq_ok_iff.mp hRead
  refine Outcome.bind_eq_ok_iff.mpr ⟨draft.mapSpans f, moves_fileDraft node draft hDraft, ?_⟩
  split at hFile
  · rename_i path hash hPath hHash
    cases hFile
    rw [FileDraft.mapSpans, hPath, hHash]
    rfl
  · cases node <;> cases hFile

theorem moves_clarification : clarificationRecord.read.Moves f (Clarification.mapSpans f) := by
  apply Record.moves_read
  · simp only [clarificationRecord, List.forall_mem_cons]
    exact ⟨moves_place.field fun _ _ => rfl, moves_place.field fun _ _ => rfl, moves_place.field fun _ _ => rfl,
      moves_licenseFile.list.field fun _ _ => rfl, List.forall_mem_nil _⟩
  · rfl

theorem moves_licenses : licensesRecord.read.Moves f (Licenses.mapSpans f) := by
  apply Record.moves_read
  · simp only [licensesRecord, List.forall_mem_cons]
    exact ⟨moves_level.field fun _ _ => rfl, moves_level.field fun _ _ => rfl,
      moves_choice.optional_id.field fun _ _ => rfl, moves_level.field fun _ _ => rfl,
      moves_number.spanned.optional.field fun _ _ => rfl, moves_texts.field fun _ _ => rfl,
      moves_texts.field fun _ _ => rfl, moves_exception.list.field fun _ _ => rfl,
      moves_clarification.list.field fun _ _ => rfl, List.forall_mem_nil _⟩
  · rfl

theorem moves_skip : skipRecord.read.Moves f (Skip.mapSpans f) := by
  apply Record.moves_read
  · simp only [skipRecord, List.forall_mem_cons]
    exact ⟨moves_place.field fun _ _ => rfl, moves_place.field fun _ _ => rfl,
      moves_text.optional_id.field fun _ _ => rfl, List.forall_mem_nil _⟩
  · rfl

theorem moves_treeSkip : treeSkipRecord.read.Moves f (TreeSkip.mapSpans f) := by
  apply Record.moves_read
  · simp only [treeSkipRecord, List.forall_mem_cons]
    exact ⟨moves_place.field fun _ _ => rfl, moves_place.field fun _ _ => rfl,
      moves_natural32.optional_id.field fun _ _ => rfl, moves_text.optional_id.field fun _ _ => rfl,
      List.forall_mem_nil _⟩
  · rfl

theorem moves_bans : bansRecord.read.Moves f (Bans.mapSpans f) := by
  apply Record.moves_read
  · simp only [bansRecord, List.forall_mem_cons]
    exact ⟨moves_level.field fun _ _ => rfl, moves_level.field fun _ _ => rfl,
      moves_skip.list.field fun _ _ => rfl, moves_treeSkip.list.field fun _ _ => rfl, List.forall_mem_nil _⟩
  · rfl

theorem moves_sources : sourcesRecord.read.Moves f id := by
  apply Record.moves_read
  · simp only [sourcesRecord, List.forall_mem_cons]
    exact ⟨moves_level.field fun _ _ => rfl, moves_level.field fun _ _ => rfl,
      moves_text.list_id.field fun _ _ => rfl, moves_text.list_id.field fun _ _ => rfl, List.forall_mem_nil _⟩
  · rfl

theorem moves_ofTree : ofTree.Moves f (Document.mapSpans f) := by
  apply Record.moves_read
  · simp only [documentRecord, List.forall_mem_cons]
    exact ⟨moves_licenses.optional.field fun _ _ => rfl, moves_bans.optional.field fun _ _ => rfl,
      moves_sources.optional_id.field fun _ _ => rfl, List.forall_mem_nil _⟩
  · rfl

end

def UnknownKey.moveLine (move : Nat → Nat) (key : UnknownKey) : UnknownKey := { key with line := move key.line }

section
variable {source source' : String} {f : Span → Span} {move : Nat → Nat}

/-- The moved tree stands in a text in which each line is found again where it was moved. -/
def MovesLines (source source' : String) (f : Span → Span) (move : Nat → Nat) : Prop :=
  ∀ span : Span, lineAt source' (f span).start = move (lineAt source span.start)

theorem movesLines_below (lines : Nat) (text : String) :
    MovesLines text (below lines text) (Span.shift lines) (· + lines) :=
  lineAt_below lines text

theorem tableEntries?_mapSpans (node : Node) :
    tableEntries? (node.mapSpans f) = (tableEntries? node).map (mapEntrySpans f) := by
  cases node <;> rfl

theorem arrayItems_mapEntrySpans (entries : Entries) (name : String) :
    arrayItems (mapEntrySpans f entries) name = (arrayItems entries name).map (Node.mapSpans f) := by
  rw [arrayItems, arrayItems, find?_mapEntrySpans]
  cases Entries.find? name entries with
  | none => rfl
  | some node =>
    cases node with
    | array span ofTables items => exact mapItemSpans_eq items
    | string _ _ | integer _ _ | float _ _ | boolean _ _ | moment _ _ | table _ _ _ => rfl

theorem tableItems_mapEntrySpans (entries : Entries) (name : String) :
    tableItems (mapEntrySpans f entries) name =
      (tableItems entries name).map fun e => (e.1, mapEntrySpans f e.2) := by
  rw [tableItems, tableItems, arrayItems_mapEntrySpans, List.zipIdx_map, List.filterMap_map, List.map_filterMap]
  apply List.filterMap_congr
  rintro ⟨node, index⟩ -
  change (tableEntries? (node.mapSpans f)).map _ = ((tableEntries? node).map _).map _
  rw [tableEntries?_mapSpans, Option.map_map, Option.map_map]
  rfl

theorem unknownIn_mapEntrySpans (h : MovesLines source source' f move) (pre : String) (known : List String)
    (entries : Entries) : unknownIn source' pre known (mapEntrySpans f entries) =
      (unknownIn source pre known entries).map (UnknownKey.moveLine move) := by
  rw [unknownIn, unknownIn, mapEntrySpans_eq, List.filter_map, List.map_map, List.map_map]
  apply List.map_congr_left
  intro e _
  exact congrArg (UnknownKey.mk _ _) (h e.1.span)

theorem unknownInItems_mapEntrySpans (h : MovesLines source source' f move) (pre name : String)
    (known : List String) (entries : Entries) : unknownInItems source' pre name known (mapEntrySpans f entries) =
      (unknownInItems source pre name known entries).map (UnknownKey.moveLine move) := by
  rw [unknownInItems, unknownInItems, tableItems_mapEntrySpans, List.flatMap_map, List.map_flatMap]
  simp only [unknownIn_mapEntrySpans h]

theorem unknownInLicenses_mapEntrySpans (h : MovesLines source source' f move) (entries : Entries) :
    unknownInLicenses source' (mapEntrySpans f entries) =
      (unknownInLicenses source entries).map (UnknownKey.moveLine move) := by
  simp only [unknownInLicenses, unknownIn_mapEntrySpans h, unknownInItems_mapEntrySpans h,
    tableItems_mapEntrySpans, List.flatMap_map, List.map_append, List.map_flatMap]

theorem unknownInBans_mapEntrySpans (h : MovesLines source source' f move) (entries : Entries) :
    unknownInBans source' (mapEntrySpans f entries) =
      (unknownInBans source entries).map (UnknownKey.moveLine move) := by
  simp only [unknownInBans, unknownIn_mapEntrySpans h, unknownInItems_mapEntrySpans h, List.map_append]

theorem unknownInSection_mapEntrySpans {walk walk' : Entries → List UnknownKey}
    (hWalk : ∀ entries, walk' (mapEntrySpans f entries) = (walk entries).map (UnknownKey.moveLine move))
    (root : Entries) (name : String) : unknownInSection (mapEntrySpans f root) name walk' =
      (unknownInSection root name walk).map (UnknownKey.moveLine move) := by
  rw [unknownInSection, unknownInSection, find?_mapEntrySpans]
  cases Entries.find? name root with
  | none => rfl
  | some node =>
    rw [Option.map_some, Option.bind_some, Option.bind_some, tableEntries?_mapSpans]
    cases tableEntries? node with
    | none => rfl
    | some entries => exact hWalk entries

theorem unknownInTree_mapEntrySpans (h : MovesLines source source' f move) (root : Entries) :
    unknownInTree source' (mapEntrySpans f root) =
      (unknownInTree source root).map (UnknownKey.moveLine move) := by
  rw [unknownInTree, unknownInTree, unknownIn_mapEntrySpans h,
    unknownInSection_mapEntrySpans (unknownInLicenses_mapEntrySpans h),
    unknownInSection_mapEntrySpans (unknownInBans_mapEntrySpans h),
    unknownInSection_mapEntrySpans (unknownIn_mapEntrySpans h _ _), List.map_append, List.map_append,
    List.map_append]

end

theorem unknownKeys_of_isAllBlank {s : String} (h : isAllBlank s = true) : unknownKeys s = [] := by
  rw [unknownKeys]
  split
  · rename_i tree hParse
    obtain ⟨span, form, rfl⟩ := parse_of_isAllBlank h hParse
    rfl
  · rfl

/-- Below some lines the text is read as the same tree, with every span moved by as many bytes; only the table that
is the whole document has another extent. -/
def ReadsBelow (lines : Nat) (text : String) : Prop :=
  ∀ span form entries, Toml.parse text = .ok (.table span form entries) → ∃ whole,
    Toml.parse (below lines text) = .ok (.table whole form (mapEntrySpans (Span.shift lines) entries))

/-- The same policy, so many lines further down. -/
structure Model.MovesTo (lines : Nat) (m m' : Model) : Prop where
  path : m'.path = m.path
  document : m'.document = m.document.mapSpans (Span.shift lines)
  unknownKeys : m'.unknownKeys = m.unknownKeys.map (UnknownKey.moveLine (· + lines))
  lineOf : ∀ span : Option Span, m'.lineOf (span.map (Span.shift lines)) = (m.lineOf span).map (· + lines)

theorem unknownKeys_below {lines : Nat} {text : String} {span whole : Span} {form : Form} {entries : Entries}
    (hParse : Toml.parse text = .ok (.table span form entries))
    (hBelow : Toml.parse (below lines text) =
      .ok (.table whole form (mapEntrySpans (Span.shift lines) entries))) :
    unknownKeys (below lines text) = (unknownKeys text).map (UnknownKey.moveLine (· + lines)) := by
  rw [unknownKeys, unknownKeys, hBelow, hParse]
  exact unknownInTree_mapEntrySpans (movesLines_below lines text) entries

theorem lineOf_below (lines : Nat) {m m' : Model} (hSome : m.source.isEmpty = false)
    (hSource : m'.source = below lines m.source) (span : Option Span) :
    m'.lineOf (span.map (Span.shift lines)) = (m.lineOf span).map (· + lines) := by
  cases span with
  | none => rfl
  | some span =>
    have hBelow : (below lines m.source).isEmpty = false := by
      rw [Bool.eq_false_iff, ne_eq, String.isEmpty_iff, ← String.toList_inj] at hSome ⊢
      rw [below, String.toList_ofList]
      exact fun hEmpty => hSome (List.append_eq_nil_iff.mp hEmpty).2
    rw [Option.map_some, Model.lineOf, Model.lineOf, hSource, hBelow, hSome, if_neg Bool.false_ne_true,
      if_neg Bool.false_ne_true, lineAt_below]
    rfl

theorem Model.exists_movesTo {path : FilePath} {text : String} {lines : Nat} {m : Model}
    (hModel : Model.ofSource path text = .ok m) (hText : isAllBlank text = false)
    (hReads : ReadsBelow lines text) :
    ∃ m', Model.ofSource path (below lines text) = .ok m' ∧ m.MovesTo lines m' := by
  obtain ⟨document, hLoad, rfl⟩ := Outcome.map_eq_ok_iff.mp hModel
  rw [load, hText, if_neg Bool.false_ne_true] at hLoad
  split at hLoad
  · cases hLoad
  · rename_i tree hParse
    obtain ⟨span, form, entries, rfl⟩ := exists_eq_table hParse
    obtain ⟨whole, hBelow⟩ := hReads span form entries hParse
    split at hLoad
    · cases hLoad
    · rename_i read hRead
      cases hLoad
      have hMoved : ofTree (.table whole form (mapEntrySpans (Span.shift lines) entries)) =
          .ok (document.mapSpans (Span.shift lines)) := moves_ofTree (.table span form entries) document hRead
      have hLoaded : load (below lines text) = .ok (document.mapSpans (Span.shift lines)) := by
        rw [load, isAllBlank_below, hText, if_neg Bool.false_ne_true, hBelow]
        simp only [hMoved]
      refine ⟨_, Outcome.map_eq_ok_iff.mpr ⟨_, hLoaded, rfl⟩, rfl, rfl, ?_, ?_⟩
      · exact unknownKeys_below hParse hBelow
      · have hSome : text.isEmpty = false := by
          rw [Bool.eq_false_iff, ne_eq, String.isEmpty_iff]
          rintro rfl
          cases hText
        exact lineOf_below lines hSome rfl

end PolicyLint.Policy
