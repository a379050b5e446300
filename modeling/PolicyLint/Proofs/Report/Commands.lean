import Mathlib.Data.List.Forall2
import PolicyLint.Proofs.Text.Digits
import PolicyLint.Proofs.Text.Lines
import PolicyLint.Report.Annotations

/-!
# Annotations are read back

A runner cuts a command at its dividers before it decodes the parts. No part of a written annotation holds a
divider or a line end, whatever the texts of the finding are, so a finding is one command, and what the runner
shows is what the finding says.
-/
namespace PolicyLint.Report
open Lint Text
set_option autoImplicit false

/-- The character of a code of two hexadecimal digits. -/
def codedChar (high low : Char) : Option Char := do
  let h ← "0123456789ABCDEF".toList.idxOf? high.toUpper
  let l ← "0123456789ABCDEF".toList.idxOf? low.toUpper
  return Char.ofNat (16 * h + l)

/-- A percent sign and two hexadecimal digits stand for one character. -/
def unescape : List Char → List Char
  | [] => []
  | '%' :: high :: low :: cs =>
    match codedChar high low with
    | some c => c :: unescape cs
    | none => '%' :: unescape (high :: low :: cs)
  | c :: cs => c :: unescape cs

/-- The texts around the first two colons that stand together. -/
def cutAtColons : List Char → Option (List Char × List Char)
  | ':' :: ':' :: cs => some ([], cs)
  | c :: cs => (cutAtColons cs).map fun (a, b) => (c :: a, b)
  | [] => none

/-- A command to the runner, cut into its parts and decoded. -/
structure Command where
  level : String
  properties : List (String × String)
  data : String
  deriving DecidableEq, Repr

namespace Command

def property (piece : List Char) : Option (String × String) :=
  (cutAt (· == '=') piece).map fun (name, value) => (String.ofList name, String.ofList (unescape value))

/-- The level reaches to the first blank, the properties to the next two colons. -/
def read (s : String) : Option Command := do
  let cs ← stripFront "::".toList s.toList
  let (level, cs) ← cutAt (· == ' ') cs
  let (properties, data) ← cutAtColons cs
  return {
    level := String.ofList level
    properties := ← (splitAt (· == ',') properties).mapM property
    data := String.ofList (unescape data) }

end Command

/-- What is shown of a finding beside the line it is about. -/
structure Shown where
  severity : Severity
  path : Option String
  line : Option Nat
  title : String
  text : String
  deriving DecidableEq, Repr

def Shown.of (f : Finding) : Shown where
  severity := f.severity
  path := f.location.map fun l => l.path.text
  line := f.location.bind Location.line
  title := f.check
  text := "[" ++ f.code ++ "] " ++ f.message

def severityOfLevel? (level : String) : Option Severity :=
  [Severity.error, .warning, .info].find? fun severity => annotationLevel severity == level

def substitute (c : Char) (text : String) (cs : List Char) : List Char :=
  cs.flatMap fun d => if d = c then text.toList else [d]

/-- Percent signs are replaced first, before codes bring new ones. -/
theorem toList_escapeData (s : String) : (escapeData s).toList =
    substitute '\n' "%0A" (substitute '\r' "%0D" (substitute '%' "%25" s.toList)) := by
  simp only [escapeData, substitute, String.toList_ofList, List.flatMap_assoc]
  apply List.flatMap_congr
  intro c _
  unfold dataChar
  split_ifs with hPercent hReturn hFeed <;> simp [*]

/-- No code holds a character that is replaced after it. -/
theorem toList_escapeProperty (s : String) : (escapeProperty s).toList =
    substitute ',' "%2C" (substitute ':' "%3A" (escapeData s).toList) := by
  simp only [escapeProperty, escapeData, substitute, String.toList_ofList, List.flatMap_assoc]
  apply List.flatMap_congr
  intro c _
  unfold propertyChar dataChar
  split_ifs <;> simp_all

/-- The number that a text of decimal digits stands for. -/
def wholeNumber? (s : String) : Option Nat :=
  if s.toList ≠ [] ∧ s.toList.all Char.isDigit then some (Nat.ofDigitChars 10 s.toList 0) else none

theorem wholeNumber?_repr (n : Nat) : wholeNumber? n.repr = some n := by
  rw [wholeNumber?, Nat.toList_repr, Nat.ofDigitChars_ten_toDigits]
  exact if_pos ⟨Nat.toDigits_ne_nil, List.all_eq_true.mpr fun c => isDigit_of_mem_toDigits⟩

def Command.shown? (c : Command) : Option Shown := do
  return {
    severity := ← severityOfLevel? c.level
    path := c.properties.lookup "file"
    line := ← match c.properties.lookup "line" with
      | some digits => (wholeNumber? digits).map some
      | none => some none
    title := ← c.properties.lookup "title"
    text := c.data }

section
variable {c : Char} {cs a b : List Char}

theorem unescape_cons (h : c ≠ '%') : unescape (c :: cs) = c :: unescape cs := by
  rw [unescape]
  rintro high low rest rfl
  exact absurd rfl h

theorem unescape_dataChar (c : Char) (cs : List Char) : unescape (dataChar c ++ cs) = c :: unescape cs := by
  unfold dataChar
  split_ifs with hPercent hReturn hFeed
  · subst hPercent; rfl
  · subst hReturn; rfl
  · subst hFeed; rfl
  · exact unescape_cons hPercent

theorem unescape_propertyChar (c : Char) (cs : List Char) :
    unescape (propertyChar c ++ cs) = c :: unescape cs := by
  unfold propertyChar
  split_ifs with hColon hComma
  · subst hColon; rfl
  · subst hComma; rfl
  · exact unescape_dataChar c cs

theorem unescape_flatMap {code : Char → List Char}
    (hCode : ∀ c cs, unescape (code c ++ cs) = c :: unescape cs) (cs : List Char) :
    unescape (cs.flatMap code) = cs := by
  induction cs with
  | nil => rfl
  | cons c cs ih => rw [List.flatMap_cons, hCode, ih]

theorem unescape_escapeData (s : String) : unescape (escapeData s).toList = s.toList := by
  rw [escapeData, String.toList_ofList, unescape_flatMap unescape_dataChar]

theorem unescape_escapeProperty (s : String) : unescape (escapeProperty s).toList = s.toList := by
  rw [escapeProperty, String.toList_ofList, unescape_flatMap unescape_propertyChar]

theorem cutAtColons_append (h : ':' ∉ a) : cutAtColons (a ++ ':' :: ':' :: b) = some (a, b) := by
  induction a with
  | nil => rfl
  | cons c a ih =>
    rw [List.mem_cons, not_or] at h
    rw [List.cons_append, cutAtColons, ih h.2]
    · rfl
    · rintro rest rfl
      exact absurd rfl h.1

def codeChars : List Char := "%0235ACD".toList

theorem mem_dataChar {d : Char} (h : d ∈ dataChar c) :
    d ∈ codeChars ∨ (d = c ∧ c ≠ '%' ∧ c ≠ '\r' ∧ c ≠ '\n') := by
  unfold dataChar at h
  split_ifs at h with hPercent hReturn hFeed
  · exact .inl ((by decide : ['%', '2', '5'] ⊆ codeChars) h)
  · exact .inl ((by decide : ['%', '0', 'D'] ⊆ codeChars) h)
  · exact .inl ((by decide : ['%', '0', 'A'] ⊆ codeChars) h)
  · exact .inr ⟨List.mem_singleton.mp h, hPercent, hReturn, hFeed⟩

theorem mem_propertyChar {d : Char} (h : d ∈ propertyChar c) :
    d ∈ codeChars ∨ (d = c ∧ c ≠ ':' ∧ c ≠ ',' ∧ c ≠ '\r' ∧ c ≠ '\n') := by
  unfold propertyChar at h
  split_ifs at h with hColon hComma
  · exact .inl ((by decide : ['%', '3', 'A'] ⊆ codeChars) h)
  · exact .inl ((by decide : ['%', '2', 'C'] ⊆ codeChars) h)
  · exact (mem_dataChar h).imp_right fun ⟨hSame, _, hEnds⟩ => ⟨hSame, hColon, hComma, hEnds⟩

theorem isLineEnd_of_mem_escapeData {d : Char} {s : String} (h : d ∈ (escapeData s).toList) :
    isLineEnd d = false := by
  rw [escapeData, String.toList_ofList, List.mem_flatMap] at h
  obtain ⟨c, -, h⟩ := h
  rcases mem_dataChar h with h | ⟨rfl, -, hReturn, hFeed⟩
  · have hCodes : codeChars.all fun d => !isLineEnd d := by decide
    simpa using List.all_eq_true.mp hCodes d h
  · simp [isLineEnd, hReturn, hFeed]

/-- The characters that end a property or a line, and so stand in no value. -/
def isDivider (d : Char) : Bool := d = ':' || d = ',' || isLineEnd d

theorem isDivider_of_mem_escapeProperty {d : Char} {s : String} (h : d ∈ (escapeProperty s).toList) :
    isDivider d = false := by
  rw [escapeProperty, String.toList_ofList, List.mem_flatMap] at h
  obtain ⟨c, -, h⟩ := h
  rcases mem_propertyChar h with h | ⟨rfl, hColon, hComma, hReturn, hFeed⟩
  · have hCodes : codeChars.all fun d => !isDivider d := by decide
    simpa using List.all_eq_true.mp hCodes d h
  · simp [isDivider, isLineEnd, hColon, hComma, hReturn, hFeed]

theorem escapeProperty_repr (n : Nat) : escapeProperty n.repr = n.repr := by
  have hDigits : ∀ c ∈ n.repr.toList, propertyChar c = [c] := by
    intro c hc
    have hOther : ∀ d : Char, d.isDigit = false → c ≠ d := fun d => ne_of_mem_repr hc
    rw [propertyChar, if_neg (hOther ':' rfl), if_neg (hOther ',' rfl), dataChar, if_neg (hOther '%' rfl),
      if_neg (hOther '\r' rfl), if_neg (hOther '\n' rfl)]
  rw [escapeProperty, List.flatMap_congr hDigits, List.flatMap_singleton', String.ofList_toList]

theorem mem_or_mem_of_mem_intercalate {sep : List Char} {pieces : List (List Char)}
    (h : c ∈ sep.intercalate pieces) : c ∈ sep ∨ ∃ piece ∈ pieces, c ∈ piece := by
  induction pieces with
  | nil => cases h
  | cons piece pieces ih =>
    cases pieces with
    | nil => exact .inr ⟨piece, List.mem_cons_self, by simpa using h⟩
    | cons next pieces =>
      rw [List.intercalate_cons_cons, List.append_assoc, List.mem_append, List.mem_append] at h
      rcases h with h | h | h
      · exact .inr ⟨piece, List.mem_cons_self, h⟩
      · exact .inl h
      · exact (ih h).imp_right fun ⟨other, hOther, h⟩ => ⟨other, List.mem_cons_of_mem _ hOther, h⟩

end

namespace Command

/-- The command that a finding is written as. -/
def of (f : Finding) : Command where
  level := annotationLevel f.severity
  properties :=
    (match f.location with
      | some l => ("file", l.path.text) :: (l.line.map fun n => ("line", toString n)).toList
      | none => []) ++ [("title", f.check)]
  data := "[" ++ f.code ++ "] " ++ f.message

def written (property : String × String) : String := property.1 ++ "=" ++ escapeProperty property.2

theorem annotationProperties_eq (f : Finding) : annotationProperties f = (of f).properties.map written := by
  have hLine : ∀ n : Nat, "line=" ++ toString n = written ("line", toString n) := by
    intro n
    rw [written, Nat.toString_eq_repr, escapeProperty_repr]
    rfl
  rcases hLocation : f.location with _ | ⟨path, _ | n, column⟩
  · simp only [annotationProperties, of, hLocation]
    rfl
  · simp only [annotationProperties, of, hLocation]
    rfl
  · simp only [annotationProperties, of, hLocation, hLine]
    rfl

theorem property_written {name value : String} (hName : '=' ∉ name.toList) :
    property (written (name, value)).toList = some (name, value) := by
  have hClean : ∀ c ∈ name.toList, (c == '=') = false := fun c hc => beq_false_of_ne fun h => hName (h ▸ hc)
  have hText : (written (name, value)).toList = name.toList ++ '=' :: (escapeProperty value).toList := by
    simp [written]
  rw [property, hText, cutAt_append_cons hClean rfl, Option.map_some]
  dsimp only
  rw [unescape_escapeProperty, String.ofList_toList, String.ofList_toList]

/-- The names of properties hold neither a divider nor the sign that ends them. -/
def IsPropertyName (name : String) : Prop := ∀ c ∈ name.toList, c ≠ '=' ∧ isDivider c = false

instance (name : String) : Decidable (IsPropertyName name) := List.decidableBAll _ _

theorem isPropertyName_of (f : Finding) : ∀ property ∈ (of f).properties, IsPropertyName property.1 := by
  have hFile : IsPropertyName "file" := by decide
  have hLine : IsPropertyName "line" := by decide
  have hTitle : IsPropertyName "title" := by decide
  rcases hLocation : f.location with _ | ⟨path, _ | n, column⟩
  all_goals simp [of, hLocation, hFile, hLine, hTitle]

theorem isDivider_of_mem_written {name value : String} (hName : IsPropertyName name) {c : Char}
    (h : c ∈ (written (name, value)).toList) : isDivider c = false := by
  simp only [written, String.toList_append, List.mem_append] at h
  rcases h with (h | h) | h
  · exact (hName c h).2
  · obtain rfl := List.mem_singleton.mp h
    rfl
  · exact isDivider_of_mem_escapeProperty h

theorem mapM_property_written {properties : List (String × String)}
    (hNames : ∀ property ∈ properties, IsPropertyName property.1) :
    (properties.map fun property => (written property).toList).mapM property = some properties := by
  induction properties with
  | nil => rfl
  | cons head properties ih =>
    rw [List.forall_mem_cons] at hNames
    obtain ⟨name, value⟩ := head
    have hEquals : '=' ∉ name.toList := fun h => (hNames.1 '=' h).1 rfl
    rw [List.map_cons, List.mapM_cons, property_written hEquals, ih hNames.2]
    rfl

theorem properties_of_ne_nil (f : Finding) : (of f).properties ≠ [] := List.append_ne_nil_of_right_ne_nil _ (by simp)

theorem toList_annotation_eq (f : Finding) : ( annotation f).toList =
    "::".toList ++ ((annotationLevel f.severity).toList ++
      ' ' :: ([','].intercalate ((of f).properties.map fun property => (written property).toList) ++
        ':' :: ':' :: (escapeData (of f).data).toList)) := by
  simp only [annotationProperties_eq, annotation, String.toList_append, String.toList_intercalate, List.map_map]
  simp [of, Function.comp_def]

theorem colon_not_mem_properties (f : Finding) :
    ':' ∉ [','].intercalate ((of f).properties.map fun property => (written property).toList) := by
  intro h
  rcases mem_or_mem_of_mem_intercalate h with h | ⟨piece, hPiece, h⟩
  · exact absurd h (by decide)
  · obtain ⟨property, hProperty, rfl⟩ := List.mem_map.mp hPiece
    cases isDivider_of_mem_written (isPropertyName_of f property hProperty) h

theorem read_annotation_eq_some (f : Finding) : read ( annotation f) = some (of f) := by
  have hLevel : ∀ c ∈ (annotationLevel f.severity).toList, (c == ' ') = false := by
    have hAll : (annotationLevel f.severity).toList.all fun c => c != ' ' := by cases f.severity <;> decide
    simpa using hAll
  -- A comma in a value is written as a code, so the cuts fall where the properties were joined.
  have hPieces : splitAt (· == ',')
      ([','].intercalate ((of f).properties.map fun property => (written property).toList)) =
        (of f).properties.map fun property => (written property).toList := by
    refine splitAt_intercalate (by simpa using properties_of_ne_nil f) ?_ rfl
    intro piece hPiece c hc
    obtain ⟨property, hProperty, rfl⟩ := List.mem_map.mp hPiece
    have hClean := isDivider_of_mem_written (isPropertyName_of f property hProperty) hc
    exact beq_false_of_ne (by rintro rfl; cases hClean)
  rw [read, stripFront_eq_some_iff.mpr (toList_annotation_eq f), Option.bind_eq_bind, Option.bind_some,
    cutAt_append_cons hLevel (beq_self_eq_true ' '), Option.bind_eq_bind, Option.bind_some]
  dsimp only
  rw [cutAtColons_append (colon_not_mem_properties f), Option.bind_eq_bind, Option.bind_some]
  dsimp only
  rw [hPieces, mapM_property_written (isPropertyName_of f), unescape_escapeData, String.ofList_toList,
    String.ofList_toList]
  rfl

example : read ( annotation
    { severity := .error, check := "bans.skip", code := "duplicate_skip", message := "100% sure\r\nreally"
      location := some { path := ⟨"C:,odd.toml"⟩ } }) =
    some ⟨"error", [("file", "C:,odd.toml"), ("title", "bans.skip")],
      "[duplicate_skip] 100% sure\r\nreally"⟩ := by decide

theorem shown?_of (f : Finding) : (of f).shown? = some (Shown.of f) := by
  have hLevel : severityOfLevel? (annotationLevel f.severity) = some f.severity := by
    cases f.severity <;> decide
  rcases hLocation : f.location with _ | ⟨path, _ | n, column⟩
  all_goals simp [shown?, of, Shown.of, hLevel, hLocation, List.lookup_cons, wholeNumber?_repr]

theorem annotation_isOneLine (f : Finding) : IsOneLine ( annotation f) := by
  intro c h
  rw [toList_annotation_eq, List.mem_append, List.mem_append, List.mem_cons, List.mem_append, List.mem_cons,
    List.mem_cons] at h
  rcases h with h | h | rfl | h | rfl | rfl | h
  · exact (by decide : IsOneLine "::") c h
  · have hLevel : IsOneLine (annotationLevel f.severity) := by cases f.severity <;> decide
    exact hLevel c h
  · rfl
  · rcases mem_or_mem_of_mem_intercalate h with h | ⟨piece, hPiece, h⟩
    · obtain rfl := List.mem_singleton.mp h
      rfl
    · obtain ⟨property, hProperty, rfl⟩ := List.mem_map.mp hPiece
      have hClean := isDivider_of_mem_written (isPropertyName_of f property hProperty) h
      exact (Bool.or_eq_false_iff.mp hClean).2
  · rfl
  · rfl
  · exact isLineEnd_of_mem_escapeData h

end Command

/-- Each finding is one command on one line, in order, and the runner shows what the finding says. -/
theorem allAnnotations_shown (r : Report) :
    List.Forall₂ (fun f command => IsOneLine command ∧
      (Command.read command).bind Command.shown? = some (Shown.of f)) r.findings r.allAnnotations := by
  rw [allAnnotations, List.forall₂_map_right_iff, List.forall₂_same]
  intro f _
  rw [Command.read_annotation_eq_some, Option.bind_some, Command.shown?_of]
  exact ⟨Command.annotation_isOneLine f, rfl⟩

end PolicyLint.Report
