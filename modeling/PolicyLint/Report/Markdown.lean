import PolicyLint.Report.Basic

/-!
# Reports in Markdown

A heading, a few facts, a table with a row for each finding, and a list with the help for each kind of
finding.
-/
namespace PolicyLint.Report
open Lint
set_option autoImplicit false

def verdictWord : Verdict → String
  | .pass => "PASS"
  | .warn => "WARN"
  | .fail => "FAIL"

def code (s : String) : String := "`" ++ s ++ "`"

def kindText (f : Finding) : String := code f.check ++ " / " ++ code f.code

def locationCell (f : Finding) : String :=
  match f.location with
  | some l =>
    match l.line with
    | some line => code (l.path.text ++ ":" ++ toString line)
    | none => code l.path.text
  | none => "-"

def cellChar (c : Char) : List Char :=
  if c = '|' then ['\\', '|'] else if c = '\r' || c = '\n' then [' '] else [c]

/-- A text inside a cell: bars have a backslash, and line ends are blanks. -/
def escapeCell (s : String) : String := String.ofList (s.toList.flatMap cellChar)

def row (f : Finding) : String :=
  "| " ++ f.severity.name ++ " | " ++ kindText f ++ " | " ++ locationCell f ++ " | " ++
    escapeCell f.message ++ " |\n"

def tableHead : String :=
  "| Severity | Check | Location | Message |\n| --- | --- | --- | --- |\n"

/-- A check and a code with the help of a finding. -/
structure Hint where
  check : String
  code : String
  help : String
  deriving DecidableEq, Repr

def Hint.of (f : Finding) : Option Hint := f.help.map fun help => ⟨f.check, f.code, help⟩

/-- The first hint of each check and code; `seen` are those before. -/
def firstHints (seen : List (String × String)) : List Hint → List Hint
  | [] => []
  | h :: hs =>
    if seen.contains (h.check, h.code) then firstHints seen hs
    else h :: firstHints ((h.check, h.code) :: seen) hs

def hints (r : Report) : List Hint := firstHints [] (r.findings.filterMap Hint.of)

def Hint.bullet (h : Hint) : String :=
  "- " ++ Report.code h.check ++ " / " ++ Report.code h.code ++ ": " ++ h.help ++ "\n"

def sectionsText (sections : List String) : String :=
  if sections.isEmpty then "none" else String.intercalate ", " sections

def heading (r : Report) : String :=
  "# Denylint report\n\n- Policy: " ++ code r.summary.policyPath.text ++ " (profile " ++
    code r.summary.profile ++ ")\n- Sections: " ++ sectionsText r.summary.sections ++
    "\n- Verdict: **" ++ verdictWord r.verdict ++ "**\n- Findings: " ++
    toString r.summary.findingsEmitted ++ " emitted / " ++ toString r.summary.findingsTotal ++
    " total\n\n" ++
    match r.summary.truncatedReason with
    | some reason => "> Note: " ++ reason ++ "\n\n"
    | none => ""

def table (r : Report) : String := tableHead ++ String.join (r.findings.map row)

def helpSection (r : Report) : String :=
  if r.hints.isEmpty then ""
  else "\n## How to fix\n\n" ++ String.join (r.hints.map Hint.bullet)

def markdown (r : Report) : String :=
  r.heading ++
    if r.findings.isEmpty then "No findings.\n"
    else "## Findings\n\n" ++ r.table ++ r.helpSection

end PolicyLint.Report
