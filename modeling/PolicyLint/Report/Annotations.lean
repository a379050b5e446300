import PolicyLint.Report.Basic

/-!
# Annotations

Findings as commands to a runner that shows them beside the lines they are about. A command is one line, so
line ends are written as numbers; so are the characters that divide its parts.
-/
namespace PolicyLint.Report
open Lint
set_option autoImplicit false

def annotationLevel : Severity → String
  | .error => "error"
  | .warning => "warning"
  | .info => "notice"

def dataChar (c : Char) : List Char :=
  if c = '%' then ['%', '2', '5']
  else if c = '\r' then ['%', '0', 'D']
  else if c = '\n' then ['%', '0', 'A']
  else [c]

def escapeData (s : String) : String := String.ofList (s.toList.flatMap dataChar)

def propertyChar (c : Char) : List Char :=
  if c = ':' then ['%', '3', 'A']
  else if c = ',' then ['%', '2', 'C']
  else dataChar c

def escapeProperty (s : String) : String := String.ofList (s.toList.flatMap propertyChar)

def annotationProperties (f : Finding) : List String :=
  (match f.location with
    | some l =>
      ("file=" ++ escapeProperty l.path.text) ::
        (match l.line with
          | some line => ["line=" ++ toString line]
          | none => [])
    | none => []) ++
  ["title=" ++ escapeProperty f.check]

def annotation (f : Finding) : String :=
  "::" ++ annotationLevel f.severity ++ " " ++ String.intercalate "," (annotationProperties f) ++ "::" ++
    escapeData ("[" ++ f.code ++ "] " ++ f.message)

def allAnnotations (r : Report) : List String := r.findings.map annotation

/-- The first `max` commands, since a runner passes over further ones. -/
def annotations (r : Report) (max : Nat) : List String := r.allAnnotations.take max

end PolicyLint.Report
