import PolicyLint.Lint.Issue

/-!
# Confidence threshold

The score that a license text must reach is a fraction of one.
-/
namespace PolicyLint.Lint.ConfidenceThreshold
open Text Policy
set_option autoImplicit false

def outOfRange (m : Model) (threshold : Spanned Decimal.Binary64) : Issue where
  code := .thresholdOutOfRange
  subject := "confidence-threshold"
  message := "licenses.confidence-threshold is " ++ threshold.value.plain ++
    ", expected a value between 0.0 and 1.0"
  line := m.lineOf (some threshold.span)
  help := "Use a fraction such as 0.93 instead of a percentage."
  data := [("value", .string threshold.value.plain)]

def issues (m : Model) : List Issue :=
  match m.licenses.confidenceThreshold with
  | some threshold => if threshold.value.inUnit then [] else [outOfRange m threshold]
  | none => []

end PolicyLint.Lint.ConfidenceThreshold
