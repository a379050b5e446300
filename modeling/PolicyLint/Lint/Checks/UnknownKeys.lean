import PolicyLint.Lint.Issue

/-!
# Unknown keys

Every key that the schema does not know is an issue, unless the caller allows its path.
-/
namespace PolicyLint.Lint.UnknownKeys
open Policy
set_option autoImplicit false

def issue (key : UnknownKey) : Issue where
  code := .unknownKey
  subject := key.path
  message := ticked key.path ++ " is not a known policy key and will be ignored"
  line := some key.line
  help := "Check the spelling against the policy schema or remove the key."
  data := [("key", .string key.key), ("path", .string key.path)]

def issues (m : Model) (allowed : String → Bool) : List Issue :=
  (m.unknownKeys.filter fun key => !allowed key.path).map issue

end PolicyLint.Lint.UnknownKeys
