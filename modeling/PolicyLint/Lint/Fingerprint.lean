import PolicyLint.Digest.Sha256

/-!
# Fingerprints

What identifies a finding across runs: the digest of its check, its code, the path of the policy and its
subject, with bars between them. Lines and messages are left out, so a finding keeps its fingerprint when
other parts of the policy change.
-/
namespace PolicyLint.Lint
set_option autoImplicit false

def identityText (check code path subject : String) : String :=
  check ++ "|" ++ code ++ "|" ++ path ++ "|" ++ subject

def fingerprint (check code path subject : String) : String :=
  Digest.sha256 (identityText check code path subject)

end PolicyLint.Lint
