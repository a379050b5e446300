import PolicyLint.Text.Split
import PolicyLint.Text.Trail
import PolicyLint.Time.Stamp

/-!
# Files

What the program asks of the system it runs on: files, directories and the time. Directories above a file
are made one by one, from the outermost that is missing.
-/
namespace PolicyLint.CommandLine
open Text
set_option autoImplicit false

inductive SystemError where
  | numbered (number : Nat) (text : String)
  | other (text : String)
  deriving DecidableEq, Repr, Inhabited

namespace SystemError

def message : SystemError → String
  | numbered number text => text ++ " (os error " ++ toString number ++ ")"
  | other text => text

def notFound : SystemError := .numbered 2 "No such file or directory"

def exists_ : SystemError := .numbered 17 "File exists"

def notDirectory : SystemError := .numbered 20 "Not a directory"

def isDirectory : SystemError := .numbered 21 "Is a directory"

def nameTooLong : SystemError := .numbered 36 "File name too long"

def isNotFound : SystemError → Bool
  | numbered number _ => number == 2
  | other _ => false

end SystemError

structure Host (m : Type → Type) where
  read : String → m (Except SystemError String)
  write : (path content : String) → m (Except SystemError Unit)
  makeDirectory : String → m (Except SystemError Unit)
  isDirectory : String → m Bool
  now : m Time.Stamp

/-- The pieces of a path, the last one first, without empty ones and dots at the end. -/
def trimPieces : List (List Char) → List (List Char)
  | [] => []
  | [first] => [first]
  | piece :: pieces => if piece = [] ∨ piece = ['.'] then trimPieces pieces else piece :: pieces

def joinPieces (pieces : List (List Char)) : String :=
  match pieces with
  | [[]] => "/"
  | _ => String.intercalate "/" (pieces.reverse.map String.ofList)

/-- The path of the directory that a path stands in; empty for a single name, none for the root. -/
def parentOf (path : String) : Option String :=
  match trimPieces (splitAt (· == '/') path.toList).reverse with
  | [] => none
  | [first] => if first = [] then none else some ""
  | _ :: pieces => some (joinPieces (trimPieces pieces))

/-- A path and the directories above it, from the inside out, without the empty path. -/
def withAncestors : (limit : Nat) → String → List String
  | 0, _ => []
  | limit + 1, path =>
    if path.isEmpty then []
    else path :: (match parentOf path with
      | some parent => withAncestors limit parent
      | none => [])

namespace Host

variable {m : Type → Type} [Monad m]

/-- An error does not count if the directory is there. -/
def unlessDirectory (host : Host m) (path : String) (error : SystemError) :
    m (Except SystemError Unit) := do
  if ← host.isDirectory path then return .ok () else return .error error

/-- Makes the first of some directories, each of which stands in the next. -/
def makeNested (host : Host m) : List String → m (Except SystemError Unit)
  | [] => return .ok ()
  | path :: outer => do
    match ← host.makeDirectory path with
    | .ok _ => return .ok ()
    | .error error =>
      if error.isNotFound then
        match ← host.makeNested outer with
        | .error error => return .error error
        | .ok _ =>
          match ← host.makeDirectory path with
          | .ok _ => return .ok ()
          | .error error => host.unlessDirectory path error
      else host.unlessDirectory path error

def makeDirectories (host : Host m) (path : String) : m (Except SystemError Unit) :=
  host.makeNested (withAncestors (path.length + 1) path)

end Host

end PolicyLint.CommandLine
