import PolicyLint.CommandLine.Host

/-!
# Files in memory

A tree of files as a value, so that a run can be made and looked at without a system.
-/
namespace PolicyLint.CommandLine
open Text
set_option autoImplicit false

/-- The names from the root to a file or directory. -/
abbrev Names := List String

/-- Files and directories, with the directory that relative paths start from. A drain is a file that is
empty whatever is written to it. -/
structure FileTree where
  here : Names := []
  files : List (Names × String) := []
  directories : List Names := []
  drains : List Names := []
  deriving DecidableEq, Repr, Inhabited

/-- What a path leads to: a directory, or a name in a directory. A path that ends in a slash leads to a
directory only. -/
inductive Spot where
  | directory (at_ : Names)
  | name (at_ : Names) (mustBeDirectory : Bool)
  deriving DecidableEq, Repr

namespace FileTree

def isDirectoryAt (t : FileTree) (names : Names) : Bool := names.isEmpty || t.directories.contains names

def fileAt? (t : FileTree) (names : Names) : Option String :=
  if t.drains.contains names then some "" else t.files.lookup names

/-- The most bytes of a name. -/
def maxName : Nat := 255

/-- The most bytes of a path. -/
def maxPath : Nat := 4095

def enter (t : FileTree) (at_ : Names) (name : String) : Except SystemError Names :=
  if name = "." ∨ name = "" then .ok at_
  else if name = ".." then .ok at_.dropLast
  else if name.utf8ByteSize > maxName then .error .nameTooLong
  else if t.isDirectoryAt (at_ ++ [name]) then .ok (at_ ++ [name])
  else if (t.fileAt? (at_ ++ [name])).isSome then .error .notDirectory
  else .error .notFound

/-- Follows the names of a path. Empty names at its end, from slashes there, say that the last name is that
of a directory; before a dot the directory must be there. -/
def follow (t : FileTree) (at_ : Names) : List String → Except SystemError Spot
  | [] => .ok (.directory at_)
  | name :: names =>
    if name = "." ∨ name = "" ∨ name = ".." then do t.follow (← t.enter at_ name) names
    else if names.all String.isEmpty then
      if name.utf8ByteSize > maxName then .error .nameTooLong
      else .ok (.name (at_ ++ [name]) (!names.isEmpty))
    else do t.follow (← t.enter at_ name) names

/-- The names of a path, among them an empty one at a start, a double or an end slash. -/
def namesOf (path : String) : Names := (splitAt (· == '/') path.toList).map String.ofList

/-- The spot of a path in the tree. A path that starts with a slash starts from the root. -/
def locate (t : FileTree) (path : String) : Except SystemError Spot :=
  if path.isEmpty then .error .notFound
  else if path.utf8ByteSize > maxPath then .error .nameTooLong
  else t.follow (if path.front == '/' then [] else t.here) (namesOf path)

def read (t : FileTree) (path : String) : Except SystemError String :=
  match t.locate path with
  | .error error => .error error
  | .ok (.directory _) => .error .isDirectory
  | .ok (.name names mustBeDirectory) =>
    if t.isDirectoryAt names then .error .isDirectory
    else
      match t.fileAt? names with
      | some content => if mustBeDirectory then .error .notDirectory else .ok content
      | none => .error .notFound

def put (t : FileTree) (names : Names) (content : String) : FileTree :=
  if t.drains.contains names then t
  else { t with files := (names, content) :: t.files.filter fun f => f.1 != names }

/-- A file is made in a directory that is there. -/
def write (t : FileTree) (path content : String) : Except SystemError FileTree :=
  match t.locate path with
  | .error error => .error error
  | .ok (.directory _) => .error .isDirectory
  | .ok (.name names mustBeDirectory) =>
    if t.isDirectoryAt names then .error .isDirectory
    else if mustBeDirectory then
      .error (if (t.fileAt? names).isSome then .notDirectory else .isDirectory)
    else if t.isDirectoryAt names.dropLast then .ok (t.put names content)
    else .error .notFound

def makeDirectory (t : FileTree) (path : String) : Except SystemError FileTree :=
  match t.locate path with
  | .error error => .error error
  | .ok (.directory _) => .error .exists_
  | .ok (.name names _) =>
    if t.isDirectoryAt names || (t.fileAt? names).isSome then .error .exists_
    else if t.isDirectoryAt names.dropLast then .ok { t with directories := names :: t.directories }
    else .error .notFound

def isDirectory (t : FileTree) (path : String) : Bool :=
  match t.locate path with
  | .ok (.directory _) => true
  | .ok (.name names _) => t.isDirectoryAt names
  | .error _ => false

/-- The directories above a file. -/
def above : Names → List Names
  | [] => []
  | [_] => []
  | name :: names => [name] :: (above names).map (name :: ·)

/-- The directory that the files of a run stand in. -/
def workplace : Names := ["tmp", "run"]

/-- The tree before a run: a directory without files, and what any system has around it. -/
def bare : FileTree where
  here := workplace
  directories := workplace :: ["dev", "etc", "home", "root", "tmp", "usr", "var"].map fun name => [name]
  drains := [["dev", "null"]]

/-- The tree of some files in the directory of the run, whose directories are there too. -/
def ofFiles (files : List (String × String)) : FileTree :=
  files.foldl (fun t (path, content) =>
    let names := t.here ++ namesOf path
    { t.put names content with directories := above names ++ t.directories }) bare

/-- A file in the directory of the run, with its path from there. -/
def fromHere (t : FileTree) (file : Names × String) : Option (String × String) :=
  if t.here.isPrefixOf file.1 then
    some (String.intercalate "/" (file.1.drop t.here.length), file.2)
  else none

/-- The files in the directory of the run by their paths from there. -/
def toFiles (t : FileTree) : List (String × String) := t.files.filterMap t.fromHere

/-- Changes the tree if that succeeds. -/
def step (change : FileTree → Except SystemError FileTree) :
    StateM FileTree (Except SystemError Unit) := do
  match change (← get) with
  | .ok t => do
    set t
    return .ok ()
  | .error error => return .error error

/-- The system whose files are a tree and whose time stands still. -/
def host (now : Time.Stamp) : Host (StateM FileTree) where
  read path := do return (← get).read path
  write path content := step fun t => t.write path content
  makeDirectory path := step fun t => t.makeDirectory path
  isDirectory path := do return (← get).isDirectory path
  now := return now

end FileTree

end PolicyLint.CommandLine
