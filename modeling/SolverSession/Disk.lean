/-!
# Files

The directories and files of a session. A path is followed name by name, from the root or from the
current directory, so that different paths can lead to the same place; each name on the way has to
be that of a directory.
-/
namespace SolverSession

abbrev Location := List String

/-- Directories besides the root, and the texts of files, the one written last first. -/
structure Disk where
  directories : List Location
  current : Location
  files : List (Location × String)
deriving DecidableEq

inductive DiskFault where
  | missing
  | notDirectory
  | isDirectory
  | badName
deriving DecidableEq

def DiskFault.message : DiskFault → String
  | .missing => "No such file or directory (os error 2)"
  | .notDirectory => "Not a directory (os error 20)"
  | .isDirectory => "Is a directory (os error 21)"
  | .badName => "file name contained an unexpected NUL byte"

/-- A directory, or a name in one. After the name of an entry the path may end with a slash. -/
inductive Place where
  | directory (here : Location)
  | entry (here : Location) (name : String) (slash : Bool)

def pathNames (path : String) : List String :=
  let parts := path.toList.foldr (fun c parts =>
    if c = '/' then [] :: parts else (c :: parts.headD []) :: parts.tail) [[]]
  (parts.filter (· ≠ [])).map String.ofList

namespace Disk

def empty : Disk := ⟨[],[],[]⟩

def isDirectory (d : Disk) (l : Location) : Bool := l = [] || l ∈ d.directories

def enter (d : Disk) (here : Location) (name : String) : Except DiskFault Location :=
  if name = "." then .ok here
  else if name = ".." then .ok here.dropLast
  else if d.isDirectory (here ++ [name]) then .ok (here ++ [name])
  else if (d.files.lookup (here ++ [name])).isSome then .error .notDirectory
  else .error .missing

/-- Follows a path to its last name, which need not be there. -/
def follow (d : Disk) (path : String) : Except DiskFault Place := do
  if '\x00' ∈ path.toList then throw .badName
  if path = "" then throw .missing
  let start := if path.toList.head? = some '/' then [] else d.current
  let names := pathNames path
  let here ← names.dropLast.foldlM d.enter start
  match names.getLast? with
  | none => return .directory here
  | some name =>
    if name = "." ∨ name = ".." then return .directory (← d.enter here name)
    else return .entry here name (decide (path.toList.getLast? = some '/'))

def contains (d : Disk) (path : String) : Bool :=
  match d.follow path with
  | .error _ => false
  | .ok (.directory _) => true
  | .ok (.entry here name slash) =>
    d.isDirectory (here ++ [name]) || (!slash && (d.files.lookup (here ++ [name])).isSome)

def locate (d : Disk) (path : String) : Except DiskFault Location :=
  match d.follow path with
  | .error fault => .error fault
  | .ok (.directory _) => .error .isDirectory
  | .ok (.entry here name slash) =>
    if slash || d.isDirectory (here ++ [name]) then .error .isDirectory else .ok (here ++ [name])

def read? (d : Disk) (path : String) : Option String :=
  match d.locate path with
  | .error _ => none
  | .ok l => d.files.lookup l

def write (d : Disk) (path text : String) : Except DiskFault Disk :=
  match d.locate path with
  | .error fault => .error fault
  | .ok l => .ok { d with files := (l,text) :: d.files }

end Disk
end SolverSession
