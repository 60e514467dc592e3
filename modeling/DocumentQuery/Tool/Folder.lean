/-!
# Folders

Files by their paths below a folder, for running the tool without a disk.
-/

namespace DocumentQuery

/-- Files with their texts.  A path is the names of folders and of the file. -/
structure Folder where
  files : List (List String × String) := []
  deriving Repr

namespace Folder

/-- The folder with the given files, by their paths. -/
def ofFiles (files : List (String × String)) : Folder :=
  ⟨files.map fun (path, text) => (path.splitOn "/", text)⟩

/-- Whether a path is that of a folder: some file lies below it. -/
def isFolder (folder : Folder) (path : List String) : Bool :=
  path.isEmpty || folder.files.any fun (file, _) =>
    path.isPrefixOf file && decide (path.length < file.length)

/-- Go down a path from a folder.  Every step has to end in a folder. -/
def descend? (folder : Folder) : List String → List String → Option (List String)
  | here, [] => some here
  | here, part :: parts =>
      if part == "" || part == "." then descend? folder here parts
      else if part == ".." then
        if here.isEmpty then none else descend? folder here.dropLast parts
      else if folder.isFolder (here ++ [part]) then descend? folder (here ++ [part]) parts
      else none

/-- Where the file of a path would lie. -/
def locate? (folder : Folder) (path : String) : Option (List String) :=
  match (path.splitOn "/").reverse with
  | [] => none
  | name :: parts =>
      if name ∈ ["", ".", ".."] || "/".isPrefixOf path then none
      else (folder.descend? [] parts.reverse).map (· ++ [name])

/-- The text of a file. -/
def read? (folder : Folder) (path : String) : Option String := do
  folder.files.lookup (← folder.locate? path)

/-- Write a file.  Its folder has to be there already. -/
def write? (folder : Folder) (path text : String) : Option Folder := do
  let place ← folder.locate? path
  if folder.isFolder place then none
  else some ⟨(place, text) :: folder.files.filter fun (file, _) => file != place⟩

end Folder

end DocumentQuery
