import RandomTables.Text.Basic

/-! # Trees of files -/

namespace RandomTables

inductive FileTree where
  | file (content : Text)
  | folder (entries : List (Text × FileTree))

/-- Why a file cannot be read. -/
inductive FileError where
  | missing
  | notFolder
  | isFolder
  deriving DecidableEq

def FileError.message : FileError → Text
  | .missing => "No such file or directory (os error 2)".toList
  | .notFolder => "Not a directory (os error 20)".toList
  | .isFolder => "Is a directory (os error 21)".toList

namespace FileTree

/-! ## Finding -/

/-- Follows the steps of a path through a tree. `parents` holds the folders above it, the nearest
first. -/
def follow (parents : List FileTree) (here : FileTree) : List Text → Except FileError FileTree
  | [] => .ok here
  | step :: steps =>
    match here with
    | .file _ => .error .notFolder
    | .folder entries =>
      if step.isEmpty || step == ['.'] then follow parents here steps
      else if step == ['.', '.'] then
        match parents with
        | [] => follow [] here steps
        | parent :: parents => follow parents parent steps
      else
        match entries.lookup step with
        | some entry => follow (here :: parents) entry steps
        | none => .error .missing

/-- What is found under a path. -/
def find (tree : FileTree) (path : Text) : Except FileError FileTree :=
  if path.isEmpty then .error .missing else follow [] tree (path.splitOn '/')

/-- The content of the file under a path. -/
def read (tree : FileTree) (path : Text) : Except FileError Text :=
  match tree.find path with
  | .ok (.file content) => .ok content
  | .ok (.folder _) => .error .isFolder
  | .error error => .error error

/-! ## Listing -/

mutual

/-- Every file of a tree with the steps that lead to it from `path`. -/
def filesFrom (path : List Text) : FileTree → List (List Text × Text)
  | .file content => [(path, content)]
  | .folder entries => filesIn path entries

def filesIn (path : List Text) : List (Text × FileTree) → List (List Text × Text)
  | [] => []
  | (name, tree) :: rest => filesFrom (path ++ [name]) tree ++ filesIn path rest

end

def files (tree : FileTree) : List (List Text × Text) := filesFrom [] tree

/-! ## Building -/

/-- The steps of a path, without those that stay or go back. -/
def steps (path : Text) : List Text :=
  (path.splitOn '/').foldl (fun steps step =>
    if step.isEmpty || step == ['.'] then steps
    else if step == ['.', '.'] then steps.dropLast
    else steps ++ [step]) []

/-- Puts a tree at the end of some steps, with the folders that are missing. -/
def place (tree : FileTree) : List Text → List (Text × FileTree) → List (Text × FileTree)
  | [], entries => entries
  | [name], entries => entries.filter (·.1 ≠ name) ++ [(name, tree)]
  | name :: steps, entries =>
    let inner := match entries.lookup name with
      | some (.folder inner) => inner
      | _ => []
    entries.filter (·.1 ≠ name) ++ [(name, .folder (place tree steps inner))]

/-- The folder of some trees, given by their paths. -/
def ofTrees (trees : List (Text × FileTree)) : FileTree :=
  .folder (trees.foldl (fun entries (path, tree) => place tree (steps path) entries) [])

/-- The folder of some files, given by their paths. -/
def ofFiles (files : List (Text × Text)) : FileTree :=
  ofTrees (files.map fun (path, content) => (path, .file content))

end FileTree

end RandomTables
