import StagedMapping.Bindings

/-! Files and directories as a tree, the paths that name places in it, and what a run can see
of them (`Files`). Paths are relative to the root of the tree. -/
namespace StagedMapping

inductive FileTree where
  | file (content : ByteArray)
  | dir (entries : List (String × FileTree))
  deriving Inhabited

/-- Why a path cannot be used. -/
inductive AccessError where
  | notFound
  | notDirectory
  | isDirectory
  | nameTooLong
  | notText
  deriving DecidableEq, Repr

def AccessError.text : AccessError → String
  | notFound => "No such file or directory (os error 2)"
  | notDirectory => "Not a directory (os error 20)"
  | isDirectory => "Is a directory (os error 21)"
  | nameTooLong => "File name too long (os error 36)"
  | notText => "stream did not contain valid UTF-8"

/-! ### Paths -/

namespace TreePath

/-- The parts between slashes, with `current` the reversed start of the first one. -/
def splitSlashes (current : List Char) : List Char → List (List Char)
  | [] => [current.reverse]
  | c :: rest =>
    if c = '/' then current.reverse :: splitSlashes [] rest else splitSlashes (c :: current) rest

def slashParts (path : String) : List String :=
  (splitSlashes [] path.toList).map String.ofList

/-- The parts of a path, without empty ones. -/
def names (path : String) : List String := (slashParts path).filter (· ≠ "")

/-- A slash stands at the end. -/
def endsWithSlash (path : String) : Bool := (slashParts path).getLast? = some ""

/-- The steps of a path; a slash at its end asks for a directory, as `.` does. -/
def steps (path : String) : List String :=
  names path ++ (if endsWithSlash path then ["."] else [])

/-- The names on the way that some steps go, after others in reverse, if it stays inside. -/
def resolve? (gone : List String) : List String → Option (List String)
  | [] => some gone.reverse
  | step :: rest =>
    if step = "." then resolve? gone rest
    else if step = ".." then if gone.isEmpty then none else resolve? (gone.drop 1) rest
    else resolve? (step :: gone) rest

/-- Steps that all go inwards are the names on the way. -/
theorem resolve?_eq_append (gone steps : List String) (h : ∀ s ∈ steps, s ≠ "." ∧ s ≠ "..") :
    resolve? gone steps = some (gone.reverse ++ steps) := by
  induction steps generalizing gone with
  | nil => simp [resolve?]
  | cons step rest ih =>
    have := h step List.mem_cons_self
    simp [resolve?, this, ih (step :: gone) fun s hs => h s (List.mem_cons_of_mem step hs)]

/-- Longer paths name nothing, in bytes. -/
def maxSize : Nat := 4095

/-- Longer names name nothing, in bytes. -/
def maxNameSize : Nat := 255

/-- The components of a path, by which paths are compared; `.` counts only at the start. -/
def components (path : String) : List String :=
  match names path with
  | [] => []
  | first :: rest => first :: rest.filter (· ≠ ".")

/-- The path of an entry of a directory. -/
def join (path name : String) : String :=
  if endsWithSlash path then path ++ name else path ++ "/" ++ name

/-- What follows the last dot of a name that does not start with it. -/
def extension? (name : String) : Option String :=
  let (after, before) := name.toList.reverse.span (· ≠ '.')
  match before with
  | [] | [_] => none
  | _ => some (String.ofList after.reverse)

end TreePath

namespace FileTree

/-! ### Places -/

/-- Goes from a place, with the directories around it, step by step. Around the root are
directories in which nothing is known. -/
def walk (around : List FileTree) (here : FileTree) : List String → Except AccessError FileTree
  | [] => .ok here
  | step :: rest =>
    match here with
    | file _ => .error .notDirectory
    | dir entries =>
      if step = "." then walk around here rest
      else if step = ".." then walk (around.drop 1) (around.headD (dir [])) rest
      else if step.utf8ByteSize > TreePath.maxNameSize then .error .nameTooLong
      else
        match Bindings.get? entries step with
        | some entry => walk (here :: around) entry rest
        | none => .error .notFound

/-- What is at a path. -/
def at? (tree : FileTree) (path : String) : Except AccessError FileTree :=
  if path.utf8ByteSize > TreePath.maxSize then .error .nameTooLong
  else if path.startsWith "/" then .error .notFound
  else tree.walk [] (TreePath.steps path)

/-- What keeps a file of a name from being written into a directory. -/
def entryError? (entries : List (String × FileTree)) (name : String) : Option AccessError :=
  if name = "." ∨ name = ".." then some .isDirectory
  else if name.utf8ByteSize > TreePath.maxNameSize then some .nameTooLong
  else
    match Bindings.get? entries name with
    | some (dir _) => some .isDirectory
    | _ => none

/-- What keeps a file from being written. The directory it is to be in has to be there. -/
def writeError? (tree : FileTree) (path : String) : Option AccessError :=
  let names := TreePath.names path
  if path.utf8ByteSize > TreePath.maxSize then some .nameTooLong
  else
    match tree.walk [] names.dropLast with
    | .error e => some e
    | .ok (file _) => some .notDirectory
    | .ok (dir entries) =>
      if TreePath.endsWithSlash path then some .isDirectory
      else entryError? entries (names.getLastD ".")

/-! ### Building -/

/-- The tree with something put below the root, by the names on the way. -/
def insert : FileTree → List String → FileTree → FileTree
  | _, [], node => node
  | dir entries, step :: rest, node =>
    let inner := (Bindings.get? entries step).getD (dir [])
    dir (Bindings.set entries step (inner.insert rest node))
  | file content, _ :: _, _ => file content

/-- The tree with something put at a path; nothing changes if that is outside. -/
def put (tree : FileTree) (path : String) (node : FileTree) : FileTree :=
  match TreePath.resolve? [] (TreePath.steps path) with
  | some names => tree.insert names node
  | none => tree

/-- The tree of some paths; those without content are directories. -/
def ofPaths (paths : List (String × Option ByteArray)) : FileTree :=
  paths.foldl
    (fun tree (path, content) => tree.put path ((content.map file).getD (dir []))) (dir [])

end FileTree

/-- What a run can see of files. -/
structure Files where
  /-- What is at a path. -/
  at? : String → Except AccessError FileTree
  /-- What keeps a file from being written at a path. -/
  writeError? : String → Option AccessError

/-- The files of a tree. -/
def FileTree.files (tree : FileTree) : Files := ⟨tree.at?, tree.writeError?⟩

end StagedMapping
