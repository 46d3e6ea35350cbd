import StagedMapping.CommandLine

/-! The program: looks up the files that its arguments name, runs the command line on them,
and does what the outcome says. -/
namespace StagedMapping.CommandLine

/-- What an error of the system is about. -/
def accessError : IO.Error → AccessError
  | .noFileOrDirectory .. => .notFound
  | .invalidArgument .. => .nameTooLong
  | _ => .notDirectory

/-- A file, or a directory with the source files in it. Entries that cannot be read are left
out. -/
partial def load (path : String) : IO FileTree := do
  let real ← IO.FS.realPath path
  if !(← real.isDir) then return .file (← IO.FS.readBinFile path)
  let mut entries := []
  for entry in ← real.readDir do
    let name := entry.fileName
    let wanted := if ← entry.path.isDir then !isSkipped name else isSourceName name
    if wanted then
      try entries := (name, ← load (TreePath.join path name)) :: entries
      catch _ => pure ()
  return .dir entries

/-- What is at a path, or why nothing can be seen there. -/
def look (path : String) : IO (Except AccessError FileTree) := do
  try return .ok (← load path)
  catch e => return .error (accessError e)

/-- The files at some paths. -/
def lookAll (paths : List String) : IO Files := do
  let seen ← paths.mapM fun path => do return (path, ← look path)
  return ⟨fun path => (Bindings.get? seen path).getD (.error .notFound), fun _ => none⟩

/-- Writes what a run leaves; the result is whether that worked. -/
def save (o : Outcome) : IO Bool := do
  match o.written with
  | none => return true
  | some (path, text) =>
    try
      IO.FS.writeFile path text
      return true
    catch e =>
      IO.eprintln s!"Error writing '{path}': {e}"
      return false

/-- Runs the command line on the files of the system. -/
def execute (args : List String) : IO UInt32 := do
  let invocation := Invocation.ofArgs args
  let o := perform (← lookAll invocation.paths) invocation
  if o.exit = 2 then IO.eprintln "For more information, try '--help'."
  o.reports.forM IO.eprintln
  if !(← save o) then return 1
  IO.print o.stdout
  o.messages.forM IO.eprintln
  return o.exit.toUInt32

end StagedMapping.CommandLine

def main (args : List String) : IO UInt32 := StagedMapping.CommandLine.execute args
