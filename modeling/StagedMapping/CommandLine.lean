import StagedMapping.CommandLine.FileTree
import StagedMapping.CommandLine.Help
import StagedMapping.Pass
import StagedMapping.Source.Listing

/-! The command line as a function of its arguments and of the files it can see (`run`).
`generate` writes the generated code of a pass, `check` only reports; `--lex` and `--parse`
show what one file is read as. -/
namespace StagedMapping.CommandLine

/-- What a run does. -/
structure Outcome where
  exit : Nat
  stdout : String
  /-- Reports of the pass, and then messages, all of them for the error output. -/
  reports : List String
  messages : List String
  /-- A path, and what is written there. -/
  written : Option (String × String)
  deriving Repr

namespace Outcome

/-- The files after a run. -/
def filesAfter (o : Outcome) (tree : FileTree) : FileTree :=
  match o.written with
  | some (path, text) => tree.put path (.file text.toUTF8)
  | none => tree

def success (stdout : String) : Outcome := ⟨0, stdout, [], [], none⟩

def failure (message : String) : Outcome := ⟨1, "", [], [message], none⟩

/-- The result of a computation that may fail with a message. -/
def ofExcept : Except String Outcome → Outcome
  | .ok o => o
  | .error message => failure message

end Outcome

/-! ### Reading files -/

/-- The longest file that is read, in bytes. -/
def maxSourceSize : Nat := 100 * 1024 * 1024

/-- The text of a file with some content. -/
def decodeText (path : String) (content : ByteArray) : Except String String :=
  if maxSourceSize < content.size then
    .error (s!"Source file '{path}' is too large " ++
      s!"({content.size} bytes, max {maxSourceSize} bytes)")
  else
    match String.fromUTF8? content with
    | some text => .ok text
    | none => .error s!"Error reading file '{path}': {AccessError.notText.text}"

/-- The text of the file at a path. -/
def readText (files : Files) (path : String) : Except String String :=
  match files.at? path with
  | .error e => .error s!"Cannot access file '{path}': {e.text}"
  | .ok (.dir _) => .error s!"Error reading file '{path}': {AccessError.isDirectory.text}"
  | .ok (.file content) => decodeText path content

/-- The name of a source file. -/
def isSourceName (name : String) : Bool := TreePath.extension? name == some "map"

/-- Directories inside others that are not searched. -/
def isSkipped (name : String) : Bool := name.startsWith "." || name == "target"

/-- A file by its path. -/
abbrev FoundFile := String × ByteArray

mutual

/-- The source files at a path, in the order of their names. -/
def sourceFiles (path name : String) : FileTree → List FoundFile
  | .file content => if isSourceName name then [(path, content)] else []
  | .dir entries => ((entryFiles path entries).mergeSort fun a b => a.1 ≤ b.1).flatMap (·.2)

/-- The source files of each entry of a directory. -/
def entryFiles (path : String) : List (String × FileTree) → List (String × List FoundFile)
  | [] => []
  | (name, .dir inner) :: rest =>
    (name,
        if isSkipped name then [] else sourceFiles (TreePath.join path name) name (.dir inner)) ::
      entryFiles path rest
  | (name, .file content) :: rest =>
    (name, sourceFiles (TreePath.join path name) name (.file content)) :: entryFiles path rest

end

/-- Adds a file, unless there is one of its path. -/
def addFile (found : List FoundFile) (file : FoundFile) : List FoundFile :=
  if found.any fun f => TreePath.components f.1 == TreePath.components file.1 then found
  else found ++ [file]

/-- Every source file at some paths, each once. -/
def collect (files : Files) (found : List FoundFile) : List String → Except String (List FoundFile)
  | [] => .ok found
  | path :: rest =>
    match files.at? path with
    | .error _ => .error s!"Path '{path}' does not exist"
    | .ok node =>
      let name := ((TreePath.components path).getLast?).getD ""
      collect files ((sourceFiles path name node).foldl addFile found) rest

def loadInputs (files : Files) (paths : List String) : Except String (List Input) := do
  let found ← collect files [] paths
  if found.isEmpty then throw "No .map files found"
  found.mapM fun (path, content) => do return ⟨path, ← decodeText path content⟩

/-- The compiled types of a file. -/
def loadMetadata (files : Files) : Option String → Except String (List CompiledType)
  | none => .ok []
  | some path => do
    match CompiledType.parseList (← readText files path) with
    | some types => return types
    | none => throw s!"Invalid metadata file '{path}'"

/-! ### Passes -/

def runPass (files : Files) (paths : List String) (metadata : Option String)
    (options : EmitOptions) : Except String PassResult := do
  let inputs ← loadInputs files paths
  let compiled ← loadMetadata files metadata
  (compile inputs compiled options).mapError fun e => s!"Error generating code: {e.message}"

def summary (r : PassResult) : String :=
  let errors := r.problems.countP (·.problem.isError) + r.diagnostics.countP (·.isError)
  s!"{errors} error(s) in {r.inputs.length} file(s)"

/-- A report as a text. -/
def reportText (r : Report) : String :=
  (r.code.map (· ++ ": ")).getD "" ++ r.message ++ ((r.help.map ("\n  help: " ++ ·)).getD "")

/-- A run that failed if the pass has errors. -/
def finished (r : PassResult) (stdout : String) (messages : List String)
    (written : Option (String × String)) : Outcome :=
  let reports := r.reports.map reportText
  if r.hasErrors then ⟨1, stdout, reports, messages ++ [summary r], written⟩
  else ⟨0, stdout, reports, messages, written⟩

/-- Code is written whenever there is some, even if factories were left out. -/
def generate (files : Files) (paths : List String) (metadata out : Option String)
    (options : EmitOptions) : Except String Outcome := do
  let r ← runPass files paths metadata options
  match r.code, out with
  | none, _ =>
    return ⟨1, "", r.reports.map reportText, [s!"No code generated: {summary r}"], none⟩
  | some code, none => return finished r code [] none
  | some code, some path =>
    match files.writeError? path with
    | some e =>
      return ⟨1, "", r.reports.map reportText, [s!"Error writing '{path}': {e.text}"], none⟩
    | none =>
      return finished r "" [s!"✓ Wrote {r.plans.length} mapper(s) to {path}"] (some (path, code))

/-! ### Checks -/

/-- A factory with its stages, each on a line. -/
def factoryLines (f : FactoryPlan) : List String :=
  s!"  {f.declaration} [{f.digest}]" ::
    (f.paramsStage :: f.varsStage.toList ++ [f.finalStage]).map fun stage => "    " ++ stage.text

def planLines (p : MapPlan) : List String :=
  s!"{p.source} -> {p.target}" :: s!"  default: {p.defaultStage.text}" ::
    p.factories.flatMap factoryLines

def check (files : Files) (paths : List String) (metadata : Option String) (plans : Bool) :
    Except String Outcome := do
  let r ← runPass files paths metadata .default
  let shown := if plans then r.plans.flatMap planLines else []
  let last := if r.hasErrors then [] else [s!"✓ {r.plans.length} map(s) checked"]
  return finished r (lines (shown ++ last)) [] none

/-! ### What files are read as -/

/-- All problems of a file as one message. -/
def problemMessage (path source : String) (problems : List Problem) : String :=
  Text.trim (Problem.formatAll problems path source)

def showTokens (files : Files) (path : String) : Except String Outcome := do
  let source ← readText files path
  let tokens ← (lex source).mapError (problemMessage path source)
  return .success (lines (tokens.map (·.listing.line)))

def showSyntax (files : Files) (path : String) : Except String Outcome := do
  let source ← readText files path
  let content ← (Source.Module.parse source).mapError (problemMessage path source)
  return .success (content.listing.block 0 ++ "\n")

/-! ### Runs -/

/-- What an invocation does. -/
def perform (files : Files) : Invocation → Outcome
  | .lex file => .ofExcept (showTokens files file)
  | .parse file => .ofExcept (showSyntax files file)
  | .generate paths metadata out options => .ofExcept (generate files paths metadata out options)
  | .check paths metadata plans => .ofExcept (check files paths metadata plans)
  | .help topic => .success (helpPage topic)
  | .version => .success versionLine
  | .usage => ⟨2, "", [], [], none⟩
  | .nothing => .failure "No command given. Run \x60mapforge --help\x60 for usage."

def run (files : Files) (args : List String) : Outcome := perform files (.ofArgs args)

end StagedMapping.CommandLine
