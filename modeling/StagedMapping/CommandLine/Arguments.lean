import StagedMapping.Emission

/-! Arguments of the command line. `Invocation.ofArgs` reads them one by one: an argument
that is not understood, an option that is given twice or has no value, and a help option stop
the reading where they stand. -/
namespace StagedMapping.CommandLine

/-! ### Options of a command -/

/-- An option with a value. -/
structure ValueOption where
  long : String
  short : Option Char
  /-- The value may be the empty text. -/
  allowsEmpty : Bool
  deriving DecidableEq, Repr

structure CommandOptions where
  values : List ValueOption
  flags : List String
  /-- It can show the version. -/
  hasVersion : Bool
  /-- It ends at the first argument that is not an option. -/
  endsAtWord : Bool

/-- Why reading stops before the end. -/
inductive Stop where
  | usage
  | help
  | version
  deriving DecidableEq, Repr

/-- What was read of the arguments of a command. -/
structure Parsed where
  values : List (String × String)
  flags : List String
  words : List String
  /-- What follows the first word of a command that ends there. -/
  rest : List String
  deriving Repr

namespace Parsed

def empty : Parsed := ⟨[], [], [], []⟩

def value? (p : Parsed) (long : String) : Option String := Bindings.get? p.values long

def hasFlag (p : Parsed) (long : String) : Bool := p.flags.contains long

/-- Notes a value, which an option takes once. -/
def addValue (p : Parsed) (o : ValueOption) (value : String) : Except Stop Parsed :=
  if (p.value? o.long).isSome || (value = "" && !o.allowsEmpty) then .error .usage
  else .ok { p with values := p.values ++ [(o.long, value)] }

def addFlag (p : Parsed) (long : String) : Except Stop Parsed :=
  if p.hasFlag long then .error .usage else .ok { p with flags := p.flags ++ [long] }

/-- Notes a word, which is a path and so not empty. -/
def addWord (p : Parsed) (word : String) : Except Stop Parsed :=
  if word = "" then .error .usage else .ok { p with words := p.words ++ [word] }

end Parsed

/-! ### Reading -/

/-- The shapes of an argument. -/
inductive Shape where
  /-- Everything after it is a word. -/
  | escape
  | long (name : String) (value : Option String)
  | short (first : Char) (rest : List Char)
  | word (text : String)
  deriving Repr

/-- The characters before an equals sign, and those after it if there is one. -/
def splitEquals : List Char → List Char × Option (List Char)
  | [] => ([], none)
  | c :: rest =>
    if c = '=' then ([], some rest)
    else
      let (name, value) := splitEquals rest
      (c :: name, value)

/-- A single hyphen is a word. -/
def Shape.ofArg (arg : String) : Shape :=
  match arg.toList with
  | ['-', '-'] => .escape
  | '-' :: '-' :: rest =>
    let (name, value) := splitEquals rest
    .long (String.ofList name) (value.map String.ofList)
  | '-' :: c :: rest => .short c rest
  | _ => .word arg

namespace CommandOptions
variable (o : CommandOptions)

/-- The value of an option in the argument itself, or that it is in the next one. -/
inductive Pending where
  | done (p : Parsed)
  | awaits (option : ValueOption)

def readLong (p : Parsed) (name : String) (value : Option String) : Except Stop Pending :=
  match o.values.find? (·.long == name), value with
  | some option, some text => (p.addValue option text).map .done
  | some option, none => .ok (.awaits option)
  | none, some _ => .error .usage
  | none, none =>
    if o.flags.contains name then (p.addFlag name).map .done
    else if name = "help" then .error .help
    else if name = "version" ∧ o.hasVersion then .error .version
    else .error .usage

def readShort (p : Parsed) (first : Char) (rest : List Char) : Except Stop Pending :=
  match o.values.find? (·.short == some first), rest with
  | some option, [] => .ok (.awaits option)
  | some option, '=' :: value => (p.addValue option (String.ofList value)).map .done
  | some option, value => (p.addValue option (String.ofList value)).map .done
  | none, _ =>
    if first = 'h' then .error .help
    else if first = 'V' ∧ o.hasVersion then .error .version
    else .error .usage

/-- Reads arguments, with an option that may await its value. -/
def read (p : Parsed) (awaiting : Option ValueOption) : List String → Except Stop Parsed
  | [] => if awaiting.isSome then .error .usage else .ok p
  | arg :: rest =>
    match awaiting, Shape.ofArg arg with
    | some option, .word text => do read (← p.addValue option text) none rest
    | some _, _ => .error .usage
    | none, .word text =>
      if o.endsAtWord then .ok { p with words := [text], rest }
      else do read (← p.addWord text) none rest
    | none, .escape =>
      if o.endsAtWord then if rest.isEmpty then .ok p else .error .usage
      else rest.foldlM Parsed.addWord p
    | none, .long name value => do
      match ← o.readLong p name value with
      | .done p => read p none rest
      | .awaits option => read p (some option) rest
    | none, .short first more => do
      match ← o.readShort p first more with
      | .done p => read p none rest
      | .awaits option => read p (some option) rest

end CommandOptions

/-! ### Commands -/

/-- The commands that have a help page of their own. -/
inductive Topic where
  | program
  | generate
  | check
  | help
  deriving DecidableEq, Repr

inductive Invocation where
  | lex (file : String)
  | parse (file : String)
  | generate (paths : List String) (metadata out : Option String) (options : EmitOptions)
  | check (paths : List String) (metadata : Option String) (plans : Bool)
  | help (topic : Topic)
  | version
  /-- The arguments are not understood. -/
  | usage
  | nothing
  deriving Repr

def fileOption (long : String) (short : Option Char) : ValueOption := ⟨long, short, false⟩

def programOptions : CommandOptions :=
  ⟨[fileOption "lex" none, fileOption "parse" none], [], true, true⟩

def generateOptions : CommandOptions :=
  ⟨[fileOption "metadata" none, fileOption "out" (some 'o'), ⟨"module", none, true⟩,
    ⟨"source-root", none, true⟩], [], false, false⟩

def checkOptions : CommandOptions := ⟨[fileOption "metadata" none], ["plans"], false, false⟩

namespace Invocation

/-- What a stop means in a command. -/
def ofStop (topic : Topic) : Stop → Invocation
  | .usage => usage
  | .help => help topic
  | .version => version

def ofGenerate (p : Parsed) : Invocation :=
  if p.words.isEmpty then usage
  else generate p.words (p.value? "metadata") (p.value? "out")
    ⟨(p.value? "module").getD EmitOptions.default.outerModule,
      (p.value? "source-root").getD EmitOptions.default.sourceRoot⟩

def ofCheck (p : Parsed) : Invocation :=
  if p.words.isEmpty then usage else check p.words (p.value? "metadata") (p.hasFlag "plans")

/-- The page that the words after `help` name. -/
def ofHelp : List String → Invocation
  | [] => help .program
  | ["generate"] => help .generate
  | ["check"] => help .check
  | ["help"] => help .help
  | _ => usage

/-- The command that a word names, with its arguments. -/
def ofCommand (word : String) (args : List String) : Invocation :=
  if word = "generate" then
    match generateOptions.read .empty none args with
    | .ok p => ofGenerate p
    | .error stop => ofStop .generate stop
  else if word = "check" then
    match checkOptions.read .empty none args with
    | .ok p => ofCheck p
    | .error stop => ofStop .check stop
  else if word = "help" then ofHelp args
  else usage

/-- The debugging options of the program come before its command, once that is read. -/
def withProgram (p : Parsed) (command : Invocation) : Invocation :=
  match command, p.value? "lex", p.value? "parse" with
  | usage, _, _ | help _, _, _ | version, _, _ => command
  | _, some _, some _ => usage
  | _, some file, none => lex file
  | _, none, some file => parse file
  | _, none, none => command

/-- The paths that are read. -/
def paths : Invocation → List String
  | lex file | parse file => [file]
  | generate paths metadata _ _ | check paths metadata _ => paths ++ metadata.toList
  | help _ | version | usage | nothing => []

def ofArgs (args : List String) : Invocation :=
  match programOptions.read .empty none args with
  | .error stop => ofStop .program stop
  | .ok p =>
    match p.words with
    | [] => withProgram p nothing
    | word :: _ => withProgram p (ofCommand word p.rest)

end Invocation
end StagedMapping.CommandLine
