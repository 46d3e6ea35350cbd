import StagedMapping.CommandLine.Arguments

/-! Help pages and the version. -/
namespace StagedMapping.CommandLine

def versionLine : String := "mapforge 0.1.0-alpha.1\n"

/-- Lines as a text. -/
def lines (ls : List String) : String := String.join (ls.map (· ++ "\n"))

def programHelp : List String :=
  ["Compile mapping declarations into staged Rust mappers",
    "",
    "Usage: mapforge [OPTIONS] [COMMAND]",
    "",
    "Commands:",
    "  generate  Compile mapping declarations to Rust",
    "  check     Check mapping declarations without generating code",
    "  help      Print this message or the help of the given subcommand(s)",
    "",
    "Options:",
    "      --lex <FILE>    Tokenize only (debug)",
    "      --parse <FILE>  Parse only (debug)",
    "  -h, --help          Print help",
    "  -V, --version       Print version"]

def generateHelp : List String :=
  ["Compile mapping declarations to Rust",
    "",
    "Usage: mapforge generate [OPTIONS] <PATH>...",
    "",
    "Arguments:",
    "  <PATH>...  Source files or directories",
    "",
    "Options:",
    "      --metadata <FILE>     JSON file with compiled type metadata",
    "  -o, --out <FILE>          Output file (default: stdout)",
    "      --module <NAME>       Module wrapping the generated namespaces; empty for none [default: mappers]",
    "      --source-root <PATH>  Rust path the compiled types' namespaces live under [default: crate]",
    "  -h, --help                Print help"]

def checkHelp : List String :=
  ["Check mapping declarations without generating code",
    "",
    "Usage: mapforge check [OPTIONS] <PATH>...",
    "",
    "Arguments:",
    "  <PATH>...  Source files or directories",
    "",
    "Options:",
    "      --metadata <FILE>  JSON file with compiled type metadata",
    "      --plans            Print the translation of every planned expression tree",
    "  -h, --help             Print help"]

def helpHelp : List String :=
  ["Print this message or the help of the given subcommand(s)",
    "",
    "Usage: mapforge help [COMMAND]...",
    "",
    "Arguments:",
    "  [COMMAND]...  Print help for the subcommand(s)"]

def helpPage : Topic → String
  | .program => lines programHelp
  | .generate => lines generateHelp
  | .check => lines checkHelp
  | .help => lines helpHelp

end StagedMapping.CommandLine
