/-! Reserved words of the generated language. A name of the mapping language that is one
of them is written in raw form (`r#type`), except for the four path words, which have no
raw form. -/
namespace StagedMapping.ReservedWord

/-- Words that are reserved in generated code, in the order of the listing. -/
def all : List String :=
  ["as", "async", "await", "break", "const", "continue", "crate", "dyn", "else", "enum", "extern",
    "false", "fn", "for", "gen", "if", "impl", "in", "let", "loop", "match", "mod", "move", "mut",
    "pub", "ref", "return", "static", "struct", "super", "trait", "true", "type", "unsafe", "use",
    "where", "while", "abstract", "become", "box", "do", "final", "macro", "override", "priv",
    "try", "typeof", "unsized", "virtual", "yield"]

def isReserved (name : String) : Bool := all.contains name

/-- Has a raw form. -/
def canBeRaw (name : String) : Bool := !(["self", "Self", "super", "crate"].contains name)

end StagedMapping.ReservedWord
