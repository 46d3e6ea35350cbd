import StagedMapping.Proofs.Occurrence
import StagedMapping.Source.Expr.Printer
import StagedMapping.Source.Lexer

/-! The tokens that the text of an expression is made of (`Expr.kinds`), and what a reader
of that text can be expected to give back: the tree without places and parentheses
(`Expr.bare`). Not every tree has a text that reads back. `Expr.Proper` names what it takes:
names are words, types are complete, and a member that is called is a method. -/
namespace StagedMapping

/-- A text that is read as one word. -/
structure Lexer.IsWord (word : String) : Prop where
  start : ∃ c rest, word.toList = c :: rest ∧ isIdentStart c = true
  parts : ∀ c ∈ word.toList, isIdentPart c = true

/-- A word that is not reserved. -/
structure Lexer.IsName (name : String) : Prop extends IsWord name where
  free : wordKind name = .ident name

namespace Source

/-! ### Tokens -/

/-- The token that a literal is written as. -/
def Literal.kind : Literal → TokenKind
  | .int value => .int value
  | .float value => .float value
  | .string text => .string text
  | .bool true => .keyword .trueWord
  | .bool false => .keyword .falseWord
  | .none => .keyword .noneWord

/-- The text of a literal is that one token, and nothing else is on its line. -/
def Literal.LexesBack (l : Literal) : Prop :=
  ∃ tokens, lex l.text = .ok tokens ∧ tokens.map (·.kind) = [l.kind, .newline, .eof]

end Source

def BinaryOp.kind : BinaryOp → TokenKind
  | .and => .keyword .andWord
  | .or => .keyword .orWord
  | op => .operator op.operator

def UnaryOp.kind : UnaryOp → TokenKind
  | .neg => .operator .minus
  | .not => .keyword .notWord

namespace Source

/-- Token lists with a mark between each two of them. -/
def separated (mark : Punctuation) : List (List TokenKind) → List TokenKind
  | [] => []
  | [ks] => ks
  | ks :: rest => ks ++ .punctuation mark :: separated mark rest

theorem separated_cons_cons (mark : Punctuation) (ks ls : List TokenKind)
    (rest : List (List TokenKind)) :
    separated mark (ks :: ls :: rest) = ks ++ .punctuation mark :: separated mark (ls :: rest) :=
  rfl

def pathKinds (path : List String) : List TokenKind :=
  separated .colonColon (path.map fun name => [.ident name])

/-- In parentheses if `compound`. -/
def encloseKinds (compound : Bool) (ks : List TokenKind) : List TokenKind :=
  if compound then .punctuation .leftParen :: (ks ++ [.punctuation .rightParen]) else ks

/-- Arguments in parentheses. -/
def callKinds (args : List (List TokenKind)) : List TokenKind :=
  .punctuation .leftParen :: (separated .comma args ++ [.punctuation .rightParen])

mutual

/-- The tokens of the text of a type. -/
@[simp] def TypeExpr.kinds : TypeExpr → List TokenKind
  | .named _ path => pathKinds path
  | .applied _ path args =>
    pathKinds path ++ .punctuation .leftBracket ::
      (separated .comma (TypeExpr.listKinds args) ++ [.punctuation .rightBracket])

@[simp] def TypeExpr.listKinds : List TypeExpr → List (List TokenKind)
  | [] => []
  | t :: rest => t.kinds :: TypeExpr.listKinds rest

end

mutual

/-- The tokens of the text of an expression. -/
@[simp] def Expr.kinds : Expr → List TokenKind
  | .ident _ name => [.ident name]
  | .literal _ value => [value.kind]
  | .field _ base name =>
    encloseKinds base.isCompound base.kinds ++ [.punctuation .dot, .ident name]
  | .method _ receiver name args =>
    encloseKinds receiver.isCompound receiver.kinds ++
      .punctuation .dot :: .ident name :: callKinds (Expr.listKinds args)
  | .call _ callee args =>
    encloseKinds callee.isCompound callee.kinds ++ callKinds (Expr.listKinds args)
  | .choice _ value condition otherwise =>
    encloseKinds value.isCompound value.kinds ++ .keyword .ifWord ::
      (encloseKinds condition.isCompound condition.kinds ++ .keyword .elseWord ::
        encloseKinds otherwise.isCompound otherwise.kinds)
  | .binary _ lhs op rhs =>
    encloseKinds lhs.isCompound lhs.kinds ++ op.kind :: encloseKinds rhs.isCompound rhs.kinds
  | .unary _ op operand => op.kind :: encloseKinds operand.isCompound operand.kinds
  | .construct _ type args =>
    .keyword .newWord :: (type.kinds ++ callKinds (Argument.listKinds args))
  | .paren _ inner => encloseKinds true inner.kinds

@[simp] def Expr.listKinds : List Expr → List (List TokenKind)
  | [] => []
  | e :: rest => e.kinds :: Expr.listKinds rest

@[simp] def Argument.kinds : Argument → List TokenKind
  | .positional value => value.kinds
  | .named name value => .ident name.text :: .operator .eq :: value.kinds

@[simp] def Argument.listKinds : List Argument → List (List TokenKind)
  | [] => []
  | a :: rest => a.kinds :: Argument.listKinds rest

end

theorem TypeExpr.listKinds_eq (ts : List TypeExpr) : TypeExpr.listKinds ts = ts.map (·.kinds) := by
  induction ts with
  | nil => rfl
  | cons t rest ih => rw [TypeExpr.listKinds, ih, List.map_cons]

theorem Expr.listKinds_eq (es : List Expr) : Expr.listKinds es = es.map (·.kinds) := by
  induction es with
  | nil => rfl
  | cons e rest ih => rw [Expr.listKinds, ih, List.map_cons]

theorem Argument.listKinds_eq (args : List Argument) :
    Argument.listKinds args = args.map (·.kinds) := by
  induction args with
  | nil => rfl
  | cons a rest ih => rw [Argument.listKinds, ih, List.map_cons]

/-- The tokens of an expression as an operand. -/
def Expr.operandKinds (e : Expr) : List TokenKind := encloseKinds e.isCompound e.kinds

namespace Expr

theorem operandKinds_of_simple {e : Expr} (h : e.isCompound = false) :
    e.operandKinds = e.kinds := by
  rw [operandKinds, h]
  rfl

variable (span : Span) (e : Expr) (name : String) (args : List Expr)

theorem operandKinds_field :
    (field span e name).operandKinds = e.operandKinds ++ [.punctuation .dot, .ident name] :=
  rfl

theorem operandKinds_method : (method span e name args).operandKinds =
    e.operandKinds ++ .punctuation .dot :: .ident name :: callKinds (Expr.listKinds args) :=
  rfl

theorem operandKinds_call :
    (call span e args).operandKinds = e.operandKinds ++ callKinds (Expr.listKinds args) :=
  rfl

end Expr

/-! ### Lists in a text -/

/-- Texts with commas between each two of them, as every list of the language is written. -/
theorem eq_intercalate {α : Type} {text : α → String} {f : List α → String} (nil : f [] = "")
    (one : ∀ a, f [a] = text a)
    (more : ∀ a b rest, f (a :: b :: rest) = text a ++ ", " ++ f (b :: rest)) (items : List α) :
    f items = String.intercalate ", " (items.map text) := by
  induction items with
  | nil => exact nil
  | cons a rest ih =>
    cases rest with
    | nil => simp [one]
    | cons b rest => simp only [more, ih, List.map_cons, String.intercalate_cons_cons]

theorem TypeExpr.listText_eq (ts : List TypeExpr) :
    TypeExpr.listText ts = String.intercalate ", " (ts.map (·.text)) :=
  eq_intercalate rfl (fun _ => rfl) (fun _ _ _ => rfl) ts

theorem Expr.listText_eq (es : List Expr) :
    Expr.listText es = String.intercalate ", " (es.map (·.text)) :=
  eq_intercalate rfl (fun _ => rfl) (fun _ _ _ => rfl) es

theorem Argument.listText_eq (args : List Argument) :
    Argument.listText args = String.intercalate ", " (args.map (·.text)) :=
  eq_intercalate rfl (fun _ => rfl) (fun _ _ _ => rfl) args

/-! ### Trees up to places and parentheses -/

mutual

@[simp] def TypeExpr.bare : TypeExpr → TypeExpr
  | .named _ path => .named .none path
  | .applied _ path args => .applied .none path (TypeExpr.listBare args)

@[simp] def TypeExpr.listBare : List TypeExpr → List TypeExpr
  | [] => []
  | t :: rest => t.bare :: TypeExpr.listBare rest

end

mutual

/-- The expression without places and parentheses. -/
@[simp] def Expr.bare : Expr → Expr
  | .ident _ name => .ident .none name
  | .literal _ value => .literal .none value
  | .field _ base name => .field .none base.bare name
  | .method _ receiver name args => .method .none receiver.bare name (Expr.listBare args)
  | .call _ callee args => .call .none callee.bare (Expr.listBare args)
  | .choice _ value condition otherwise =>
    .choice .none value.bare condition.bare otherwise.bare
  | .binary _ lhs op rhs => .binary .none lhs.bare op rhs.bare
  | .unary _ op operand => .unary .none op operand.bare
  | .construct _ type args => .construct .none type.bare (Argument.listBare args)
  | .paren _ inner => inner.bare

@[simp] def Expr.listBare : List Expr → List Expr
  | [] => []
  | e :: rest => e.bare :: Expr.listBare rest

@[simp] def Argument.bare : Argument → Argument
  | .positional value => .positional value.bare
  | .named name value => .named ⟨name.text, .none⟩ value.bare

@[simp] def Argument.listBare : List Argument → List Argument
  | [] => []
  | a :: rest => a.bare :: Argument.listBare rest

end

theorem TypeExpr.listBare_eq (ts : List TypeExpr) : TypeExpr.listBare ts = ts.map (·.bare) := by
  induction ts with
  | nil => rfl
  | cons t rest ih => rw [TypeExpr.listBare, ih, List.map_cons]

theorem Expr.listBare_eq (es : List Expr) : Expr.listBare es = es.map (·.bare) := by
  induction es with
  | nil => rfl
  | cons e rest ih => rw [Expr.listBare, ih, List.map_cons]

theorem Argument.listBare_eq (args : List Argument) :
    Argument.listBare args = args.map (·.bare) := by
  induction args with
  | nil => rfl
  | cons a rest ih => rw [Argument.listBare, ih, List.map_cons]

/-! ### Proper trees -/

/-- A complete type: no path is empty and no brackets are. -/
inductive TypeExpr.Proper : TypeExpr → Prop where
  | named {span : Span} {path : List String} (hne : path ≠ [])
    (hp : ∀ name ∈ path, Lexer.IsName name) : Proper (.named span path)
  | applied {span : Span} {path : List String} {args : List TypeExpr} (hne : path ≠ [])
    (hp : ∀ name ∈ path, Lexer.IsName name) (hargs : args ≠ []) (h : ∀ t ∈ args, Proper t) :
    Proper (.applied span path args)

def Expr.isField : Expr → Bool
  | .field .. => true
  | _ => false

/-- An expression that a source can write, with literals that satisfy `P`. -/
inductive Expr.Proper (P : Literal → Prop) : Expr → Prop where
  | ident {span : Span} {name : String} (hname : Lexer.IsName name) : Proper P (.ident span name)
  | literal {span : Span} {value : Literal} (h : P value) : Proper P (.literal span value)
  | field {span : Span} {base : Expr} {name : String} (hbase : Proper P base)
    (hname : Lexer.IsName name) : Proper P (.field span base name)
  | method {span : Span} {receiver : Expr} {name : String} {args : List Expr}
    (hreceiver : Proper P receiver) (hname : Lexer.IsName name) (hargs : ∀ a ∈ args, Proper P a) :
    Proper P (.method span receiver name args)
  | call {span : Span} {callee : Expr} {args : List Expr} (hcallee : Proper P callee)
    (hf : callee.isField = false) (hargs : ∀ a ∈ args, Proper P a) :
    Proper P (.call span callee args)
  | choice {span : Span} {value condition otherwise : Expr} (hvalue : Proper P value)
    (hcondition : Proper P condition) (hotherwise : Proper P otherwise) :
    Proper P (.choice span value condition otherwise)
  | binary {span : Span} {lhs rhs : Expr} {op : BinaryOp} (hlhs : Proper P lhs)
    (hrhs : Proper P rhs) : Proper P (.binary span lhs op rhs)
  | unary {span : Span} {op : UnaryOp} {operand : Expr} (hoperand : Proper P operand) :
    Proper P (.unary span op operand)
  | construct {span : Span} {type : TypeExpr} {args : List Argument} (htype : type.Proper)
    (hnames : ∀ a ∈ args, ∀ name ∈ a.name?, Lexer.IsName name.text)
    (hargs : ∀ a ∈ args, Proper P a.value) : Proper P (.construct span type args)
  | paren {span : Span} {inner : Expr} (hinner : Proper P inner) : Proper P (.paren span inner)

namespace Expr
variable {P Q : Literal → Prop} {part e : Expr}

theorem Proper.within (hpart : part.Within e) (h : e.Proper P) : part.Proper P := by
  induction hpart with
  | self => exact h
  | base _ ih => cases h with | field hbase => exact ih hbase
  | receiver _ ih => cases h with | method hreceiver => exact ih hreceiver
  | methodArg ha _ ih => cases h with | method _ _ hargs => exact ih (hargs _ ha)
  | callee _ ih => cases h with | call hcallee => exact ih hcallee
  | callArg ha _ ih => cases h with | call _ _ hargs => exact ih (hargs _ ha)
  | value _ ih => cases h with | choice hvalue => exact ih hvalue
  | condition _ ih => cases h with | choice _ hcondition => exact ih hcondition
  | otherwise _ ih => cases h with | choice _ _ hotherwise => exact ih hotherwise
  | left _ ih => cases h with | binary hlhs => exact ih hlhs
  | right _ ih => cases h with | binary _ hrhs => exact ih hrhs
  | operand _ ih => cases h with | unary hoperand => exact ih hoperand
  | initializer ha _ ih => cases h with | construct _ _ hargs => exact ih (hargs _ ha)
  | inner _ ih => cases h with | paren hinner => exact ih hinner

/-- The literals of a proper expression may be restricted by what is known of them. -/
theorem Proper.restrict (h : e.Proper P) (hl : ∀ span l, (Expr.literal span l).Within e → Q l) :
    e.Proper Q := by
  induction h with
  | ident hname => exact .ident hname
  | literal _ => exact .literal (hl _ _ .self)
  | field _ hname ih => exact .field (ih fun _ _ h => hl _ _ (.base h)) hname
  | method _ hname _ ih iha =>
    exact .method (ih fun _ _ h => hl _ _ (.receiver h)) hname
      fun a ha => iha a ha fun _ _ h => hl _ _ (.methodArg ha h)
  | call _ hf _ ih iha =>
    exact .call (ih fun _ _ h => hl _ _ (.callee h)) hf
      fun a ha => iha a ha fun _ _ h => hl _ _ (.callArg ha h)
  | choice _ _ _ ihv ihc iho =>
    exact .choice (ihv fun _ _ h => hl _ _ (.value h)) (ihc fun _ _ h => hl _ _ (.condition h))
      (iho fun _ _ h => hl _ _ (.otherwise h))
  | binary _ _ ihl ihr =>
    exact .binary (ihl fun _ _ h => hl _ _ (.left h)) (ihr fun _ _ h => hl _ _ (.right h))
  | unary _ ih => exact .unary (ih fun _ _ h => hl _ _ (.operand h))
  | construct htype hnames _ iha =>
    exact .construct htype hnames fun a ha => iha a ha fun _ _ h => hl _ _ (.initializer ha h)
  | paren _ ih => exact .paren (ih fun _ _ h => hl _ _ (.inner h))

end Expr
end Source
end StagedMapping
