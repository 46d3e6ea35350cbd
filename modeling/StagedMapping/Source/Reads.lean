import StagedMapping.Diagnostic
import StagedMapping.Source.Statement

/-! What expressions and statements read, and what statements change: every name with the
place where it is used, in the order in which it is written. -/
namespace StagedMapping.Source

/-! ### Reads -/

mutual

def Expr.reads : Expr → List Ident
  | .ident span name => [⟨name, span⟩]
  | .literal .. => []
  | .field _ base _ => base.reads
  | .method _ receiver _ args => receiver.reads ++ Expr.listReads args
  | .call _ callee args => callee.reads ++ Expr.listReads args
  | .choice _ value condition otherwise => value.reads ++ condition.reads ++ otherwise.reads
  | .binary _ lhs _ rhs => lhs.reads ++ rhs.reads
  | .unary _ _ operand => operand.reads
  | .construct _ _ args => Argument.listReads args
  | .paren _ inner => inner.reads

def Expr.listReads : List Expr → List Ident
  | [] => []
  | e :: rest => e.reads ++ Expr.listReads rest

def Argument.reads : Argument → List Ident
  | .positional value => value.reads
  | .named _ value => value.reads

def Argument.listReads : List Argument → List Ident
  | [] => []
  | a :: rest => a.reads ++ Argument.listReads rest

end

/-- The reads of an expression that may be absent. -/
def optionalReads : Option Expr → List Ident
  | none => []
  | some e => e.reads

mutual

/-- The target of an assignment counts as read. -/
def Statement.reads : Statement → List Ident
  | .letIn _ bindings => bindings.flatMap fun b => optionalReads b.value
  | .assign _ target value => target :: value.reads
  | .expr _ value => value.reads
  | .branch _ condition body others otherwise =>
    condition.reads ++ blockReads body ++ othersReads others ++ otherwiseReads otherwise
  | .loop _ condition body => condition.reads ++ blockReads body
  | .ret _ value => optionalReads value
  | .pass _ => []

def blockReads : List Statement → List Ident
  | [] => []
  | s :: rest => s.reads ++ blockReads rest

def othersReads : List (Expr × List Statement) → List Ident
  | [] => []
  | (condition, body) :: rest => condition.reads ++ blockReads body ++ othersReads rest

def otherwiseReads : Option (List Statement) → List Ident
  | none => []
  | some body => blockReads body

end

/-! ### Assignments -/

mutual

/-- Targets of assignments, also inside branches and loops. -/
def Statement.assigned : Statement → List Ident
  | .assign _ target _ => [target]
  | .branch _ _ body others otherwise =>
    blockAssigned body ++ othersAssigned others ++ otherwiseAssigned otherwise
  | .loop _ _ body => blockAssigned body
  | _ => []

def blockAssigned : List Statement → List Ident
  | [] => []
  | s :: rest => s.assigned ++ blockAssigned rest

def othersAssigned : List (Expr × List Statement) → List Ident
  | [] => []
  | (_, body) :: rest => blockAssigned body ++ othersAssigned rest

def otherwiseAssigned : Option (List Statement) → List Ident
  | none => []
  | some body => blockAssigned body

end

/-! ### Control flow -/

mutual

/-- The first loop or return in a statement. -/
def Statement.controlFlow? : Statement → Option (ControlFlow × Span)
  | .loop span .. => some (.loop, span)
  | .ret span _ => some (.earlyReturn, span)
  | .branch _ _ body others otherwise =>
    (blockFlow? body).or ((othersFlow? others).or (otherwiseFlow? otherwise))
  | _ => none

def blockFlow? : List Statement → Option (ControlFlow × Span)
  | [] => none
  | s :: rest => s.controlFlow?.or (blockFlow? rest)

def othersFlow? : List (Expr × List Statement) → Option (ControlFlow × Span)
  | [] => none
  | (_, body) :: rest => (blockFlow? body).or (othersFlow? rest)

def otherwiseFlow? : Option (List Statement) → Option (ControlFlow × Span)
  | none => none
  | some body => blockFlow? body

end

end StagedMapping.Source
