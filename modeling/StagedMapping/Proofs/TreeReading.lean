import StagedMapping.Proofs.UniqueText

/-! What the text of a tree says. A text is read with members and calls applied before the
operations that stand before an operand, and a float beyond all bounds reads as a name. So a tree
is written like the tree that it reads as (`Tree.text_asRead`), and two trees are written alike
exactly if they read as one tree (`Tree.Written.text_eq_iff`). A tree without such parts reads as
itself. -/
namespace StagedMapping.Tree
open Lexer (IsName)

/-- Names and constants are those that a source can write. -/
inductive Written : Tree → Prop where
  | const {l : Source.Literal} (h : l.Unsigned) : Written (const (Lowering.ofLiteral l))
  | param {name : String} (h : IsName name) : Written (param name)
  | member {base : Tree} {name : String} (hbase : Written base) (hname : IsName name) :
    Written (member base name)
  | call {receiver : Tree} {method : Builtin} {args : List Tree} (hreceiver : Written receiver)
    (hargs : ∀ a ∈ args, Written a) : Written (call receiver method args)
  | cond {test yes no : Tree} (htest : Written test) (hyes : Written yes) (hno : Written no) :
    Written (cond test yes no)
  | binary {op : BinaryOp} {lhs rhs : Tree} (hlhs : Written lhs) (hrhs : Written rhs) :
    Written (binary op lhs rhs)
  | unary {op : UnaryOp} {operand : Tree} (hoperand : Written operand) :
    Written (unary op operand)
  | init {typeName : String} {bindings : List (String × Tree)} (htype : Name.IsPath typeName)
    (hnames : ∀ b ∈ bindings, IsName b.1) (hvalues : ∀ b ∈ bindings, Written b.2) :
    Written (init typeName bindings)

/-! ### Reading -/

/-- What `f` makes of the operand after all operations before it. -/
def underPrefix (f : Tree → Tree) : Tree → Tree
  | unary op operand => unary op (underPrefix f operand)
  | t => f t

mutual

/-- The tree that the text of a tree says. -/
def asRead : Tree → Tree
  | const v => if v.isInfinite then param v.text else const v
  | param name => param name
  | member base name => underPrefix (member · name) (asRead base)
  | call receiver method args => underPrefix (call · method (argsAsRead args)) (asRead receiver)
  | cond test yes no => cond (asRead test) (asRead yes) (asRead no)
  | binary op lhs rhs => binary op (asRead lhs) (asRead rhs)
  | unary op operand => unary op (asRead operand)
  | init typeName bindings => init typeName (bindingsAsRead bindings)

def argsAsRead : List Tree → List Tree
  | [] => []
  | t :: rest => asRead t :: argsAsRead rest

def bindingsAsRead : List (String × Tree) → List (String × Tree)
  | [] => []
  | (name, t) :: rest => (name, asRead t) :: bindingsAsRead rest

end

theorem argsAsRead_eq (args : List Tree) : argsAsRead args = args.map asRead := by
  induction args with
  | nil => rfl
  | cons a rest ih => rw [argsAsRead, ih, List.map_cons]

theorem bindingsAsRead_eq (bindings : List (String × Tree)) :
    bindingsAsRead bindings = bindings.map fun b => (b.1, b.2.asRead) := by
  induction bindings with
  | nil => rfl
  | cons b rest ih => rw [bindingsAsRead, ih, List.map_cons]

/-- What is written after the operand is written after the operations before it. -/
theorem text_underPrefix {f : Tree → Tree} {after : String} (h : ∀ t, (f t).text = t.text ++ after)
    (t : Tree) : (underPrefix f t).text = t.text ++ after := by
  fun_induction underPrefix f t with
  | case1 op operand ih => rw [text, text, ih, String.append_assoc]
  | case2 t => exact h t

mutual

/-- A tree is written like the tree that it reads as. -/
theorem text_asRead : (t : Tree) → t.asRead.text = t.text
  | const v => by
    rw [asRead]
    split <;> rfl
  | param _ => rfl
  | member base name => by
    have after (t : Tree) : (member t name).text = t.text ++ ("." ++ name) := by
      rw [text, String.append_assoc]
    rw [asRead, text_underPrefix after, text_asRead base, after]
  | call receiver method args => by
    have after (t : Tree) : (call t method (argsAsRead args)).text = t.text ++
        ("." ++ method.spelling ++ "(" ++ String.intercalate ", " (argTexts args) ++ ")") := by
      rw [text, argTexts_asRead args]
      simp only [String.append_assoc]
    rw [asRead, text_underPrefix after, text_asRead receiver, text]
    simp only [String.append_assoc]
  | cond test yes no => by
    rw [asRead, text, text_asRead test, text_asRead yes, text_asRead no, text]
  | binary op lhs rhs => by rw [asRead, text, text_asRead lhs, text_asRead rhs, text]
  | unary op operand => by rw [asRead, text, text_asRead operand, text]
  | init typeName bindings => by rw [asRead, text, bindingTexts_asRead bindings, text]

theorem argTexts_asRead : (ts : List Tree) → argTexts (argsAsRead ts) = argTexts ts
  | [] => rfl
  | t :: rest => by rw [argsAsRead, argTexts, text_asRead t, argTexts_asRead rest, argTexts]

theorem bindingTexts_asRead : (bs : List (String × Tree)) →
    bindingTexts (bindingsAsRead bs) = bindingTexts bs
  | [] => rfl
  | (name, t) :: rest => by
    rw [bindingsAsRead, bindingTexts, text_asRead t, bindingTexts_asRead rest, bindingTexts]

end

/-! ### Reading makes a tree legible -/

theorem legible_underPrefix {f : Tree → Tree}
    (h : ∀ t : Tree, t.Legible → t.isPrefixed = false → (f t).Legible) {t : Tree} (ht : t.Legible) :
    (underPrefix f t).Legible := by
  fun_induction underPrefix f t with
  | case1 op operand ih =>
    cases ht with
    | unary hoperand => exact .unary (ih hoperand)
  | case2 t plain =>
    refine h t ht ?_
    cases t with
    | unary op operand => exact absurd rfl (plain op operand)
    | _ => rfl

/-- A float without a sign beyond all bounds is written as a name. -/
theorem isName_of_isInfinite {l : Source.Literal} (h : l.Unsigned)
    (infinite : (Lowering.ofLiteral l).isInfinite = true) : IsName (Lowering.ofLiteral l).text := by
  cases l with
  | float x =>
    have unsigned := Lowering.isUnsigned_of_unsigned h
    have text : Number.render x = "inf" := by
      unfold Number.render Number.signed
      rw [unsigned.1, unsigned.2, show x.isInf = true from infinite]
      rfl
    show IsName (Number.render x)
    rw [text]
    exact ⟨⟨⟨'i', ['n', 'f'], rfl, rfl⟩, List.all_eq_true.1 rfl⟩, rfl⟩
  | int | string | bool | none => cases infinite

/-- What a written tree reads as is legible. -/
theorem Written.legible_asRead {t : Tree} (h : t.Written) : t.asRead.Legible := by
  induction h with
  | const h =>
    rw [asRead]
    split
    case isTrue infinite => exact .param (isName_of_isInfinite h infinite)
    case isFalse finite => exact .const h (Bool.eq_false_iff.2 finite)
  | param h => exact .param h
  | member _ hname ih => exact legible_underPrefix (fun t ht hp => .member ht hp hname) ih
  | call _ _ ih ihargs =>
    refine legible_underPrefix (fun t ht hp => .call ht hp fun a ha => ?_) ih
    rw [argsAsRead_eq] at ha
    obtain ⟨b, hb, rfl⟩ := List.mem_map.1 ha
    exact ihargs b hb
  | cond _ _ _ iht ihy ihn => exact .cond iht ihy ihn
  | binary _ _ ihl ihr => exact .binary ihl ihr
  | unary _ ih => exact .unary ih
  | init htype hnames _ ih =>
    rw [asRead, bindingsAsRead_eq]
    refine .init htype (fun b hb => ?_) fun b hb => ?_
    · obtain ⟨d, hd, rfl⟩ := List.mem_map.1 hb
      exact hnames d hd
    · obtain ⟨d, hd, rfl⟩ := List.mem_map.1 hb
      exact ih d hd

/-- Two written trees have one text exactly if they read as one tree. -/
theorem Written.text_eq_iff {t u : Tree} (ht : t.Written) (hu : u.Written) :
    t.text = u.text ↔ t.asRead = u.asRead := by
  constructor
  · intro h
    refine ht.legible_asRead.text_inj hu.legible_asRead ?_
    rw [text_asRead, text_asRead, h]
  · intro h
    rw [← text_asRead t, h, text_asRead]

/-! ### Trees that read as themselves -/

/-- Part of a tree, or the tree itself. -/
inductive Within (part : Tree) : Tree → Prop where
  | self : Within part part
  | base {base : Tree} {name : String} (h : Within part base) : Within part (member base name)
  | receiver {receiver : Tree} {method : Builtin} {args : List Tree} (h : Within part receiver) :
    Within part (call receiver method args)
  | arg {receiver arg : Tree} {method : Builtin} {args : List Tree} (ha : arg ∈ args)
    (h : Within part arg) : Within part (call receiver method args)
  | test {test yes no : Tree} (h : Within part test) : Within part (cond test yes no)
  | yes {test yes no : Tree} (h : Within part yes) : Within part (cond test yes no)
  | no {test yes no : Tree} (h : Within part no) : Within part (cond test yes no)
  | lhs {op : BinaryOp} {lhs rhs : Tree} (h : Within part lhs) : Within part (binary op lhs rhs)
  | rhs {op : BinaryOp} {lhs rhs : Tree} (h : Within part rhs) : Within part (binary op lhs rhs)
  | operand {op : UnaryOp} {operand : Tree} (h : Within part operand) :
    Within part (unary op operand)
  | value {typeName : String} {bindings : List (String × Tree)} {b : String × Tree}
    (hb : b ∈ bindings) (h : Within part b.2) : Within part (init typeName bindings)

/-- A member or a call of an operation before an operand, or a float beyond all bounds: the text
does not say that. -/
def isAmbiguous : Tree → Bool
  | const v => v.isInfinite
  | member base _ => base.isPrefixed
  | call receiver .. => receiver.isPrefixed
  | _ => false

/-- No part of the tree is ambiguous. -/
def Plain (t : Tree) : Prop := ∀ part : Tree, part.Within t → part.isAmbiguous = false

theorem underPrefix_of_isPrefixed {f : Tree → Tree} {t : Tree} (h : t.isPrefixed = false) :
    underPrefix f t = f t := by
  cases t with
  | unary => cases h
  | _ => rfl

/-- A tree without ambiguous parts reads as itself. -/
theorem Plain.asRead_eq {t : Tree} (hplain : t.Plain) (h : t.Written) : t.asRead = t := by
  induction h with
  | @const l =>
    have finite : (Lowering.ofLiteral l).isInfinite = false := hplain _ .self
    rw [asRead, if_neg (Bool.eq_false_iff.1 finite)]
  | param => rfl
  | member _ _ ih =>
    rw [asRead, ih fun s hs => hplain s (.base hs), underPrefix_of_isPrefixed (hplain _ .self)]
  | @call receiver method args _ _ ih ihargs =>
    have same : argsAsRead args = args := by
      rw [argsAsRead_eq]
      exact (List.map_congr_left fun a ha => ihargs a ha fun s hs => hplain s (.arg ha hs)).trans
        (List.map_id _)
    rw [asRead, ih fun s hs => hplain s (.receiver hs), same,
      underPrefix_of_isPrefixed (hplain _ .self)]
  | cond _ _ _ iht ihy ihn =>
    rw [asRead, iht fun s hs => hplain s (.test hs), ihy fun s hs => hplain s (.yes hs),
      ihn fun s hs => hplain s (.no hs)]
  | binary _ _ ihl ihr =>
    rw [asRead, ihl fun s hs => hplain s (.lhs hs), ihr fun s hs => hplain s (.rhs hs)]
  | unary _ ih => rw [asRead, ih fun s hs => hplain s (.operand hs)]
  | @init typeName bindings _ _ _ ih =>
    have same : bindingsAsRead bindings = bindings := by
      rw [bindingsAsRead_eq]
      refine (List.map_congr_left fun b hb => ?_).trans (List.map_id _)
      exact Prod.ext rfl (ih b hb fun s hs => hplain s (.value hb hs))
    rw [asRead, same]

end StagedMapping.Tree
