import StagedMapping.Proofs.ScopeSafety

/-! The substitution lemma of trees. A name stands for itself where nothing is put in its place
and both scopes bind it alike; else what is put in its place stands for it, if it has in the one
scope what the name has in the other (`Tree.StandsFor`). A tree whose names are all stood for has
the value or the failure that it had, and its free names are those that were left and those of
what was put in (`Tree.substitution_lemma`). A tree binds no names, so none is captured. -/
namespace StagedMapping

namespace Tree
variable {replace : String → Option Tree}

/-- What is put in the place of a name has in the outer scope the value of the name in the inner
one, or fails as the name does there. -/
def StandsFor (replace : String → Option Tree) (outer inner : Scope) (name : String) : Prop :=
  match replace name with
  | some t => t.eval outer = (param name).eval inner
  | none => Bindings.get? outer name = Bindings.get? inner name

theorem StandsFor.eval_eq {outer inner : Scope} {name : String}
    (h : StandsFor replace outer inner name) :
    ((replace name).getD (param name)).eval outer = (param name).eval inner := by
  unfold StandsFor at h
  cases hr : replace name with
  | some t =>
    rw [hr] at h
    exact h
  | none =>
    rw [hr] at h
    dsimp only at h
    rw [Option.getD_none, eval, eval, h]

/-- The free names after a substitution: those without a replacement, and those of the
replacements of the others. -/
theorem mem_parameters_substitute (t : Tree) (m : String) :
    m ∈ (t.substitute replace).parameters ↔ m ∈ t.parameters ∧ replace m = none ∨
      ∃ n ∈ t.parameters, ∃ r, replace n = some r ∧ m ∈ r.parameters := by
  simp only [mem_parameters, reads_substitute, List.mem_flatMap]
  constructor
  · rintro ⟨n, hn, hm⟩
    cases hr : replace n with
    | some r =>
      rw [hr] at hm
      exact .inr ⟨n, hn, r, hr, hm⟩
    | none =>
      rw [hr] at hm
      cases List.mem_singleton.1 hm
      exact .inl ⟨hn, hr⟩
  · rintro (⟨hm, hr⟩ | ⟨n, hn, r, hr, hm⟩)
    · exact ⟨m, hm, by rw [hr]; exact List.mem_singleton.2 rfl⟩
    · exact ⟨n, hn, by rwa [hr]⟩

/-- Where each free name of a tree is stood for, the tree with the replacements in it has the
value or the failure of the tree; and its free names are the names that have no replacement and
those of the replacements that were used. -/
theorem substitution_lemma (t : Tree) (replace : String → Option Tree) :
    (∀ outer inner, (∀ n ∈ t.parameters, StandsFor replace outer inner n) →
      (t.substitute replace).eval outer = t.eval inner) ∧
    ∀ m, m ∈ (t.substitute replace).parameters ↔ m ∈ t.parameters ∧ replace m = none ∨
      ∃ n ∈ t.parameters, ∃ r, replace n = some r ∧ m ∈ r.parameters := by
  refine ⟨fun outer inner h => ?_, t.mem_parameters_substitute⟩
  exact eval_substitute t fun n hn => (h n ((mem_parameters t n).2 hn)).eval_eq

end Tree

/-! ### A stage in the place of its argument -/

namespace Sample

/-- Its names are a condition, a local, a member of an argument, and a name without a value on
the way that is not taken. -/
def greeting : Tree :=
  .cond (.binary .or (.param "formal") (.param "gone"))
    (.init "T" [("n", .param "title"), ("m", .member (.param "x") "name"), ("n", .param "k")])
    (.param "gone")

/-- The argument is made of the source, and one local is known. -/
def inlined (name : String) : Option Tree :=
  if name = "x" then some (.init "U" [("name", .call (.member (.param "source") "name") .upper [])])
  else if name = "title" then some (.const (.str "Dr"))
  else none

def greetingOuter : Scope :=
  [("source", .record "S" [("name", .str "ada")]), ("formal", .bool true), ("k", .int 1)]

def greetingInner : Scope :=
  [("k", .int 1), ("formal", .bool true), ("x", .record "U" [("name", .str "ADA")]),
    ("title", .str "Dr")]

end Sample

namespace Tree
open Sample

theorem substitution_lemma_greeting :
    (∀ n ∈ greeting.parameters, StandsFor inlined greetingOuter greetingInner n) ∧
      (greeting.substitute inlined).eval greetingOuter = greeting.eval greetingInner ∧
      greeting.eval greetingInner = .ok (.record "T" [("n", .int 1), ("m", .str "ADA")]) ∧
      "source" ∈ (greeting.substitute inlined).parameters ∧
      "x" ∉ (greeting.substitute inlined).parameters := by
  have hnames : greeting.parameters = ["formal", "gone", "title", "x", "k"] := by decide +kernel
  have hstands : ∀ n ∈ greeting.parameters, StandsFor inlined greetingOuter greetingInner n := by
    rw [hnames]
    simp only [List.mem_cons, List.not_mem_nil, or_false, forall_eq_or_imp, forall_eq]
    refine ⟨?_, ?_, ?_, ?_, ?_⟩ <;> cbv
  obtain ⟨heval, hmem⟩ := substitution_lemma greeting inlined
  refine ⟨hstands, heval _ _ hstands, by cbv, ?_, ?_⟩
  · rw [hmem, hnames]
    exact .inr ⟨"x", by decide, _, rfl, by decide +kernel⟩
  · rw [hmem]
    decide +kernel

end Tree
end StagedMapping
