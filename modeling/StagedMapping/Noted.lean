/-! A result together with what was noted on the way to it. Notes do not stop anything; they
are kept in the order in which they are made. -/
namespace StagedMapping

structure Noted (ε α : Type) where
  value : α
  notes : List ε
  deriving Repr

namespace Noted
variable {ε α β : Type}

def note (e : ε) : Noted ε Unit := ⟨(), [e]⟩

/-- A result with its notes put another way. -/
def mapNotes {δ : Type} (f : ε → δ) (x : Noted ε α) : Noted δ α := ⟨x.value, x.notes.map f⟩

instance : Monad (Noted ε) where
  pure a := ⟨a, []⟩
  bind x f :=
    let y := f x.value
    ⟨y.value, x.notes ++ y.notes⟩

@[simp] theorem pure_value (a : α) : (pure a : Noted ε α).value = a := rfl

@[simp] theorem pure_notes (a : α) : (pure a : Noted ε α).notes = [] := rfl

@[simp] theorem bind_value (x : Noted ε α) (f : α → Noted ε β) :
    (x >>= f).value = (f x.value).value := rfl

@[simp] theorem bind_notes (x : Noted ε α) (f : α → Noted ε β) :
    (x >>= f).notes = x.notes ++ (f x.value).notes := rfl

@[simp] theorem map_value (f : α → β) (x : Noted ε α) : (f <$> x).value = f x.value := rfl

@[simp] theorem map_notes (f : α → β) (x : Noted ε α) : (f <$> x).notes = x.notes :=
  List.append_nil _

theorem ext_iff {x y : Noted ε α} : x = y ↔ x.value = y.value ∧ x.notes = y.notes := by
  cases x
  cases y
  simp

instance : LawfulMonad (Noted ε) :=
  LawfulMonad.mk' _ (fun x => by cases x; simp [Functor.map]) (fun _ _ => rfl)
    (fun x f g => by simp [bind])

theorem mapM_value (f : α → Noted ε β) (xs : List α) :
    (xs.mapM f).value = xs.map fun x => (f x).value := by
  induction xs with
  | nil => rfl
  | cons x rest ih => rw [List.mapM_cons, bind_value, bind_value, pure_value, ih, List.map_cons]

theorem mapM_notes (f : α → Noted ε β) (xs : List α) :
    (xs.mapM f).notes = xs.flatMap fun x => (f x).notes := by
  induction xs with
  | nil => rfl
  | cons x rest ih =>
    rw [List.mapM_cons, bind_notes, bind_notes, pure_notes, List.append_nil, ih, List.flatMap_cons]

/-! ### Notes put another way -/

section
variable {δ : Type} (g : ε → δ)

@[simp] theorem mapNotes_value (x : Noted ε α) : (x.mapNotes g).value = x.value := rfl

@[simp] theorem mapNotes_notes (x : Noted ε α) : (x.mapNotes g).notes = x.notes.map g := rfl

@[simp] theorem mapNotes_pure (a : α) : (pure a : Noted ε α).mapNotes g = pure a := rfl

@[simp] theorem mapNotes_bind (x : Noted ε α) (f : α → Noted ε β) :
    (x >>= f).mapNotes g = x.mapNotes g >>= fun a => (f a).mapNotes g := by
  simp [ext_iff]

@[simp] theorem mapNotes_map (f : α → β) (x : Noted ε α) :
    (f <$> x).mapNotes g = f <$> x.mapNotes g := by
  simp [ext_iff]

@[simp] theorem mapNotes_mapM (f : α → Noted ε β) (xs : List α) :
    (xs.mapM f).mapNotes g = xs.mapM fun x => (f x).mapNotes g := by
  simp [ext_iff, mapM_value, mapM_notes, List.map_flatMap]

end

end Noted
end StagedMapping
