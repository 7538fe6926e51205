/-!
A supply of answers to a repeated question: they are given out one by one, and the last one stays.
-/

namespace Snippets

structure Supply (α : Type) where
  now : α
  later : List α := []
  deriving DecidableEq, Repr

namespace Supply

variable {α : Type}

/-- The supply of a list; an empty list supplies `default` for ever. -/
def ofList (default : α) : List α → Supply α
  | [] => ⟨default, []⟩
  | a :: rest => ⟨a, rest⟩

/-- The supply after its current answer has been taken. -/
def next (s : Supply α) : Supply α :=
  match s.later with
  | [] => s
  | a :: rest => ⟨a, rest⟩

@[simp] theorem next_mk_nil (a : α) : (Supply.mk a []).next = ⟨a, []⟩ := rfl

@[simp] theorem next_mk_cons (a b : α) (rest : List α) :
    (Supply.mk a (b :: rest)).next = ⟨b, rest⟩ := rfl

end Supply

end Snippets
