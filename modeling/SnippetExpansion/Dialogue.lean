/-!
# Dialogues

A computation that asks for things outside itself and goes on with the answers. What it asks and
what it makes of each answer is data, so one computation can be run against a written list of
answers, against the real world, or beside others.
-/
namespace SnippetExpansion

/-- A computation of an `α` that asks questions `q` and is given an `A q` for each. -/
inductive Dialogue (Q : Type) (A : Q → Type) (α : Type) where
  | done (value : α)
  | ask (question : Q) (resume : A question → Dialogue Q A α)

namespace Dialogue

variable {Q : Type} {A : Q → Type} {α β γ : Type}

def bind : Dialogue Q A α → (α → Dialogue Q A β) → Dialogue Q A β
  | done a, f => f a
  | ask q resume, f => ask q fun answer => (resume answer).bind f

instance : Monad (Dialogue Q A) where
  pure := done
  bind := bind

def request (q : Q) : Dialogue Q A (A q) := ask q done

@[simp] theorem done_bind (a : α) (f : α → Dialogue Q A β) : done a >>= f = f a := rfl

@[simp] theorem ask_bind (q : Q) (resume : A q → Dialogue Q A α) (f : α → Dialogue Q A β) :
    ask q resume >>= f = ask q fun answer => resume answer >>= f := rfl

theorem bind_done (d : Dialogue Q A α) : d >>= done = d := by
  induction d with
  | done a => rfl
  | ask q resume ih => simp [ih]

theorem bind_bind (d : Dialogue Q A α) (f : α → Dialogue Q A β) (g : β → Dialogue Q A γ) :
    d >>= f >>= g = d >>= fun a => f a >>= g := by
  induction d with
  | done a => rfl
  | ask q resume ih => simp [ih]

instance : LawfulMonad (Dialogue Q A) :=
  LawfulMonad.mk' _ bind_done (fun _ _ => rfl) bind_bind

def interpret {M : Type → Type} [Monad M] (answer : (q : Q) → M (A q)) : Dialogue Q A α → M α
  | done a => pure a
  | ask q resume => answer q >>= fun a => interpret answer (resume a)

@[simp] theorem interpret_done {M : Type → Type} [Monad M] (answer : (q : Q) → M (A q)) (a : α) :
    (done a : Dialogue Q A α).interpret answer = pure a := rfl

@[simp] theorem interpret_ask {M : Type → Type} [Monad M] (answer : (q : Q) → M (A q)) (q : Q)
    (resume : A q → Dialogue Q A α) :
    (ask q resume).interpret answer = answer q >>= fun a => (resume a).interpret answer := rfl

theorem interpret_bind {M : Type → Type} [Monad M] [LawfulMonad M] (answer : (q : Q) → M (A q))
    (d : Dialogue Q A α) (f : α → Dialogue Q A β) :
    (d >>= f).interpret answer = d.interpret answer >>= fun a => (f a).interpret answer := by
  induction d with
  | done a => simp
  | ask q resume ih => simp [ih]

/-- `Left rest d` holds when `rest` is what is left of `d` after one answer or more. -/
inductive Left : Dialogue Q A α → Dialogue Q A α → Prop where
  | one (q : Q) (resume : A q → Dialogue Q A α) (a : A q) : Left (resume a) (ask q resume)
  | more (q : Q) (resume : A q → Dialogue Q A α) (a : A q) (rest : Dialogue Q A α) :
      Left rest (resume a) → Left rest (ask q resume)

theorem Left.accessible (d : Dialogue Q A α) : Acc Left d := by
  induction d with
  | done a => exact ⟨_, fun _ h => nomatch h⟩
  | ask q resume ih =>
    refine ⟨_, fun rest h => ?_⟩
    cases h with
    | one _ _ a => exact ih a
    | more _ _ a _ h => exact (ih a).inv h

end Dialogue
end SnippetExpansion
