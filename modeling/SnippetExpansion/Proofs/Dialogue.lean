import SnippetExpansion.Dialogue

/-! # Dialogues with fixed answers
Where each question is always answered in the same way a dialogue has one outcome, whatever else they do
who answer. -/
namespace SnippetExpansion.Dialogue

variable {Q : Type} {A : Q → Type} {α β : Type} (reply : (q : Q) → A q)

def outcome : Dialogue Q A α → α
  | done a => a
  | ask q resume => (resume (reply q)).outcome

@[simp] theorem outcome_pure (a : α) : (pure a : Dialogue Q A α).outcome reply = a := rfl

@[simp] theorem outcome_bind (d : Dialogue Q A α) (f : α → Dialogue Q A β) :
    (d >>= f).outcome reply = (f (d.outcome reply)).outcome reply := by
  induction d with
  | done a => rfl
  | ask q resume ih => exact ih (reply q)

theorem outcome_mapM (f : α → Dialogue Q A β) (l : List α) :
    (l.mapM f).outcome reply = l.map fun a => (f a).outcome reply := by
  induction l with
  | nil => rfl
  | cons a l ih =>
    rw [List.mapM_cons, outcome_bind, outcome_bind, outcome_pure, ih, List.map_cons]

theorem run_interpret {σ : Type} {answer : (q : Q) → StateM σ (A q)}
    (hanswer : ∀ q w, ((answer q).run w).1 = reply q) (d : Dialogue Q A α) (w : σ) :
    ((d.interpret answer).run w).1 = d.outcome reply := by
  induction d generalizing w with
  | done a => rfl
  | ask q resume ih =>
    have hrest := ih ((answer q).run w).1 ((answer q).run w).2
    rw [hanswer] at hrest
    change (((resume ((answer q).run w).1).interpret answer).run ((answer q).run w).2).1 = _
    rw [hanswer]
    exact hrest

end SnippetExpansion.Dialogue
