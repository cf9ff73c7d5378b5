import SnippetExpansion.Session.Scene

/-!
# Work side by side

Several actions at once, each on a surface of its own. Each goes on until its next pause; then the
one whose pause ends first goes on. A pause of no length is none.
-/
namespace SnippetExpansion

structure Ending where
  outcome : Outcome
  time : Nat
  busy : Bool
  deriving Repr, DecidableEq

inductive Task where
  | waiting (due : Nat) (rest : Work Outcome)
  | ended (ending : Ending)

namespace Task

/-- Carries work on to its next pause or its end. -/
def advance (index : Nat) : Work Outcome → Scene → Task × Scene
  | .done outcome, s => (ended ⟨outcome, s.session.clock, s.session.replacing⟩, s)
  | .ask (.pause milliseconds) resume, s =>
    if milliseconds = 0 then advance index (resume ()) s
    else (waiting (s.session.clock + milliseconds) (resume ()), s)
  | .ask move resume, s =>
    let (answer, s) := (Scene.perform index move).run s
    advance index (resume answer) s

def due? : Task → Option Nat
  | waiting due _ => some due
  | ended _ => none

def ending? : Task → Option Ending
  | waiting _ _ => none
  | ended ending => some ending

end Task

namespace Task

/-- `Less t' t` holds when `t'` is what a waiting task `t` comes to by going on. -/
inductive Less : Task → Task → Prop where
  | ended (ending : Ending) (due : Nat) (rest : Work Outcome) :
      Less (ended ending) (waiting due rest)
  | waiting (due due' : Nat) (rest rest' : Work Outcome) :
      Dialogue.Left rest' rest → Less (waiting due' rest') (waiting due rest)

theorem Less.accessible (t : Task) : Acc Less t := by
  cases t with
  | ended ending => exact ⟨_, fun _ h => nomatch h⟩
  | waiting due rest =>
    induction Dialogue.Left.accessible rest generalizing due with
    | intro rest _ ih =>
      refine ⟨_, fun t h => ?_⟩
      cases h with
      | ended ending => exact ⟨_, fun _ h => nomatch h⟩
      | waiting _ due' _ rest' h => exact ih rest' h due'

theorem advance_less (index : Nat) (work : Work Outcome) (s : Scene) (due : Nat) :
    Less (advance index work s).1 (waiting due work) := by
  suffices h : ∀ t, t = (advance index work s).1 →
      (∃ e, t = ended e) ∨ ∃ due' rest, t = waiting due' rest ∧ Dialogue.Left rest work by
    rcases h _ rfl with ⟨e, h⟩ | ⟨due', rest, h, left⟩
    · exact h ▸ .ended e due work
    · exact h ▸ .waiting due due' work rest left
  rintro t rfl
  fun_induction advance index work s with
  | case1 => exact Or.inl ⟨_, rfl⟩
  | case2 resume s ih =>
    rcases ih with ⟨e, h⟩ | ⟨due', rest, h, left⟩
    · exact Or.inl ⟨e, h⟩
    · exact Or.inr ⟨due', rest, h, .more _ _ _ _ left⟩
  | case3 milliseconds resume s _ =>
    exact Or.inr ⟨_, _, rfl, .one (Move.pause milliseconds) resume ()⟩
  | case4 move resume s _ answer s' h ih =>
    rcases ih with ⟨e, h⟩ | ⟨due', rest, h, left⟩
    · exact Or.inl ⟨e, h⟩
    · exact Or.inr ⟨due', rest, h, .more _ _ _ _ left⟩

end Task

abbrev Tasks := List (Nat × Task)

namespace Tasks

def start : List (Nat × Work Outcome) → Scene → Tasks × Scene
  | [], s => ([], s)
  | (index, work) :: rest, s =>
    let (task, s) := Task.advance index work s
    let (tasks, s) := start rest s
    ((index, task) :: tasks, s)

def nextDue (tasks : Tasks) : Option Nat := (tasks.filterMap (·.2.due?)).min?

/-- Carries on the first task that is due at this time. -/
def wake (due : Nat) : Tasks → Scene → Option (Tasks × Scene)
  | [], _ => none
  | (index, .waiting time rest) :: tasks, s =>
    if time = due then
      let (task, s) := Task.advance index rest { s with session.clock := due }
      some ((index, task) :: tasks, s)
    else (wake due tasks s).map fun (tasks, s) => ((index, .waiting time rest) :: tasks, s)
  | (index, .ended ending) :: tasks, s =>
    (wake due tasks s).map fun (tasks, s) => ((index, .ended ending) :: tasks, s)

inductive Less : Tasks → Tasks → Prop where
  | head (index : Nat) (t t' : Task) (tasks : Tasks) :
      Task.Less t' t → Less ((index, t') :: tasks) ((index, t) :: tasks)
  | tail (head : Nat × Task) (tasks tasks' : Tasks) :
      Less tasks' tasks → Less (head :: tasks') (head :: tasks)

theorem Less.accessible (tasks : Tasks) : Acc Less tasks := by
  induction tasks with
  | nil => exact ⟨_, fun _ h => nomatch h⟩
  | cons head tasks ih =>
    obtain ⟨index, t⟩ := head
    induction Task.Less.accessible t generalizing tasks with
    | intro t _ iht =>
      induction ih with
      | intro tasks h ihs =>
        refine ⟨_, fun tasks' less => ?_⟩
        cases less with
        | head _ _ t' _ less => exact iht t' less _ ⟨_, h⟩
        | tail _ _ tasks' less => exact ihs tasks' less

instance : WellFoundedRelation Tasks := ⟨Less, ⟨Less.accessible⟩⟩

theorem wake_less {due : Nat} {tasks tasks' : Tasks} {s s' : Scene}
    (h : wake due tasks s = some (tasks', s')) : Less tasks' tasks := by
  induction tasks generalizing tasks' with
  | nil => simp [wake] at h
  | cons head tasks ih =>
    obtain ⟨index, t⟩ := head
    have tail {u : Tasks × Scene} (hu : wake due tasks s = some u)
        (e : ((index, t) :: u.1, u.2) = (tasks', s')) : Less tasks' ((index, t) :: tasks) := by
      cases e
      exact .tail _ _ _ (ih hu)
    cases t with
    | ended ending =>
      obtain ⟨u, hu, e⟩ := Option.map_eq_some_iff.1 h
      exact tail hu e
    | waiting time rest =>
      simp only [wake] at h
      split at h
      · cases h
        exact .head _ _ _ _ (Task.advance_less _ _ _ _)
      · obtain ⟨u, hu, e⟩ := Option.map_eq_some_iff.1 h
        exact tail hu e

def finish (tasks : Tasks) (s : Scene) : Tasks × Scene :=
  match nextDue tasks with
  | none => (tasks, s)
  | some due =>
    match _h : wake due tasks s with
    | none => (tasks, s)
    | some (tasks', s') => finish tasks' s'
termination_by tasks
decreasing_by exact wake_less (by assumption)

end Tasks

/-- Does all the work side by side; gives how each of it ended. -/
def Scene.burst (works : List (Nat × Work Outcome)) : StateM Scene (List Ending) := fun s =>
  let (tasks, s) := Tasks.start works s
  let (tasks, s) := Tasks.finish tasks s
  (tasks.filterMap (·.2.ending?), s)

end SnippetExpansion
