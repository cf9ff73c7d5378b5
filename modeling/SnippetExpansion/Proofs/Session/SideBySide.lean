import SnippetExpansion.Session.Burst
import SnippetExpansion.Proofs.Session.Course
import Mathlib.Data.List.Forall2

/-! # Work done side by side
Work that is carried on in the order of its pauses goes one of the ways in which it may go: no pause ends
late there, and all of it comes to its end. -/
namespace SnippetExpansion

/-- Whether it may become that late with the next move not made. Only what the outside is asked for takes
time that nobody knows beforehand. -/
def Strand.Lets (strand : Strand) (time : Nat) : Prop :=
  match strand.rest with
  | .done _ | .ask (.outside _) _ => True
  | .ask _ _ => time ≤ strand.due

theorem Strand.lets_of_le {strand : Strand} {time : Nat} (h : time ≤ strand.due) :
    strand.Lets time := by
  rw [Strand.Lets]
  split
  · trivial
  · trivial
  · exact h

namespace Interplay

/-- No pause ends late. -/
def Punctual (t : Interplay) (time : Nat) : Prop := ∀ strand ∈ t.strands, strand.Lets time

variable {mayPass : Interplay → Nat → Prop} {first : Interplay} {log : List Turn}

theorem Step.go_between {s s' : Session} {surface due due' : Nat} {m : Move}
    {resume : m.Answer → Work Outcome} {answer : m.Answer} {front back : List Strand}
    (hdue : due ≤ s.clock) (hgoes : s.Goes surface m answer due' s') :
    Step ⟨s, front ++ ⟨surface, due, .ask m resume⟩ :: back⟩ ⟨front.length, s.clock, m, answer⟩
      ⟨s', front ++ ⟨surface, due', resume answer⟩ :: back⟩ := by
  have hstrand : (front ++ (⟨surface, due, .ask m resume⟩ : Strand) :: back)[front.length]? =
      some ⟨surface, due, .ask m resume⟩ := by simp
  have h := Step.go (t := ⟨s, _⟩) hstrand hdue hgoes
  simpa using h

end Interplay

theorem Scene.perform_moved (scene : Scene) (surface : Nat) {m : Move} (hpause : ∀ n, m ≠ .pause n) :
    scene.session.Goes surface m (perform surface m scene).1 scene.session.clock
      (perform surface m scene).2.session := by
  have h : scene.session.Goes surface m _ _ _ :=
    .move m (fun r => ((Surroundings.answer r).run scene.world).1) hpause
  cases m with
  | pause n => exact absurd rfl (hpause n)
  | _ => exact h

/-- A task at some time and the strand that is as far as it. -/
inductive Task.Agrees (now : Nat) : Nat × Task → Strand → Prop where
  | waiting {index due : Nat} {rest : Work Outcome} :
      now ≤ due → Agrees now (index, .waiting due rest) ⟨index, due, rest⟩
  | ended {index due : Nat} {ending : Ending} :
      Agrees now (index, .ended ending) ⟨index, due, .done ending.outcome⟩

namespace Task

open Interplay

variable {mayPass : Interplay → Nat → Prop} {first : Interplay} {log : List Turn}

theorem Agrees.le {now due : Nat} {task : Nat × Task} {strand : Strand} (h : Agrees now task strand)
    (hdue : task.2.due? = some due) : now ≤ due := by
  cases h with
  | waiting hle =>
    cases hdue
    exact hle
  | ended => cases hdue

theorem Agrees.lets {now : Nat} {task : Nat × Task} {strand : Strand} (h : Agrees now task strand) :
    strand.Lets now := by
  cases h with
  | waiting hdue => exact Strand.lets_of_le hdue
  | ended => trivial

theorem Agrees.until {now later : Nat} {task : Nat × Task} {strand : Strand}
    (h : Agrees now task strand) (hlater : ∀ due, task.2.due? = some due → later ≤ due) :
    Agrees later task strand := by
  cases h with
  | waiting => exact .waiting (hlater _ rfl)
  | ended => exact .ended

theorem advance_course (index : Nat) (work : Work Outcome) (scene : Scene) {due : Nat}
    {front back : List Strand} (hdue : due ≤ scene.session.clock)
    (h : Course mayPass first log ⟨scene.session, front ++ ⟨index, due, work⟩ :: back⟩) :
    ∃ log' strand,
      Course mayPass first log'
        ⟨(advance index work scene).2.session, front ++ strand :: back⟩ ∧
      Agrees scene.session.clock (index, (advance index work scene).1) strand ∧
      (advance index work scene).2.session.clock = scene.session.clock := by
  fun_induction advance index work scene generalizing log due with
  | case1 outcome scene => exact ⟨log, _, h, .ended, rfl⟩
  | case2 resume scene ih =>
    exact ih (Nat.le_refl _) (h.turn (Step.go_between hdue (.pause 0)))
  | case3 milliseconds resume scene _ =>
    exact ⟨_, _, h.turn (Step.go_between hdue (.pause milliseconds)), .waiting (by omega), rfl⟩
  | case4 move resume scene hpause answer scene' hperform ih =>
    have hmove : ∀ n, move ≠ .pause n := by
      rintro n rfl
      exact hpause n resume rfl HEq.rfl
    have hgoes := scene.perform_moved index hmove
    have hmoved : Scene.perform index move scene = (answer, scene') := hperform
    rw [hmoved] at hgoes
    obtain ⟨log', strand, hcourse, hagrees, hclock⟩ :=
      ih (Nat.le_of_eq hgoes.clock.symm) (h.turn (Step.go_between hdue hgoes))
    rw [hgoes.clock] at hagrees hclock
    exact ⟨log', strand, hcourse, hagrees, hclock⟩

end Task

namespace Tasks

open Interplay

variable {mayPass : Interplay → Nat → Prop} {first : Interplay} {log : List Turn}

theorem start_course (works : List (Nat × Work Outcome)) (scene : Scene) (front : List Strand)
    (h : Course mayPass first log ⟨scene.session, front ++ works.map fun (surface, work) =>
      ⟨surface, scene.session.clock, work⟩⟩) :
    ∃ log' back,
      Course mayPass first log' ⟨(start works scene).2.session, front ++ back⟩ ∧
      List.Forall₂ (Task.Agrees scene.session.clock) (start works scene).1 back ∧
      (start works scene).2.session.clock = scene.session.clock := by
  induction works generalizing scene front log with
  | nil => exact ⟨log, [], h, .nil, rfl⟩
  | cons head works ih =>
    obtain ⟨index, work⟩ := head
    obtain ⟨log₁, strand, hcourse, hagrees, hclock⟩ :=
      Task.advance_course index work scene (Nat.le_refl _) h
    rw [List.append_cons, ← hclock] at hcourse
    obtain ⟨log₂, back, hcourse, hall, hclock'⟩ := ih _ _ hcourse
    rw [List.append_assoc] at hcourse
    rw [hclock] at hall hclock'
    exact ⟨log₂, strand :: back, hcourse, .cons hagrees hall, hclock'⟩

theorem wake_course {due : Nat} {tasks tasks' : Tasks} {scene scene' : Scene}
    {back : List Strand} (front : List Strand) (hwake : wake due tasks scene = some (tasks', scene'))
    (hall : List.Forall₂ (Task.Agrees due) tasks back)
    (h : Course mayPass first log ⟨{ scene.session with clock := due }, front ++ back⟩) :
    ∃ log' back',
      Course mayPass first log' ⟨scene'.session, front ++ back'⟩ ∧
      List.Forall₂ (Task.Agrees due) tasks' back' ∧ scene'.session.clock = due := by
  induction hall generalizing front tasks' with
  | nil => simp [wake] at hwake
  | @cons task strand tasks back hagrees hall ih =>
    have tail {u : Tasks × Scene} (hu : wake due tasks scene = some u)
        (heq : (task :: u.1, u.2) = (tasks', scene')) : ∃ log' back',
        Course mayPass first log' ⟨scene'.session, front ++ back'⟩ ∧
        List.Forall₂ (Task.Agrees due) tasks' back' ∧ scene'.session.clock = due := by
      cases heq
      rw [List.append_cons] at h
      obtain ⟨log', back', hcourse, hall', hclock⟩ := ih _ hu h
      rw [List.append_assoc] at hcourse
      exact ⟨log', strand :: back', hcourse, .cons hagrees hall', hclock⟩
    cases hagrees with
    | ended =>
      obtain ⟨u, hu, heq⟩ := Option.map_eq_some_iff.1 hwake
      exact tail hu heq
    | @waiting index time rest htime =>
      rw [wake] at hwake
      split at hwake
      · cases hwake
        next htime =>
        obtain ⟨log', strand, hcourse, hagrees, hclock⟩ :=
          Task.advance_course index rest { scene with session.clock := due } (Nat.le_of_eq htime) h
        exact ⟨log', strand :: back, hcourse, .cons hagrees hall, hclock⟩
      · obtain ⟨u, hu, heq⟩ := Option.map_eq_some_iff.1 hwake
        exact tail hu heq

theorem wake_isSome {due : Nat} {tasks : Tasks} (scene : Scene)
    (h : due ∈ tasks.filterMap (·.2.due?)) : (wake due tasks scene).isSome := by
  induction tasks with
  | nil => simp at h
  | cons task tasks ih =>
    obtain ⟨index, task⟩ := task
    cases task with
    | ended ending =>
      have hrest : due ∈ tasks.filterMap (·.2.due?) := by simpa [Task.due?] using h
      rw [wake, Option.isSome_map]
      exact ih hrest
    | waiting time rest =>
      rw [wake]
      split
      · rfl
      · next hne =>
        have hrest : due ∈ tasks.filterMap (·.2.due?) := by
          simpa [Task.due?, Ne.symm hne] using h
        rw [Option.isSome_map]
        exact ih hrest

theorem agrees_nextDue {now due : Nat} {tasks : Tasks} {back : List Strand}
    (hall : List.Forall₂ (Task.Agrees now) tasks back) (hdue : nextDue tasks = some due) :
    now ≤ due ∧ List.Forall₂ (Task.Agrees due) tasks back := by
  obtain ⟨hmem, hleast⟩ := List.min?_eq_some_iff.1 hdue
  constructor
  · clear hdue hleast
    induction hall with
    | nil => simp at hmem
    | @cons task strand tasks back hagrees hall ih =>
      rw [List.filterMap_cons] at hmem
      split at hmem
      · exact ih hmem
      · next hhead =>
        rcases List.mem_cons.1 hmem with rfl | hrest
        · exact hagrees.le hhead
        · exact ih hrest
  · have hlater : ∀ task ∈ tasks, ∀ later, task.2.due? = some later → due ≤ later :=
      fun task htask later hlater => hleast later (List.mem_filterMap.2 ⟨task, htask, hlater⟩)
    exact ((List.forall₂_and_left _ _).2 ⟨hlater, hall⟩).imp fun _ _ h => h.2.until h.1

theorem punctual_of_agrees {s : Session} {due : Nat} {tasks : Tasks} {back : List Strand}
    (hall : List.Forall₂ (Task.Agrees due) tasks back) : Punctual ⟨s, back⟩ due := by
  intro strand hstrand
  induction hall with
  | nil => simp at hstrand
  | cons hagrees hall ih =>
    rcases List.mem_cons.1 hstrand with rfl | hrest
    · exact hagrees.lets
    · exact ih hrest

theorem rests_of_ended {now : Nat} {tasks : Tasks} {back : List Strand}
    (hall : List.Forall₂ (Task.Agrees now) tasks back) (hnone : nextDue tasks = none) :
    back.map (·.rest) = (tasks.filterMap (·.2.ending?)).map fun ending => .done ending.outcome := by
  rw [nextDue, List.min?_eq_none_iff] at hnone
  induction hall with
  | nil => rfl
  | cons hagrees hall ih =>
    cases hagrees with
    | waiting => simp [Task.due?] at hnone
    | ended =>
      have hrest := ih (by simpa [Task.due?] using hnone)
      simpa [Task.ending?] using hrest

theorem finish_course (tasks : Tasks) (scene : Scene) {back : List Strand}
    (hall : List.Forall₂ (Task.Agrees scene.session.clock) tasks back)
    (h : Course Punctual first log ⟨scene.session, back⟩) :
    ∃ log' back', Course Punctual first log' ⟨(finish tasks scene).2.session, back'⟩ ∧
      back'.map (·.rest) = ((finish tasks scene).1.filterMap (·.2.ending?)).map
        fun ending => .done ending.outcome := by
  fun_induction finish tasks scene generalizing log back with
  | case1 tasks scene hnone => exact ⟨log, back, h, rests_of_ended hall hnone⟩
  | case2 tasks scene due hdue hwake =>
    have hsome := wake_isSome scene (List.min?_mem hdue)
    rw [hwake] at hsome
    cases hsome
  | case3 tasks scene due hdue tasks' scene' hwake ih =>
    obtain ⟨hle, hall⟩ := agrees_nextDue hall hdue
    have hpass := h.pass due hle (punctual_of_agrees hall)
    obtain ⟨log', back', hcourse, hagrees, hclock⟩ := wake_course [] hwake hall hpass
    rw [← hclock] at hagrees
    exact ih hagrees hcourse

def finishWithin : Nat → Tasks → Scene → Option (Tasks × Scene)
  | 0, _, _ => none
  | n + 1, tasks, scene =>
    match nextDue tasks with
    | none => some (tasks, scene)
    | some due => (wake due tasks scene).bind fun (tasks, scene) => finishWithin n tasks scene

theorem finish_of_within {n : Nat} {tasks : Tasks} {scene : Scene} {result : Tasks × Scene}
    (h : finishWithin n tasks scene = some result) : finish tasks scene = result := by
  induction n generalizing tasks scene with
  | zero => cases h
  | succ n ih =>
    rw [finishWithin] at h
    rw [finish]
    split
    · next hnone =>
      rw [hnone] at h
      exact Option.some.inj h
    · next due hdue =>
      rw [hdue] at h
      obtain ⟨next, hwake, hrest⟩ := Option.bind_eq_some_iff.1 h
      split
      · next hstuck =>
        rw [hstuck] at hwake
        cases hwake
      · next hgoes =>
        rw [hgoes] at hwake
        cases hwake
        exact ih hrest

end Tasks

namespace Scene

open Interplay

/-- Side by side work goes one of the punctual ways, to the end of all of it. -/
theorem burst_course (works : List (Nat × Work Outcome)) (scene : Scene) :
    ∃ log t, Course Punctual (Interplay.start scene.session works) log t ∧
      t.session = (burst works scene).2.session ∧
      t.strands.map (·.rest) = (burst works scene).1.map fun ending => .done ending.outcome := by
  have hfirst : Course Punctual (Interplay.start scene.session works) [] _ := .start
  obtain ⟨log₁, back₁, hcourse₁, hall, hclock⟩ := Tasks.start_course works scene [] hfirst
  rw [← hclock] at hall
  obtain ⟨log₂, back₂, hcourse₂, hrests⟩ := Tasks.finish_course _ _ hall hcourse₁
  exact ⟨log₂, _, hcourse₂, rfl, hrests⟩

def outcomesWithin (n : Nat) (actions : List Planned) (scene : Scene) : Option (List Outcome) :=
  let (tasks, later) := Tasks.start (works scene.session actions) scene
  (Tasks.finishWithin n tasks later).map fun (tasks, _) =>
    (tasks.filterMap (·.2.ending?)).map (·.outcome)

theorem actions_course {n : Nat} {actions : List Planned} {scene : Scene} {outcomes : List Outcome}
    (h : outcomesWithin n actions scene = some outcomes) :
    ∃ log t, Course Punctual (ofActions scene.session actions) log t ∧
      ∀ who outcome, outcomes[who]? = some outcome → t.Ended who outcome := by
  obtain ⟨log, t, hcourse, -, hrests⟩ := burst_course (works scene.session actions) scene
  refine ⟨log, t, hcourse, fun who outcome hwho => ?_⟩
  obtain ⟨result, hfinish, rfl⟩ := Option.map_eq_some_iff.1 h
  have hendings : (burst (works scene.session actions) scene).1 =
      result.1.filterMap (·.2.ending?) := by
    rw [← Tasks.finish_of_within hfinish]
    rfl
  have hrest : (t.strands.map (·.rest))[who]? = some (.done outcome) := by
    rw [hrests, hendings]
    rw [List.getElem?_map, Option.map_eq_some_iff] at hwho
    obtain ⟨ending, hending, rfl⟩ := hwho
    rw [List.getElem?_map, hending, Option.map_some]
  rw [List.getElem?_map, Option.map_eq_some_iff] at hrest
  exact hrest

/-- So many fields into each of which `/x` was typed; nothing is known outside. -/
def fields (count : Nat) : Scene :=
  ⟨.start .standard .empty (List.replicate count (.fresh (.plain (.typed "/x".toList)) false)),
    ⟨default, .ok [], [], fun _ _ _ => .ok [], []⟩⟩

end Scene
end SnippetExpansion
