import SnippetExpansion.Session.Detection
import SnippetExpansion.Session.Basic
import SnippetExpansion.Store.Following
import SnippetExpansion.Proofs.Protocol
import Mathlib.Data.List.Basic
import Mathlib.Data.List.Induction

/-! # Work in any order
Work on several surfaces shares one session. Between any two moves of one piece of work others may move, a
pause may end later than it could, the session's snapshot may follow a store, and what answers from outside
is open. Each move is made at one stroke. -/
namespace SnippetExpansion

namespace Session

def moved (s : Session) (outside : (r : Request) → r.Answer) (surface : Nat) (m : Move) :
    m.Answer × Session :=
  (perform outside surface m : StateM Session m.Answer).run s

/-- A move with its answer, the time from which the work can go on, and the session after it. A pause
leaves the clock alone, as the time goes on for all. -/
inductive Goes (s : Session) (surface : Nat) : (m : Move) → m.Answer → Nat → Session → Prop where
  | pause (milliseconds : Nat) :
      Goes s surface (.pause milliseconds) () (s.clock + milliseconds) s
  | move (m : Move) (outside : (r : Request) → r.Answer) : (∀ n, m ≠ .pause n) →
      Goes s surface m (s.moved outside surface m).1 s.clock (s.moved outside surface m).2

end Session

/-- What is left of a piece of work. It does not go on before it is due. -/
structure Strand where
  surface : Nat
  due : Nat
  rest : Work Outcome

structure Interplay where
  session : Session
  strands : List Strand

structure Turn where
  who : Nat
  time : Nat
  move : Move
  answer : move.Answer

namespace Interplay

def start (s : Session) (works : List (Nat × Work Outcome)) : Interplay :=
  ⟨s, works.map fun (surface, work) => ⟨surface, s.clock, work⟩⟩

def atTime (t : Interplay) (time : Nat) : Interplay := { t with session.clock := time }

def withSnapshot (t : Interplay) (snapshot : Snapshot) : Interplay :=
  { t with session.snapshot := snapshot }

inductive Step (t : Interplay) : Turn → Interplay → Prop where
  | go {who surface due due' : Nat} {m : Move} {resume : m.Answer → Work Outcome}
      {answer : m.Answer} {s' : Session} :
      t.strands[who]? = some ⟨surface, due, .ask m resume⟩ → due ≤ t.session.clock →
      t.session.Goes surface m answer due' s' →
      Step t ⟨who, t.session.clock, m, answer⟩
        ⟨s', t.strands.set who ⟨surface, due', resume answer⟩⟩

/-- By these turns it has come so far. The time may pass where `mayPass` allows it, and at any moment
the session's snapshot may take the next notice of whatever a store has sent. -/
inductive Course (mayPass : Interplay → Nat → Prop) (first : Interplay) :
    List Turn → Interplay → Prop where
  | start : Course mayPass first [] first
  | turn {log : List Turn} {t t' : Interplay} {turn : Turn} :
      Course mayPass first log t → t.Step turn t' → Course mayPass first (log ++ [turn]) t'
  | pass {log : List Turn} {t : Interplay} (time : Nat) :
      Course mayPass first log t → t.session.clock ≤ time → mayPass t time →
      Course mayPass first log (t.atTime time)
  | follow {log : List Turn} {t : Interplay} {store : Store} {listener : Listener} {f : Follower} :
      Course mayPass first log t →
      Follower.step? store ⟨t.session.snapshot, listener⟩ = some f →
      Course mayPass first log (t.withSnapshot f.snapshot)

structure Planned where
  surface : Nat
  after : Nat
  action : Action
  deriving Repr, DecidableEq

def works (s : Session) (actions : List Planned) : List (Nat × Work Outcome) :=
  actions.map fun a => (a.surface, a.action.work s.settings a.after)

def ofActions (s : Session) (actions : List Planned) : Interplay := start s (works s actions)

def Ended (t : Interplay) (who : Nat) (outcome : Outcome) : Prop :=
  ∃ strand, t.strands[who]? = some strand ∧ strand.rest = .done outcome

end Interplay

namespace Session.Goes

variable {s s' : Session} {surface due : Nat} {m : Move} {answer : m.Answer}

theorem clock (h : s.Goes surface m answer due s') : s'.clock = s.clock := by
  cases h with
  | pause => rfl
  | move _ outside hpause =>
    cases m with
    | pause n => exact absurd rfl (hpause n)
    | _ => rfl

theorem edits (h : s.Goes surface m answer due s') :
    s'.edits = if m = .registerEdit then s.edits + 1 else s.edits := by
  cases h with
  | pause => rfl
  | move _ outside hpause => cases m <;> rfl

theorem replacing (h : s.Goes surface m answer due s') (hbegin : m ≠ .begin)
    (hfinish : m ≠ .finish) : s'.replacing = s.replacing := by
  cases h with
  | pause => rfl
  | move _ outside hpause =>
    cases m with
    | begin => exact absurd rfl hbegin
    | finish => exact absurd rfl hfinish
    | _ => rfl

theorem begin {granted : Move.Answer .begin} (h : s.Goes surface .begin granted due s') :
    granted = !s.replacing ∧ s'.replacing = true := by
  cases h
  exact ⟨rfl, rfl⟩

theorem finish {u : Move.Answer .finish} (h : s.Goes surface .finish u due s') :
    s'.replacing = false := by
  cases h
  rfl

theorem registerEdit {number : Move.Answer .registerEdit}
    (h : s.Goes surface .registerEdit number due s') : number = s.edits + 1 := by
  cases h
  rfl

theorem latestEdit {number : Move.Answer .latestEdit}
    (h : s.Goes surface .latestEdit number due s') : number = s.edits := by
  cases h
  rfl

theorem due_of_pause {n : Nat} {u : Move.Answer (.pause n)}
    (h : s.Goes surface (.pause n) u due s') : due = s.clock + n := by
  cases h with
  | pause => rfl
  | move _ outside hpause => exact absurd rfl (hpause n)

theorem due_eq (h : s.Goes surface m answer due s') (hpause : ∀ n, m ≠ .pause n) :
    due = s.clock := by
  cases h with
  | pause n => exact absurd rfl (hpause n)
  | move => rfl

theorem site {i : Nat} (h : s.Goes surface m answer due s')
    (hi : i ≠ surface ∨ ∀ c, m ≠ .call c) : s'.site i = s.site i := by
  cases h with
  | pause => rfl
  | move _ outside hpause =>
    cases m with
    | call c =>
      have hne : surface ≠ i := hi.elim Ne.symm fun h => absurd rfl (h c)
      change (s.sites.modify surface _)[i]?.getD _ = _
      rw [List.getElem?_modify_ne _ _ hne]
      rfl
    | _ => rfl

end Session.Goes

namespace Protocol

variable {S : Type} (p : Protocol Move Move.Answer S)

def lead (who : Nat) (stage : S) (turn : Turn) : S :=
  if turn.who = who then p.next stage turn.move turn.answer else stage

def stage (who : Nat) (first : S) (log : List Turn) : S := log.foldl (p.lead who) first

variable {p} {who : Nat} {first : S}

theorem stage_append (log more : List Turn) :
    p.stage who first (log ++ more) = p.stage who (p.stage who first log) more :=
  List.foldl_append

theorem stage_self (log : List Turn) (turn : Turn) (h : turn.who = who) :
    p.stage who first (log ++ [turn]) =
      p.next (p.stage who first log) turn.move turn.answer := by
  rw [stage_append]
  exact if_pos h

theorem stage_other (log : List Turn) (turn : Turn) (h : turn.who ≠ who) :
    p.stage who first (log ++ [turn]) = p.stage who first log := by
  rw [stage_append]
  exact if_neg h

theorem stage_of_absent {log : List Turn} (h : ∀ turn ∈ log, turn.who ≠ who) :
    p.stage who first log = first := by
  induction log using List.reverseRecOn with
  | nil => rfl
  | append_singleton log turn ih =>
    rw [stage_other log turn (h turn (by simp))]
    exact ih fun turn hturn => h turn (List.mem_append_left _ hturn)

end Protocol

namespace Interplay

variable {mayPass : Interplay → Nat → Prop} {first t : Interplay} {log : List Turn}

theorem ofActions_strand {s : Session} {actions : List Planned} {who : Nat} {strand : Strand} :
    (ofActions s actions).strands[who]? = some strand ↔
      ∃ a, actions[who]? = some a ∧
        ⟨a.surface, s.clock, a.action.work s.settings a.after⟩ = strand := by
  simp [ofActions, start, works]

theorem Course.before_turn {before after : List Turn} {turn : Turn}
    (h : Course mayPass first (before ++ turn :: after) t) :
    ∃ u u', Course mayPass first before u ∧ u.Step turn u' ∧
      Course mayPass first (before ++ [turn]) u' := by
  generalize hlog : before ++ turn :: after = log at h
  induction h generalizing after with
  | start => simp at hlog
  | @turn log t t' last hcourse hstep ih =>
    rcases List.eq_nil_or_concat after with rfl | ⟨init, final, rfl⟩
    · obtain ⟨rfl, rfl⟩ := List.append_singleton_inj.1 hlog
      exact ⟨t, t', hcourse, hstep, .turn hcourse hstep⟩
    · rw [List.concat_eq_append, ← List.cons_append, ← List.append_assoc] at hlog
      exact ih (List.append_singleton_inj.1 hlog).1
  | pass time hcourse _ _ ih => exact ih hlog
  | follow _ _ ih => exact ih hlog

theorem Course.prefixed {before after : List Turn}
    (h : Course mayPass first (before ++ after) t) : ∃ u, Course mayPass first before u := by
  cases after with
  | nil =>
    rw [List.append_nil] at h
    exact ⟨t, h⟩
  | cons turn after =>
    obtain ⟨u, -, hcourse, -, -⟩ := h.before_turn
    exact ⟨u, hcourse⟩

theorem Step.goes {turn : Turn} {t' : Interplay} (h : t.Step turn t') :
    ∃ surface due, t.session.Goes surface turn.move turn.answer due t'.session := by
  cases h with
  | go _ _ hgoes => exact ⟨_, _, hgoes⟩

/-- What a turn makes of the strands: one has made its next move, the others are as they were. -/
theorem Step.strand {turn : Turn} {t' : Interplay} {who : Nat} {strand : Strand}
    (h : t.Step turn t') (hstrand : t'.strands[who]? = some strand) :
    (turn.who = who ∧ ∃ due resume,
      t.strands[who]? = some ⟨strand.surface, due, .ask turn.move resume⟩ ∧
      due ≤ t.session.clock ∧
      t.session.Goes strand.surface turn.move turn.answer strand.due t'.session ∧
      strand.rest = resume turn.answer) ∨
    (turn.who ≠ who ∧ t.strands[who]? = some strand) := by
  cases h with
  | @go mover surface due due' m resume answer s' hmover hdue hgoes =>
    by_cases hwho : mover = who
    · subst hwho
      have hlt : mover < t.strands.length := (List.getElem?_eq_some_iff.1 hmover).1
      rw [List.getElem?_set_self hlt] at hstrand
      obtain rfl := Option.some.inj hstrand
      exact .inl ⟨rfl, due, resume, hmover, hdue, hgoes, rfl⟩
    · rw [List.getElem?_set_ne hwho] at hstrand
      exact .inr ⟨hwho, hstrand⟩

theorem Course.surface (h : Course mayPass first log t) {who : Nat} {strand : Strand}
    (hstrand : t.strands[who]? = some strand) :
    ∃ strand', first.strands[who]? = some strand' ∧ strand'.surface = strand.surface := by
  induction h generalizing strand with
  | start => exact ⟨strand, hstrand, rfl⟩
  | turn _ hstep ih =>
    rcases hstep.strand hstrand with ⟨-, due, resume, hbefore, -⟩ | ⟨-, hbefore⟩
    · obtain ⟨strand', hfirst, hsame⟩ := ih hbefore
      exact ⟨strand', hfirst, hsame⟩
    · exact ih hbefore
  | pass time _ _ _ ih => exact ih hstrand
  | follow _ _ ih => exact ih hstrand

theorem Course.strands_length (h : Course mayPass first log t) :
    t.strands.length = first.strands.length := by
  induction h with
  | start => rfl
  | turn _ hstep ih =>
    cases hstep with
    | go => rw [List.length_set, ih]
  | pass _ _ _ _ ih => exact ih
  | follow _ _ ih => exact ih

theorem Course.has_strand {s : Session} {actions : List Planned}
    (h : Course mayPass (ofActions s actions) log t) {who : Nat} {a : Planned}
    (ha : actions[who]? = some a) : ∃ strand, t.strands[who]? = some strand := by
  have hlt : who < t.strands.length := by
    rw [h.strands_length]
    simpa [ofActions, Interplay.start, works] using (List.getElem?_eq_some_iff.1 ha).1
  exact ⟨_, List.getElem?_eq_getElem hlt⟩

theorem Course.of_turn {s : Session} {actions : List Planned}
    (h : Course mayPass (ofActions s actions) log t) {turn : Turn} (hturn : turn ∈ log) :
    ∃ a, actions[turn.who]? = some a := by
  obtain ⟨before, after, rfl⟩ := List.append_of_mem hturn
  obtain ⟨u, u', hcourse, hstep, -⟩ := h.before_turn
  cases hstep with
  | go hstrand hdue hgoes =>
    obtain ⟨strand, hfirst, -⟩ := hcourse.surface hstrand
    obtain ⟨a, ha, -⟩ := ofActions_strand.1 hfirst
    exact ⟨a, ha⟩

section Keeps

variable {S : Type} {p : Protocol Move Move.Answer S} {post : S → Outcome → Prop}
  {initial : Nat → S}

/-- Each strand keeps to a protocol that it keeps to at first, whatever the others do. -/
theorem Course.keeps
    (hfirst : ∀ (who : Nat) (strand : Strand), first.strands[who]? = some strand →
      strand.rest.Keeps p post (initial who))
    (h : Course mayPass first log t) {who : Nat} {strand : Strand}
    (hstrand : t.strands[who]? = some strand) :
    strand.rest.Keeps p post (p.stage who (initial who) log) := by
  induction h generalizing strand with
  | start => exact hfirst who strand hstrand
  | turn _ hstep ih =>
    rcases hstep.strand hstrand with ⟨hwho, due, resume, hbefore, -, -, hrest⟩ | ⟨hwho, hbefore⟩
    · rw [Protocol.stage_self _ _ hwho, hrest]
      exact (ih hbefore).2 _
    · rw [Protocol.stage_other _ _ hwho]
      exact ih hbefore
  | pass time _ _ _ ih => exact ih hstrand
  | follow _ _ ih => exact ih hstrand

theorem Course.allowed
    (hfirst : ∀ (who : Nat) (strand : Strand), first.strands[who]? = some strand →
      strand.rest.Keeps p post (initial who)) {before after : List Turn} {turn : Turn}
    (h : Course mayPass first (before ++ turn :: after) t) :
    p.Allows (p.stage turn.who (initial turn.who) before) turn.move := by
  obtain ⟨u, u', hcourse, hstep, -⟩ := h.before_turn
  cases hstep with
  | go hstrand hdue hgoes => exact (hcourse.keeps hfirst hstrand).1

end Keeps
end Interplay
end SnippetExpansion
