import SnippetExpansion.Proofs.Session.SideBySide
import SnippetExpansion.Proofs.Session.Asking

/-! # One replacement at a time
However actions get in each other's way, whoever is granted the mark has it alone until it is done. All that
is done to surfaces is done meanwhile, so whoever is not granted it leaves its surface as it was. -/
namespace SnippetExpansion

/-- How far an action has come with the replacement that it may lead to. -/
inductive Flight where
  | ahead
  | running
  | landed
  deriving DecidableEq

namespace Flight

def Allows : Flight → Move → Prop
  | ahead, m => m ≠ .finish ∧ ∀ c, m ≠ .call c
  | running, m => m ≠ .begin
  | landed, m => m ≠ .begin ∧ m ≠ .finish ∧ ∀ c, m ≠ .call c

/-- A replacement runs from the moment the mark is granted until it is given back. -/
def next : Flight → (m : Move) → m.Answer → Flight
  | ahead, .begin, granted => bif granted then running else ahead
  | running, .finish, _ => landed
  | flight, _, _ => flight

def protocol : Protocol Move Move.Answer Flight := ⟨Allows, next⟩

def of (log : List Turn) (who : Nat) : Flight := protocol.stage who ahead log

/-- Whoever has run has replaced something, and nobody else has. -/
def Ends {α : Type} (Replaces : α → Prop) : Flight → α → Prop
  | ahead, a => ¬Replaces a
  | running, _ => False
  | landed, a => Replaces a

end Flight

def Replacement.Replaces : Replacement → Prop
  | .replaced _ _ => True
  | .dropped => False

def Detection.Replaces : Detection → Prop
  | .replaced _ _ => True
  | _ => False

def Outcome.Replaces : Outcome → Prop
  | .edit detection => detection.Replaces
  | .replace replacement => replacement.Replaces

def Turn.IsCall (turn : Turn) : Prop := ∃ c, turn.move = .call c

namespace Flight

open Dialogue

theorem plain_stays (m : Move) (h : m.Plain) :
    protocol.Allows running m ∧ ∀ answer, protocol.next running m answer = running := by
  cases m with
  | registerEdit | latestEdit | busy | begin | finish => exact absurd h id
  | _ => exact ⟨nofun, fun _ => rfl⟩

theorem replace_keeps (maxDepth : Nat) (s : Snippet) :
    (Work.replace maxDepth s).Keeps protocol (Ends Replacement.Replaces) ahead := by
  rw [Work.replace_eq]
  refine keeps_request_bind.2 ⟨⟨nofun, nofun⟩, fun granted => ?_⟩
  cases granted with
  | false => exact id
  | true =>
    refine ((Work.putIn_asks maxDepth s).keeps plain_stays).bind fun flight (text, caret) h => ?_
    obtain ⟨rfl, -⟩ := h
    exact ⟨nofun, fun _ => trivial⟩

theorem detect_keeps (settings : Settings) :
    (Work.detect settings).Keeps protocol (Ends Detection.Replaces) ahead := by
  refine keeps_request_bind.2 ⟨⟨nofun, nofun⟩, fun current => ?_⟩
  refine keeps_request_bind.2 ⟨⟨nofun, nofun⟩, fun s => ?_⟩
  split
  · exact id
  · next snippet _ =>
    refine (replace_keeps settings.maxDepth snippet).bind fun flight replacement h => ?_
    cases replacement <;> cases flight <;> exact h

theorem onEdit_keeps (settings : Settings) :
    (Work.onEdit settings).Keeps protocol (Ends Detection.Replaces) ahead := by
  refine keeps_request_bind.2 ⟨⟨nofun, nofun⟩, fun number => ?_⟩
  refine keeps_request_bind.2 ⟨⟨nofun, nofun⟩, fun _ => ?_⟩
  refine keeps_request_bind.2 ⟨⟨nofun, nofun⟩, fun latest => ?_⟩
  split
  · exact id
  · refine keeps_request_bind.2 ⟨⟨nofun, nofun⟩, fun busy => ?_⟩
    cases busy with
    | true => exact id
    | false =>
      refine keeps_request_bind.2 ⟨⟨nofun, nofun⟩, fun editable => ?_⟩
      cases editable with
      | true => exact detect_keeps settings
      | false => exact id

theorem work_keeps (settings : Settings) (after : Nat) (action : Action) :
    (action.work settings after).Keeps protocol (Ends Outcome.Replaces) ahead := by
  refine keeps_request_bind.2 ⟨⟨nofun, nofun⟩, fun _ => ?_⟩
  cases action with
  | edit =>
    refine (onEdit_keeps settings).bind fun flight detection h => ?_
    cases flight <;> exact h
  | replace snippet =>
    refine (replace_keeps settings.maxDepth snippet).bind fun flight replacement h => ?_
    cases flight <;> exact h

theorem next_eq (flight : Flight) {m : Move} (answer : m.Answer) (hbegin : m ≠ .begin)
    (hfinish : m ≠ .finish) : flight.next m answer = flight := by
  cases m with
  | begin => exact absurd rfl hbegin
  | finish => exact absurd rfl hfinish
  | _ => cases flight <;> rfl

theorem of_self (log : List Turn) (turn : Turn) :
    of (log ++ [turn]) turn.who = (of log turn.who).next turn.move turn.answer :=
  Protocol.stage_self log turn rfl

theorem of_other (log : List Turn) (turn : Turn) {who : Nat} (h : turn.who ≠ who) :
    of (log ++ [turn]) who = of log who :=
  Protocol.stage_other log turn h

theorem of_unchanged (log : List Turn) (turn : Turn)
    (h : (of log turn.who).next turn.move turn.answer = of log turn.who) (who : Nat) :
    of (log ++ [turn]) who = of log who := by
  by_cases hwho : turn.who = who
  · rw [← hwho, of_self, h]
  · exact of_other log turn hwho

theorem of_append (log more : List Turn) (who : Nat) :
    of (log ++ more) who = protocol.stage who (of log who) more :=
  Protocol.stage_append log more

theorem stage_landed (who : Nat) (log : List Turn) : protocol.stage who landed log = landed := by
  induction log with
  | nil => rfl
  | cons turn log ih =>
    have hlead : protocol.lead who landed turn = landed := by
      rw [Protocol.lead]
      split <;> rfl
    change protocol.stage who (protocol.lead who landed turn) log = landed
    rw [hlead, ih]

theorem stage_running (who : Nat) (log : List Turn) :
    protocol.stage who running log = running ∨ protocol.stage who running log = landed := by
  induction log with
  | nil => exact .inl rfl
  | cons turn log ih =>
    have hlead : protocol.lead who running turn = running ∨
        protocol.lead who running turn = landed := by
      rw [Protocol.lead]
      split
      · obtain ⟨mover, time, m, answer⟩ := turn
        cases m with
        | finish => exact .inr rfl
        | _ => exact .inl rfl
      · exact .inl rfl
    change protocol.stage who (protocol.lead who running turn) log = running ∨
      protocol.stage who (protocol.lead who running turn) log = landed
    rcases hlead with h | h
    · rw [h]
      exact ih
    · rw [h]
      exact .inr (stage_landed who log)

theorem running_between {before between after : List Turn} {who : Nat}
    (hbefore : of before who = running) (hafter : of (before ++ between ++ after) who = running) :
    of (before ++ between) who = running := by
  rw [of_append, of_append, hbefore] at hafter
  rw [of_append, hbefore]
  rcases stage_running who between with h | h
  · exact h
  · rw [h, stage_landed] at hafter
    cases hafter

end Flight

namespace Interplay

variable {mayPass : Interplay → Nat → Prop} {s : Session} {actions : List Planned} {t : Interplay}
  {log : List Turn}

theorem ofActions_keeps (s : Session) (actions : List Planned) (who : Nat) (strand : Strand)
    (hstrand : (ofActions s actions).strands[who]? = some strand) :
    strand.rest.Keeps Flight.protocol (Flight.Ends Outcome.Replaces) .ahead := by
  obtain ⟨a, -, rfl⟩ := ofActions_strand.1 hstrand
  exact Flight.work_keeps s.settings a.after a.action

/-- Whether the mark is set for one action, the only one that runs, or is not set and none runs. -/
def Held (log : List Turn) (t : Interplay) (holder : Option Nat) : Prop :=
  t.session.replacing = holder.isSome ∧ ∀ who, Flight.of log who = .running ↔ holder = some who

theorem Held.alone {holder : Option Nat} (h : Held log t holder) {a b : Nat}
    (ha : Flight.of log a = .running) (hb : Flight.of log b = .running) : a = b :=
  Option.some.inj (((h.2 a).1 ha).symm.trans ((h.2 b).1 hb))

theorem Held.begin {holder : Option Nat} (h : Held log t holder) {who surface time due : Nat}
    {granted : Move.Answer .begin} {s' : Session} {strands : List Strand}
    (hgoes : t.session.Goes surface .begin granted due s')
    (hallowed : (Flight.of log who).Allows .begin) :
    ∃ holder', Held (log ++ [⟨who, time, .begin, granted⟩]) ⟨s', strands⟩ holder' := by
  obtain ⟨hmark, hruns⟩ := h
  obtain ⟨hgranted, hset⟩ := hgoes.begin
  have hahead : Flight.of log who = .ahead := by
    cases hflight : Flight.of log who with
    | ahead => rfl
    | running => exact absurd rfl (hflight ▸ hallowed)
    | landed => exact absurd rfl (hflight ▸ hallowed).1
  cases holder with
  | some holder =>
    -- The mark is set already, so it is not granted and nobody begins to run.
    rw [hmark] at hgranted
    have hsame : (Flight.of log who).next .begin granted = Flight.of log who := by
      rw [hahead, hgranted]
      rfl
    refine ⟨some holder, hset, fun other => ?_⟩
    rw [Flight.of_unchanged log ⟨who, time, .begin, granted⟩ hsame]
    exact hruns other
  | none =>
    rw [hmark] at hgranted
    refine ⟨some who, hset, fun other => ?_⟩
    by_cases hother : who = other
    · subst hother
      refine iff_of_true ?_ rfl
      rw [Flight.of_self log ⟨who, time, .begin, granted⟩, hahead, hgranted]
      rfl
    · rw [Flight.of_other log ⟨who, time, .begin, granted⟩ hother, hruns]
      exact iff_of_false nofun fun h => hother (Option.some.inj h)

theorem Held.finish {holder : Option Nat} (h : Held log t holder) {who surface time due : Nat}
    {u : Move.Answer .finish} {s' : Session} {strands : List Strand}
    (hgoes : t.session.Goes surface .finish u due s')
    (hallowed : (Flight.of log who).Allows .finish) :
    Held (log ++ [⟨who, time, .finish, u⟩]) ⟨s', strands⟩ none := by
  obtain ⟨hmark, hruns⟩ := h
  have hrunning : Flight.of log who = .running := by
    cases hflight : Flight.of log who with
    | ahead => exact absurd rfl (hflight ▸ hallowed).1
    | running => rfl
    | landed => exact absurd rfl (hflight ▸ hallowed).2.1
  refine ⟨hgoes.finish, fun other => iff_of_false ?_ nofun⟩
  by_cases hother : who = other
  · subst hother
    rw [Flight.of_self log ⟨who, time, .finish, u⟩, hrunning]
    exact nofun
  · rw [Flight.of_other log ⟨who, time, .finish, u⟩ hother, hruns, (hruns who).1 hrunning]
    exact fun h => hother (Option.some.inj h)

theorem Held.step {holder : Option Nat} (h : Held log t holder) {turn : Turn} {t' : Interplay}
    (hstep : t.Step turn t') (hallowed : (Flight.of log turn.who).Allows turn.move) :
    ∃ holder', Held (log ++ [turn]) t' holder' := by
  cases hstep with
  | @go who surface due due' m resume answer s' hstrand hdue hgoes =>
    by_cases hbegin : m = .begin
    · subst hbegin
      exact h.begin hgoes hallowed
    · by_cases hfinish : m = .finish
      · subst hfinish
        exact ⟨none, h.finish hgoes hallowed⟩
      · obtain ⟨hmark, hruns⟩ := h
        refine ⟨holder, (hgoes.replacing hbegin hfinish).trans hmark, fun other => ?_⟩
        rw [Flight.of_unchanged log _ (Flight.next_eq _ answer hbegin hfinish)]
        exact hruns other

theorem Course.held (hfree : s.replacing = false) (h : Course mayPass (ofActions s actions) log t) :
    ∃ holder, Held log t holder := by
  induction h with
  | start => exact ⟨none, hfree, fun who => ⟨nofun, nofun⟩⟩
  | turn hcourse hstep ih =>
    obtain ⟨holder, hheld⟩ := ih
    exact hheld.step hstep (Course.allowed (ofActions_keeps s actions) (hcourse.turn hstep))
  | pass time _ _ _ ih => exact ih
  | follow _ _ ih => exact ih

theorem Course.call_runs {before after : List Turn} {turn : Turn}
    (h : Course mayPass (ofActions s actions) (before ++ turn :: after) t) (hcall : turn.IsCall) :
    Flight.of before turn.who = .running := by
  have hallowed := h.allowed (ofActions_keeps s actions)
  obtain ⟨c, hcall⟩ := hcall
  rw [hcall] at hallowed
  cases hflight : Flight.of before turn.who with
  | ahead => exact absurd rfl ((hflight ▸ hallowed : Flight.Allows .ahead (.call c)).2 c)
  | running => rfl
  | landed => exact absurd rfl ((hflight ▸ hallowed : Flight.Allows .landed (.call c)).2.2 c)

theorem Course.running_lt (h : Course mayPass (ofActions s actions) log t) {who : Nat}
    (hrun : Flight.of log who = .running) : who < actions.length := by
  by_contra hge
  have hnone : ∀ turn ∈ log, turn.who ≠ who := by
    rintro turn hturn rfl
    obtain ⟨a, ha⟩ := h.of_turn hturn
    exact hge (List.getElem?_eq_some_iff.1 ha).1
  have hfirst : Flight.of log who = .ahead := Protocol.stage_of_absent hnone
  rw [hfirst] at hrun
  cases hrun

theorem exists_of_triple_sublist {x y z : Turn} (h : [x, y, z].Sublist log) :
    ∃ l₁ l₂ l₃ l₄, log = l₁ ++ x :: (l₂ ++ y :: (l₃ ++ z :: l₄)) := by
  obtain ⟨before, rest, rfl, hx, hrest⟩ := List.cons_sublist_iff.1 h
  obtain ⟨middle, last, rfl, hy, hlast⟩ := List.cons_sublist_iff.1 hrest
  obtain ⟨l₁, a, rfl⟩ := List.append_of_mem hx
  obtain ⟨b, c, rfl⟩ := List.append_of_mem hy
  obtain ⟨d, l₄, rfl⟩ := List.append_of_mem (List.singleton_sublist.1 hlast)
  exact ⟨l₁, a ++ b, c ++ d, l₄, by simp⟩

/-- Between two calls of one action nobody else makes one. -/
theorem Course.calls_apart (hfree : s.replacing = false)
    (h : Course mayPass (ofActions s actions) log t) {earlier between later : Turn}
    (hlog : [earlier, between, later].Sublist log) (hearlier : earlier.IsCall)
    (hbetween : between.IsCall) (hlater : later.IsCall) (hwho : earlier.who = later.who) :
    between.who = earlier.who := by
  obtain ⟨l₁, l₂, l₃, l₄, rfl⟩ := exists_of_triple_sublist hlog
  have hcourse₂ : Course mayPass (ofActions s actions)
      ((l₁ ++ earlier :: l₂) ++ between :: (l₃ ++ later :: l₄)) t := by simpa using h
  have hcourse₃ : Course mayPass (ofActions s actions)
      ((l₁ ++ earlier :: l₂ ++ between :: l₃) ++ later :: l₄) t := by simpa using h
  have hrun₁ := h.call_runs hearlier
  have hrun₂ := hcourse₂.call_runs hbetween
  have hrun₃ := hcourse₃.call_runs hlater
  rw [← hwho] at hrun₃
  -- The action of the first and the last call runs all the while, and nobody runs beside it.
  have hstill := Flight.running_between hrun₁ hrun₃
  obtain ⟨u, hprefix⟩ := hcourse₂.prefixed
  obtain ⟨holder, hheld⟩ := hprefix.held hfree
  exact hheld.alone hrun₂ hstill

theorem Course.ends (h : Course mayPass (ofActions s actions) log t) {who : Nat} {outcome : Outcome}
    (hended : t.Ended who outcome) :
    Flight.Ends Outcome.Replaces (Flight.of log who) outcome := by
  obtain ⟨strand, hstrand, hrest⟩ := hended
  have hkeeps := h.keeps (ofActions_keeps s actions) hstrand
  rw [hrest] at hkeeps
  exact hkeeps

theorem Course.no_call (h : Course mayPass (ofActions s actions) log t) {who : Nat}
    {outcome : Outcome} (hended : t.Ended who outcome) (hnone : ¬outcome.Replaces) :
    ∀ turn ∈ log, turn.IsCall → turn.who ≠ who := by
  rintro turn hturn hcall rfl
  have hends := h.ends hended
  obtain ⟨before, after, rfl⟩ := List.append_of_mem hturn
  rw [Flight.of_append, h.call_runs hcall] at hends
  rcases Flight.stage_running turn.who (turn :: after) with hstage | hstage
  · rw [hstage] at hends
    exact hends
  · rw [hstage] at hends
    exact hnone hends

theorem Course.site_untouched (hsurfaces : (actions.map (·.surface)).Nodup)
    (h : Course mayPass (ofActions s actions) log t) {who : Nat} {a : Planned}
    (ha : actions[who]? = some a) (hcalls : ∀ turn ∈ log, turn.IsCall → turn.who ≠ who) :
    t.session.site a.surface = s.site a.surface := by
  induction h with
  | start => rfl
  | @turn log t t' turn hcourse hstep ih =>
    have hbefore := ih fun turn hturn => hcalls turn (List.mem_append_left _ hturn)
    have hlast := hcalls turn (List.mem_append_right _ (List.mem_singleton_self _))
    cases hstep with
    | @go mover surface due due' m resume answer s' hstrand hdue hgoes =>
      refine (hgoes.site ?_).trans hbefore
      by_cases hcall : ∃ c, m = .call c
      · refine .inl fun hsame => hlast hcall ?_
        obtain ⟨strand, hfirst, hsurface⟩ := hcourse.surface hstrand
        obtain ⟨b, hb, rfl⟩ := ofActions_strand.1 hfirst
        have hlt : mover < (actions.map (·.surface)).length := by
          rw [List.length_map]
          exact (List.getElem?_eq_some_iff.1 hb).1
        refine (List.getElem?_inj hlt hsurfaces).1 ?_
        rw [List.getElem?_map, List.getElem?_map, ha, hb]
        exact congrArg some (hsurface.trans hsame.symm)
      · exact .inr fun c hc => hcall ⟨c, hc⟩
  | pass time _ _ _ ih => exact ih hcalls
  | follow _ _ ih => exact ih hcalls

/-- At any moment at most one replacement runs, and one does exactly while the session is marked; from the
first call of a replacement to its last nobody else makes one; whoever replaces nothing leaves its surface
as it was; and once all have ended the mark is gone. -/
theorem Course.single_flight (hfree : s.replacing = false)
    (hsurfaces : (actions.map (·.surface)).Nodup)
    (h : Course mayPass (ofActions s actions) log t) :
    ((∀ a b, Flight.of log a = .running → Flight.of log b = .running → a = b) ∧
      (t.session.replacing = true ↔ ∃ who, Flight.of log who = .running)) ∧
    (∀ earlier between later : Turn, [earlier, between, later].Sublist log →
      earlier.IsCall → between.IsCall → later.IsCall → earlier.who = later.who →
      between.who = earlier.who) ∧
    (∀ who a outcome, actions[who]? = some a → t.Ended who outcome → ¬outcome.Replaces →
      (∀ turn ∈ log, turn.IsCall → turn.who ≠ who) ∧
      t.session.site a.surface = s.site a.surface) ∧
    ((∀ who < actions.length, ∃ outcome, t.Ended who outcome) → t.session.replacing = false) := by
  obtain ⟨holder, hheld⟩ := h.held hfree
  obtain ⟨hmark, hruns⟩ := id hheld
  have hrunning : t.session.replacing = true ↔ ∃ who, Flight.of log who = .running := by
    rw [hmark, Option.isSome_iff_exists]
    exact exists_congr fun who => (hruns who).symm
  refine ⟨⟨fun a b => hheld.alone, hrunning⟩, fun _ _ _ => h.calls_apart hfree, ?_, fun hall => ?_⟩
  · intro who a outcome ha hended hnone
    have hcalls := h.no_call hended hnone
    exact ⟨hcalls, h.site_untouched hsurfaces ha hcalls⟩
  · rw [← Bool.not_eq_true, hrunning]
    rintro ⟨who, hrun⟩
    obtain ⟨outcome, hended⟩ := hall who (h.running_lt hrun)
    have hends := h.ends hended
    rw [hrun] at hends
    exact hends

def besideSlow : List Planned :=
  [⟨0, 0, .replace ⟨[], "/x".toList, "a[wait:1]b".toList, none⟩⟩, ⟨1, 100, .edit⟩,
    ⟨2, 500, .replace ⟨[], "/x".toList, "c".toList, none⟩⟩]

theorem Course.single_flight_beside_slow :
    ∃ log t, Course Punctual (ofActions (Scene.fields 3).session besideSlow) log t ∧
      t.Ended 0 (.replace (.replaced "ab".toList none)) ∧ t.Ended 1 (.edit .busy) ∧
      t.Ended 2 (.replace .dropped) ∧ (∀ turn ∈ log, turn.IsCall → turn.who = 0) ∧
      t.session.site 1 = (Scene.fields 3).session.site 1 ∧ t.session.replacing = false := by
  have houtcomes : (Scene.fields 3).outcomesWithin 10 besideSlow =
      some [.replace (.replaced "ab".toList none), .edit .busy, .replace .dropped] := rfl
  obtain ⟨log, t, hcourse, hended⟩ := Scene.actions_course houtcomes
  have hends₀ := hended 0 _ rfl
  have hends₁ := hended 1 _ rfl
  have hends₂ := hended 2 _ rfl
  obtain ⟨-, -, hnone, hfree⟩ := hcourse.single_flight rfl (by decide)
  obtain ⟨hcalls₁, hsite₁⟩ := hnone 1 _ _ rfl hends₁ id
  obtain ⟨hcalls₂, -⟩ := hnone 2 _ _ rfl hends₂ id
  refine ⟨log, t, hcourse, hends₀, hends₁, hends₂, ?_, hsite₁, hfree ?_⟩
  · intro turn hturn hcall
    obtain ⟨a, ha⟩ := hcourse.of_turn hturn
    have hlt : turn.who < 3 := (List.getElem?_eq_some_iff.1 ha).1
    have hne₁ := hcalls₁ turn hturn hcall
    have hne₂ := hcalls₂ turn hturn hcall
    omega
  · intro who hwho
    match who, hwho with
    | 0, _ => exact ⟨_, hends₀⟩
    | 1, _ => exact ⟨_, hends₁⟩
    | 2, _ => exact ⟨_, hends₂⟩

end Interplay
end SnippetExpansion
