import SnippetExpansion.Proofs.Session.SideBySide
import SnippetExpansion.Proofs.Session.Asking
import Mathlib.Data.List.Chain
import Mathlib.Data.List.Perm.Subperm

/-! # The quiet time after an edit
All edits are counted together, and an edit compares the count before and after its quiet time. So it is
superseded by the edits that start in its quiet time and by no others, whatever else goes on. -/
namespace SnippetExpansion

namespace Work

open Dialogue

def verdict (settings : Settings) (number latest : Nat) : Work Detection :=
  if latest ≠ number then pure .superseded else do
    if ← busy then pure .busy
    else if ← editable then detect settings
    else pure .notEditable

def rested (settings : Settings) (number : Nat) : Work Outcome :=
  .ask .latestEdit fun latest =>
    verdict settings number latest >>= fun detection => pure (.edit detection)

def counted (settings : Settings) (number : Nat) : Work Outcome :=
  .ask (.pause settings.debounce) fun _ => rested settings number

theorem edit_eq (settings : Settings) (after : Nat) :
    Action.edit.work settings after =
      .ask (.pause after) fun _ => .ask .registerEdit fun number => counted settings number := rfl

theorem replace_asks (maxDepth : Nat) (s : Snippet) :
    (replace maxDepth s).AsksOnly (· ≠ .registerEdit) fun _ => True := by
  rw [replace_eq]
  refine (asksOnly_request nofun).bind fun granted _ => ?_
  cases granted with
  | false => exact asksOnly_pure trivial
  | true =>
    have hplain : ∀ m : Move, m.Plain → m ≠ .registerEdit := by
      rintro m hm rfl
      exact hm
    refine ((putIn_asks maxDepth s).imp hplain fun _ h => h).bind fun (text, caret) _ => ?_
    exact (asksOnly_request nofun).bind fun _ _ => asksOnly_pure trivial

theorem detect_asks (settings : Settings) :
    (detect settings).AsksOnly (· ≠ .registerEdit) (· ≠ .superseded) := by
  refine (asksOnly_request nofun).bind fun current _ => ?_
  refine (asksOnly_request nofun).bind fun s _ => ?_
  split
  · exact asksOnly_pure nofun
  · next snippet _ =>
    refine (replace_asks settings.maxDepth snippet).bind fun replacement _ => ?_
    cases replacement <;> exact asksOnly_pure nofun

theorem verdict_asks (settings : Settings) (number : Nat) :
    (verdict settings number number).AsksOnly (· ≠ .registerEdit) (· ≠ .superseded) := by
  rw [verdict, if_neg (not_not_intro rfl)]
  refine (asksOnly_request nofun).bind fun busy _ => ?_
  cases busy with
  | true => exact asksOnly_pure nofun
  | false =>
    refine (asksOnly_request nofun).bind fun editable _ => ?_
    cases editable with
    | true => exact detect_asks settings
    | false => exact asksOnly_pure nofun

end Work

namespace Interplay

def started (log : List Turn) : List Nat :=
  (log.filter fun turn => turn.move = .registerEdit).map (·.who)

def IsEdit (actions : List Planned) (who : Nat) : Prop :=
  ∃ a, actions[who]? = some a ∧ a.action = .edit

def startOf (actions : List Planned) (who : Nat) : Nat := actions[who]?.elim 0 (·.after)

/-- The second edit starts after the first one, at the same time perhaps, and in its quiet time. -/
def Disturbs (s : Session) (actions : List Planned) (log : List Turn) (first second : Nat) : Prop :=
  IsEdit actions second ∧
  (startOf actions first < startOf actions second ∨
    startOf actions first = startOf actions second ∧ [first, second].Sublist (started log)) ∧
  startOf actions second < startOf actions first + s.settings.debounce

/-- An edit that has come to its end, or at least its quiet time has. -/
def Settled (s : Session) (actions : List Planned) (t : Interplay) (who : Nat) : Prop :=
  (∃ outcome, t.Ended who outcome) ∨
    s.clock + startOf actions who + s.settings.debounce < t.session.clock

/-- No edit starts at the very moment at which the quiet time of one ends. -/
def Apart (s : Session) (actions : List Planned) : Prop :=
  ∀ a b, IsEdit actions a → IsEdit actions b →
    startOf actions b ≠ startOf actions a + s.settings.debounce

def Overtaken (s : Session) (actions : List Planned) (order : List Nat) (who : Nat) : Prop :=
  ∃ other, [who, other].Sublist order ∧
    startOf actions other < startOf actions who + s.settings.debounce

/-- How far an action is at some time, where these have started. -/
inductive Stands (s : Session) (actions : List Planned) (order : List Nat) (now who : Nat) :
    Strand → Prop where
  | ahead {surface : Nat} : IsEdit actions who → who ∉ order → now ≤ s.clock →
      Stands s actions order now who
        ⟨surface, s.clock, Action.edit.work s.settings (startOf actions who)⟩
  | called {surface : Nat} : IsEdit actions who → who ∉ order →
      now ≤ s.clock + startOf actions who →
      Stands s actions order now who
        ⟨surface, s.clock + startOf actions who, .ask .registerEdit (Work.counted s.settings)⟩
  | counted {surface due : Nat} {earlier later : List Nat} : order = earlier ++ who :: later →
      now = s.clock + startOf actions who → due ≤ now →
      Stands s actions order now who
        ⟨surface, due, Work.counted s.settings (s.edits + earlier.length + 1)⟩
  | rested {surface due : Nat} {earlier later : List Nat} : order = earlier ++ who :: later →
      due = s.clock + startOf actions who + s.settings.debounce → now ≤ due →
      Stands s actions order now who
        ⟨surface, due, Work.rested s.settings (s.edits + earlier.length + 1)⟩
  | superseded {surface due : Nat} : who ∈ order →
      s.clock + startOf actions who + s.settings.debounce ≤ now → Overtaken s actions order who →
      Stands s actions order now who ⟨surface, due, .done (.edit .superseded)⟩
  | latest {surface due : Nat} {rest : Work Outcome} : who ∈ order →
      s.clock + startOf actions who + s.settings.debounce ≤ now → ¬Overtaken s actions order who →
      rest.AsksOnly (· ≠ .registerEdit) (· ≠ .edit .superseded) →
      Stands s actions order now who ⟨surface, due, rest⟩
  | other {surface due : Nat} {rest : Work Outcome} : ¬IsEdit actions who →
      rest.AsksOnly (· ≠ .registerEdit) (fun _ => True) →
      Stands s actions order now who ⟨surface, due, rest⟩

/-- The starts of the edits so far, counted and in the order of their times. -/
structure Counted (s : Session) (actions : List Planned) (order : List Nat) (session : Session) :
    Prop where
  edits : session.edits = s.edits + order.length
  nodup : order.Nodup
  rising : order.Pairwise fun a b => startOf actions a ≤ startOf actions b
  begun : ∀ who ∈ order,
    IsEdit actions who ∧ s.clock + startOf actions who ≤ session.clock

variable {s : Session} {actions : List Planned} {order earlier later : List Nat} {who : Nat}

theorem pair_sublist_append {a b x : Nat} (h : [a, b].Sublist (order ++ [x])) :
    [a, b].Sublist order ∨ b = x ∧ a ∈ order := by
  obtain ⟨l₁, l₂, heq, h₁, h₂⟩ := List.sublist_append_iff.1 h
  rcases List.sublist_singleton.1 h₂ with rfl | rfl
  · rw [List.append_nil] at heq
    exact .inl (heq ▸ h₁)
  · have hsplit : [a] ++ [b] = l₁ ++ [x] := heq
    obtain ⟨rfl, rfl⟩ := List.append_singleton_inj.1 hsplit
    exact .inr ⟨rfl, List.singleton_sublist.1 h₁⟩

theorem pair_sublist_or {a b : Nat} (ha : a ∈ order) (hb : b ∈ order) (hne : a ≠ b) :
    [a, b].Sublist order ∨ [b, a].Sublist order := by
  obtain ⟨before, after, rfl⟩ := List.append_of_mem ha
  rcases List.mem_append.1 hb with hbefore | hafter
  · refine .inr ?_
    exact (List.singleton_sublist.2 hbefore).append (List.singleton_sublist.2 List.mem_cons_self)
  · have hafter := (List.mem_cons.1 hafter).resolve_left hne.symm
    refine .inl ((List.Sublist.cons_cons a (List.singleton_sublist.2 hafter)).trans ?_)
    exact List.sublist_append_right before _

theorem overtaken_append {x : Nat}
    (hlate : startOf actions who + s.settings.debounce ≤ startOf actions x) :
    Overtaken s actions (order ++ [x]) who ↔ Overtaken s actions order who := by
  constructor
  · rintro ⟨other, hsub, hquiet⟩
    rcases pair_sublist_append hsub with hold | ⟨rfl, -⟩
    · exact ⟨other, hold, hquiet⟩
    · omega
  · rintro ⟨other, hsub, hquiet⟩
    exact ⟨other, hsub.trans (List.sublist_append_left _ _), hquiet⟩

/-- At the end of its quiet time an edit is overtaken if any has started after it. -/
theorem Counted.overtaken_iff {session : Session}
    (h : Counted s actions (earlier ++ who :: later) session)
    (hapart : Apart s actions)
    (hclock : session.clock = s.clock + startOf actions who + s.settings.debounce) :
    Overtaken s actions (earlier ++ who :: later) who ↔ later ≠ [] := by
  constructor
  · rintro ⟨other, hsub, -⟩ rfl
    have hmem : who ∈ earlier := by
      rcases pair_sublist_append hsub with hold | ⟨-, hmem⟩
      · exact hold.subset List.mem_cons_self
      · exact hmem
    exact (List.nodup_append.1 h.nodup).2.2 who hmem who (by simp) rfl
  · intro hlater
    obtain ⟨other, rest, rfl⟩ := List.exists_cons_of_ne_nil hlater
    obtain ⟨hedit, hbegun⟩ := h.begun other (by simp)
    obtain ⟨hwho, -⟩ := h.begun who (by simp)
    have hne := hapart who other hwho hedit
    refine ⟨other, ?_, by omega⟩
    refine List.Sublist.trans ?_ (List.sublist_append_right earlier _)
    exact (List.singleton_sublist.2 List.mem_cons_self).cons_cons who

def startedNext (order : List Nat) (who : Nat) (m : Move) : List Nat :=
  if m = .registerEdit then order ++ [who] else order

theorem started_append (log : List Turn) (turn : Turn) :
    started (log ++ [turn]) = startedNext (started log) turn.who turn.move := by
  by_cases h : turn.move = .registerEdit <;> simp [started, startedNext, h]

theorem Stands.registers {now surface due : Nat} {resume : Nat → Work Outcome}
    (h : Stands s actions order now who ⟨surface, due, .ask .registerEdit resume⟩)
    (hdue : due ≤ now) :
    IsEdit actions who ∧ who ∉ order ∧ now = s.clock + startOf actions who := by
  generalize hstrand : (⟨surface, due, .ask .registerEdit resume⟩ : Strand) = strand at h
  cases h with
  | called hedit hnew hnow =>
    cases hstrand
    exact ⟨hedit, hnew, by omega⟩
  | latest hmem hover hfirst hasks =>
    cases hstrand
    exact absurd rfl hasks.1
  | other hedit hasks =>
    cases hstrand
    exact absurd rfl hasks.1
  | _ => cases hstrand

theorem Stands.verdict {now surface due number latest : Nat} (hmem : who ∈ order)
    (hover : s.clock + startOf actions who + s.settings.debounce ≤ now)
    (hlatest : Overtaken s actions order who ↔ latest ≠ number) :
    Stands s actions order now who ⟨surface, due,
      Work.verdict s.settings number latest >>= fun detection => pure (.edit detection)⟩ := by
  by_cases hnumber : latest = number
  · have hfirst : ¬Overtaken s actions order who := fun h => hlatest.1 h hnumber
    subst hnumber
    refine .latest hmem hover hfirst ((Work.verdict_asks _ _).bind fun detection hdetection => ?_)
    refine Dialogue.asksOnly_pure fun hsuperseded => hdetection ?_
    exact Outcome.edit.inj hsuperseded
  · rw [Work.verdict, if_pos hnumber]
    exact .superseded hmem hover (hlatest.2 hnumber)

theorem Stands.own {session session' : Session} {surface due due' : Nat} {m : Move}
    {resume : m.Answer → Work Outcome} {answer : m.Answer}
    (h : Stands s actions order session.clock who ⟨surface, due, .ask m resume⟩)
    (hcounted : Counted s actions order session)
    (hapart : Apart s actions) (hdue : due ≤ session.clock)
    (hgoes : session.Goes surface m answer due' session') :
    Stands s actions (startedNext order who m) session.clock who ⟨surface, due', resume answer⟩ := by
  generalize hstrand : (⟨surface, due, .ask m resume⟩ : Strand) = strand at h
  cases h with
  | ahead hedit hnew hnow =>
    rw [Work.edit_eq] at hstrand
    cases hstrand
    have hclock : session.clock = s.clock := by omega
    rw [hgoes.due_of_pause, hclock]
    exact .called hedit hnew (by omega)
  | called hedit hnew hnow =>
    cases hstrand
    have hnumber := hgoes.registerEdit
    rw [hcounted.edits] at hnumber
    rw [hnumber]
    exact .counted rfl (by omega) (Nat.le_of_eq (hgoes.due_eq nofun))
  | counted horder hnow hdue =>
    cases hstrand
    have hdue' := hgoes.due_of_pause
    exact .rested horder (by omega) (by omega)
  | @rested surface due earlier later horder hdue' hnow =>
    cases hstrand
    have hmem : who ∈ order := by simp [horder]
    have hlatest := hgoes.latestEdit
    rw [hcounted.edits] at hlatest
    subst horder
    have hover := hcounted.overtaken_iff hapart (by omega)
    refine .verdict hmem (by omega) (hover.trans ?_)
    rw [hlatest, List.length_append, List.length_cons, ← List.length_pos_iff]
    omega
  | superseded => cases hstrand
  | latest hmem hover hfirst hasks =>
    cases hstrand
    have hm : m ≠ .registerEdit := hasks.1
    rw [startedNext, if_neg hm]
    exact .latest hmem hover hfirst (hasks.2 answer)
  | other hedit hasks =>
    cases hstrand
    have hm : m ≠ .registerEdit := hasks.1
    rw [startedNext, if_neg hm]
    exact .other hedit (hasks.2 answer)

theorem Stands.beside {now mover : Nat} {strand : Strand} {m : Move}
    (h : Stands s actions order now who strand) (hne : mover ≠ who)
    (hbegun : m = .registerEdit → now = s.clock + startOf actions mover) :
    Stands s actions (startedNext order mover m) now who strand := by
  by_cases hm : m = .registerEdit
  · have hnow := hbegun hm
    rw [startedNext, if_pos hm]
    have hnew : who ∉ order → who ∉ order ++ [mover] := fun h hmem =>
      (List.mem_append.1 hmem).elim h fun hmem => hne (List.mem_singleton.1 hmem).symm
    cases h with
    | ahead hedit hfresh hnow => exact .ahead hedit (hnew hfresh) hnow
    | called hedit hfresh hnow => exact .called hedit (hnew hfresh) hnow
    | @counted surface due earlier later horder hnow hdue =>
      have hlonger : order ++ [mover] = earlier ++ who :: (later ++ [mover]) := by simp [horder]
      exact .counted hlonger hnow hdue
    | @rested surface due earlier later horder hdue hnow =>
      have hlonger : order ++ [mover] = earlier ++ who :: (later ++ [mover]) := by simp [horder]
      exact .rested hlonger hdue hnow
    | superseded hmem hover hovertaken =>
      have hlate : startOf actions who + s.settings.debounce ≤ startOf actions mover := by omega
      have hstill := (overtaken_append hlate).2 hovertaken
      exact .superseded (List.mem_append_left _ hmem) hover hstill
    | latest hmem hover hfirst hasks =>
      have hlate : startOf actions who + s.settings.debounce ≤ startOf actions mover := by omega
      have hstill := fun h => hfirst ((overtaken_append hlate).1 h)
      exact .latest (List.mem_append_left _ hmem) hover hstill hasks
    | other hedit hasks => exact .other hedit hasks
  · rw [startedNext, if_neg hm]
    exact h

theorem Stands.until {now time : Nat} {strand : Strand} (h : Stands s actions order now who strand)
    (hle : now ≤ time) (hlets : strand.Lets time) : Stands s actions order time who strand := by
  cases h with
  | ahead hedit hnew => exact .ahead hedit hnew hlets
  | called hedit hnew => exact .called hedit hnew hlets
  | counted horder hnow hdue =>
    have htime : time = _ := Nat.le_antisymm (Nat.le_trans hlets hdue) hle
    rw [htime]
    exact .counted horder hnow hdue
  | rested horder hdue => exact .rested horder hdue hlets
  | superseded hmem hover hovertaken => exact .superseded hmem (by omega) hovertaken
  | latest hmem hover hfirst hasks => exact .latest hmem (by omega) hfirst hasks
  | other hedit hasks => exact .other hedit hasks

theorem Counted.next {session session' : Session} {surface due : Nat} {m : Move} {answer : m.Answer}
    (h : Counted s actions order session) (hgoes : session.Goes surface m answer due session')
    (hregisters : m = .registerEdit →
      IsEdit actions who ∧ who ∉ order ∧ session.clock = s.clock + startOf actions who) :
    Counted s actions (startedNext order who m) session' := by
  by_cases hm : m = .registerEdit
  · obtain ⟨hedit, hnew, hclock⟩ := hregisters hm
    rw [startedNext, if_pos hm]
    refine ⟨?_, ?_, ?_, ?_⟩
    · rw [hgoes.edits, if_pos hm, h.edits, List.length_append, List.length_singleton, Nat.add_assoc]
    · refine List.nodup_append.2 ⟨h.nodup, by simp, fun a ha b hb hsame => hnew ?_⟩
      obtain rfl := List.mem_singleton.1 hb
      exact hsame ▸ ha
    · refine List.pairwise_append.2 ⟨h.rising, List.pairwise_singleton _ _, fun a ha b hb => ?_⟩
      obtain rfl := List.mem_singleton.1 hb
      have hbegun := (h.begun a ha).2
      omega
    · intro other hother
      rw [hgoes.clock]
      rcases List.mem_append.1 hother with hold | hlast
      · exact h.begun other hold
      · obtain rfl := List.mem_singleton.1 hlast
        exact ⟨hedit, by omega⟩
  · rw [startedNext, if_neg hm]
    refine ⟨?_, h.nodup, h.rising, fun other hother => ?_⟩
    · rw [hgoes.edits, if_neg hm, h.edits]
    · rw [hgoes.clock]
      exact h.begun other hother

theorem Counted.edits_le {session : Session} (h : Counted s actions order session) :
    session.edits ≤ s.edits + actions.length := by
  have hthere : order ⊆ List.range actions.length := by
    intro who hwho
    obtain ⟨⟨a, ha, -⟩, -⟩ := h.begun who hwho
    exact List.mem_range.2 (List.getElem?_eq_some_iff.1 ha).1
  have hlength := (h.nodup.subperm hthere).length_le
  rw [List.length_range] at hlength
  rw [h.edits]
  exact Nat.add_le_add_left hlength _

variable {t : Interplay} {log : List Turn}

theorem ofActions_stands {strand : Strand}
    (hstrand : (ofActions s actions).strands[who]? = some strand) :
    Stands s actions [] s.clock who strand := by
  obtain ⟨⟨surface, after, action⟩, ha, rfl⟩ := ofActions_strand.1 hstrand
  cases action with
  | edit =>
    have hstart : startOf actions who = after := by rw [startOf, ha, Option.elim_some]
    have hedit : IsEdit actions who := ⟨_, ha, rfl⟩
    rw [← hstart]
    exact .ahead hedit List.not_mem_nil (Nat.le_refl _)
  | replace snippet =>
    have hedit : ¬IsEdit actions who := by
      rintro ⟨a, ha', hedit⟩
      obtain rfl := Option.some.inj (ha.symm.trans ha')
      cases hedit
    refine .other hedit ?_
    refine (Dialogue.asksOnly_request nofun).bind fun _ _ => ?_
    exact (Work.replace_asks _ _).bind fun _ _ => Dialogue.asksOnly_pure trivial

theorem Course.counted (hapart : Apart s actions)
    (h : Course Punctual (ofActions s actions) log t) :
    Counted s actions (started log) t.session ∧
    ∀ who strand, t.strands[who]? = some strand →
      Stands s actions (started log) t.session.clock who strand := by
  induction h with
  | start =>
    refine ⟨⟨rfl, List.nodup_nil, List.Pairwise.nil, ?_⟩, fun who strand => ofActions_stands⟩
    exact fun who hmem => absurd hmem List.not_mem_nil
  | @turn log t t' turn _ hstep ih =>
    obtain ⟨hcounted, hstands⟩ := ih
    rw [started_append]
    have hregisters : turn.move = .registerEdit → IsEdit actions turn.who ∧
        turn.who ∉ started log ∧ t.session.clock = s.clock + startOf actions turn.who := by
      cases hstep with
      | go hstrand hdue _ =>
        rintro rfl
        exact (hstands _ _ hstrand).registers hdue
    obtain ⟨surface, due, hgoes⟩ := hstep.goes
    refine ⟨hcounted.next hgoes hregisters, fun who strand hwho => ?_⟩
    rw [hgoes.clock]
    rcases hstep.strand hwho with ⟨rfl, due, resume, hbefore, hdue, hmove, hrest⟩ | ⟨hne, hbefore⟩
    · obtain ⟨surface, due', rest⟩ := strand
      cases hrest
      exact (hstands _ _ hbefore).own hcounted hapart hdue hmove
    · refine (hstands who strand hbefore).beside hne fun hm => ?_
      exact (hregisters hm).2.2
  | pass time _ hle hpunctual ih =>
    obtain ⟨hcounted, hstands⟩ := ih
    refine ⟨⟨hcounted.edits, hcounted.nodup, hcounted.rising, fun who hmem => ?_⟩, ?_⟩
    · obtain ⟨hedit, hbegun⟩ := hcounted.begun who hmem
      exact ⟨hedit, Nat.le_trans hbegun hle⟩
    · intro who strand hstrand
      exact (hstands who strand hstrand).until hle (hpunctual strand (List.mem_of_getElem? hstrand))
  | follow _ _ ih => exact ⟨⟨ih.1.edits, ih.1.nodup, ih.1.rising, ih.1.begun⟩, ih.2⟩

theorem Stands.mem_of_lt {now : Nat} {strand : Strand} (h : Stands s actions order now who strand)
    (hedit : IsEdit actions who) (hnow : s.clock + startOf actions who < now) : who ∈ order := by
  cases h with
  | ahead _ _ hle => omega
  | called _ _ hle => omega
  | counted horder => simp [horder]
  | rested horder => simp [horder]
  | superseded hmem => exact hmem
  | latest hmem => exact hmem
  | other hnot => exact absurd hedit hnot

theorem Course.overtaken_iff (hapart : Apart s actions)
    (h : Course Punctual (ofActions s actions) log t) (hmem : who ∈ started log)
    (hover : s.clock + startOf actions who + s.settings.debounce ≤ t.session.clock) :
    Overtaken s actions (started log) who ↔ ∃ other, Disturbs s actions log who other := by
  obtain ⟨hcounted, hstands⟩ := h.counted hapart
  constructor
  · rintro ⟨other, hsub, hquiet⟩
    have hedit := (hcounted.begun other (hsub.subset (by simp))).1
    have hle := List.pairwise_iff_forall_sublist.1 hcounted.rising hsub
    refine ⟨other, hedit, ?_, hquiet⟩
    exact (Nat.lt_or_eq_of_le hle).imp_right fun heq => ⟨heq, hsub⟩
  · rintro ⟨other, hedit, hafter, hquiet⟩
    obtain ⟨a, ha, -⟩ := id hedit
    obtain ⟨strand, hstrand⟩ := h.has_strand ha
    have hother := (hstands other strand hstrand).mem_of_lt hedit (by omega)
    refine ⟨other, ?_, hquiet⟩
    rcases hafter with hlt | ⟨-, hsub⟩
    · have hne : who ≠ other := fun heq => absurd hlt (heq ▸ Nat.lt_irrefl _)
      refine (pair_sublist_or hmem hother hne).resolve_right fun hsub => ?_
      have hle := List.pairwise_iff_forall_sublist.1 hcounted.rising hsub
      omega
    · exact hsub

theorem Course.settled_superseded_iff (hapart : Apart s actions)
    (h : Course Punctual (ofActions s actions) log t) (hedit : IsEdit actions who)
    (hsettled : Settled s actions t who) :
    t.Ended who (.edit .superseded) ↔ ∃ other, Disturbs s actions log who other := by
  obtain ⟨a, ha, -⟩ := id hedit
  obtain ⟨strand, hstrand⟩ := h.has_strand ha
  have hstands := (h.counted hapart).2 who strand hstrand
  have hended : t.Ended who (.edit .superseded) ↔ strand.rest = .done (.edit .superseded) := by
    rw [Ended, hstrand]
    exact ⟨fun ⟨_, heq, hrest⟩ => Option.some.inj heq ▸ hrest, fun hrest => ⟨strand, rfl, hrest⟩⟩
  -- Whoever still asks has not ended, so its quiet time would have to be over.
  have hasking : ∀ {m : Move} {resume : m.Answer → Work Outcome}, strand.rest = .ask m resume →
      s.clock + startOf actions who + s.settings.debounce < t.session.clock := by
    intro m resume hask
    rcases hsettled with ⟨outcome, other, heq, hrest⟩ | hover
    · obtain rfl := Option.some.inj (hstrand.symm.trans heq)
      rw [hask] at hrest
      cases hrest
    · exact hover
  rw [hended]
  cases hstands with
  | ahead _ _ hnow =>
    have hover := hasking rfl
    omega
  | called _ _ hnow =>
    have hover := hasking rfl
    omega
  | counted _ hnow =>
    have hover := hasking rfl
    omega
  | rested _ _ hnow =>
    have hover := hasking rfl
    omega
  | superseded hmem hover hovertaken =>
    exact iff_of_true rfl ((h.overtaken_iff hapart hmem hover).1 hovertaken)
  | latest hmem hover hfirst hasks =>
    refine iff_of_false ?_ ((h.overtaken_iff hapart hmem hover).not.1 hfirst)
    rintro rfl
    exact hasks rfl
  | other hnot => exact absurd hedit hnot

/-- An edit is superseded exactly when another one starts after it in its quiet time. So of edits that
follow each other so soon only the last one is not, if none follows it. The count grows by at most the
number of actions, so 64 bits hold it as long as they hold that sum. -/
theorem Course.latest_edit_stays (hquiet : 0 < s.settings.debounce)
    (hapart : ∀ a b, IsEdit actions a → IsEdit actions b → a ≠ b →
      startOf actions b ≠ startOf actions a + s.settings.debounce)
    (h : Course Punctual (ofActions s actions) log t) :
    (∀ who, IsEdit actions who → Settled s actions t who →
      (t.Ended who (.edit .superseded) ↔ ∃ other, Disturbs s actions log who other)) ∧
    (∀ run last, (run ++ [last]).IsChain (Disturbs s actions log) →
      (∀ who ∈ run ++ [last], IsEdit actions who ∧ Settled s actions t who) →
      (∀ other, ¬Disturbs s actions log last other) →
      (∀ who ∈ run, t.Ended who (.edit .superseded)) ∧ ¬t.Ended last (.edit .superseded)) ∧
    t.session.edits ≤ s.edits + actions.length := by
  have hall : Apart s actions := by
    intro a b ha hb
    by_cases hsame : a = b
    · subst hsame
      omega
    · exact hapart a b ha hb hsame
  have hiff := fun who (hedit : IsEdit actions who) => h.settled_superseded_iff hall hedit
  refine ⟨hiff, fun run last hchain hedits hlast => ⟨fun who hwho => ?_, ?_⟩,
    (h.counted hall).1.edits_le⟩
  · obtain ⟨hedit, hsettled⟩ := hedits who (List.mem_append_left _ hwho)
    refine (hiff who hedit hsettled).2 ?_
    obtain ⟨before, after, rfl⟩ := List.append_of_mem hwho
    rw [List.append_assoc, List.cons_append] at hchain
    have hrest : (who :: (after ++ [last])).IsChain (Disturbs s actions log) :=
      hchain.right_of_append
    have hne : after ++ [last] ≠ [] := List.append_ne_nil_of_right_ne_nil _ (List.cons_ne_nil _ _)
    obtain ⟨other, rest, hnext⟩ := List.exists_cons_of_ne_nil hne
    rw [hnext] at hrest
    exact ⟨other, hrest.rel⟩
  · obtain ⟨hedit, hsettled⟩ := hedits last (by simp)
    rw [hiff last hedit hsettled]
    rintro ⟨other, hother⟩
    exact hlast other hother

def threeEdits : List Planned :=
  [⟨0, 0, .edit⟩, ⟨1, 20, .edit⟩,
    ⟨2, 60, .replace ⟨[], "/x".toList, "a[wait:1]b".toList, none⟩⟩, ⟨3, 2000, .edit⟩]

theorem Course.latest_edit_stays_of_three :
    ∃ log t, Course Punctual (ofActions (Scene.fields 4).session threeEdits) log t ∧
      t.Ended 0 (.edit .superseded) ∧ ¬t.Ended 1 (.edit .superseded) ∧
      ∀ other, ¬Disturbs (Scene.fields 4).session threeEdits log 1 other := by
  have houtcomes : (Scene.fields 4).outcomesWithin 20 threeEdits =
      some [.edit .superseded, .edit .busy, .replace (.replaced "ab".toList none),
        .edit .noMatch] := rfl
  obtain ⟨log, t, hcourse, hended⟩ := Scene.actions_course houtcomes
  have hedits : ∀ who, IsEdit threeEdits who → who = 0 ∨ who = 1 ∨ who = 3 := by
    rintro who ⟨a, ha, hedit⟩
    match who with
    | 0 | 1 | 3 => decide
    | 2 =>
      obtain rfl := Option.some.inj ha
      cases hedit
    | who + 4 => cases ha
  have hapart : ∀ a b, IsEdit threeEdits a → IsEdit threeEdits b → a ≠ b →
      startOf threeEdits b ≠ startOf threeEdits a + 50 := by
    intro a b ha hb hne
    rcases hedits a ha with rfl | rfl | rfl <;> rcases hedits b hb with rfl | rfl | rfl <;>
      first | exact absurd rfl hne | decide
  obtain ⟨hiff, hrun, -⟩ := hcourse.latest_edit_stays (by decide) hapart
  have hedit₀ : IsEdit threeEdits 0 := ⟨_, rfl, rfl⟩
  have hedit₁ : IsEdit threeEdits 1 := ⟨_, rfl, rfl⟩
  have hends₁ : t.Ended 1 (.edit .busy) := hended 1 _ rfl
  have hnot : ¬t.Ended 1 (.edit .superseded) := by
    rintro ⟨strand, hstrand, hrest⟩
    obtain ⟨other, hother, hbusy⟩ := hends₁
    obtain rfl := Option.some.inj (hstrand.symm.trans hother)
    rw [hrest] at hbusy
    cases hbusy
  have hlast : ∀ other, ¬Disturbs (Scene.fields 4).session threeEdits log 1 other :=
    fun other hother => hnot ((hiff 1 hedit₁ (.inl ⟨_, hends₁⟩)).2 ⟨other, hother⟩)
  have hchain : ([0] ++ [1]).IsChain (Disturbs (Scene.fields 4).session threeEdits log) :=
    List.isChain_pair.2 ⟨hedit₁, .inl (by decide), by decide⟩
  obtain ⟨hsuperseded, hstays⟩ := hrun [0] 1 hchain (by
    intro who hwho
    rcases List.mem_pair.1 hwho with rfl | rfl
    · exact ⟨hedit₀, .inl ⟨_, hended 0 _ rfl⟩⟩
    · exact ⟨hedit₁, .inl ⟨_, hends₁⟩⟩) hlast
  exact ⟨log, t, hcourse, hsuperseded 0 (by simp), hstays, hlast⟩

end Interplay
end SnippetExpansion
