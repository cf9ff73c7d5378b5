import SnippetExpansion.Dialogue
import SnippetExpansion.Transfer.Merge
import Mathlib.Data.List.Basic

/-! # Merging, whatever is merged
An entry that comes in is put where its name is free, and else it is a conflict. A merge is a dialogue with
whoever settles its conflicts: each question is about one conflict, and each answer leaves its mark on the
counts and on what is found afterwards. -/
namespace SnippetExpansion

/-- Settles conflicts by their numbers, and notes each question with its answer. -/
def noting {Q : Type} (decide : Nat → Q → ConflictPolicy) (q : Q) :
    StateM (List (Q × ConflictPolicy)) ConflictPolicy := fun calls =>
  (decide calls.length q, calls ++ [(q, decide calls.length q)])

section Noting

variable {Q α : Type}

theorem noting_congr {decide decide' : Nat → Q → ConflictPolicy}
    (d : Dialogue Q (fun _ => ConflictPolicy) α) (calls : List (Q × ConflictPolicy))
    (h : ∀ k q, calls.length ≤ k → decide k q = decide' k q) :
    (d.interpret (noting decide)).run calls = (d.interpret (noting decide')).run calls := by
  induction d generalizing calls with
  | done a => rfl
  | ask q resume ih =>
    have hfirst := h calls.length q (Nat.le_refl _)
    have hrest := ih (decide calls.length q) (calls ++ [(q, decide calls.length q)]) (by
      intro k q' hk
      rw [List.length_append] at hk
      exact h k q' (by omega))
    refine hrest.trans ?_
    rw [hfirst]
    rfl

/-- Answers that go by all that was asked before come, in any one dialogue, to answers that go by the
number of the question. -/
theorem exists_noting {σ : Type} (answer : Q → StateM σ ConflictPolicy)
    (d : Dialogue Q (fun _ => ConflictPolicy) α) (w : σ) (calls : List (Q × ConflictPolicy)) :
    ∃ decide, ((d.interpret (noting decide)).run calls).1 = ((d.interpret answer).run w).1 := by
  induction d generalizing w calls with
  | done a => exact ⟨fun _ _ => .keepExisting, rfl⟩
  | ask q resume ih =>
    let policy := ((answer q).run w).1
    obtain ⟨later, hlater⟩ := ih policy ((answer q).run w).2 (calls ++ [(q, policy)])
    let decide : Nat → Q → ConflictPolicy := fun k q => if k = calls.length then policy else later k q
    have hfirst : decide calls.length q = policy := if_pos rfl
    have hsame : ((resume policy).interpret (noting decide)).run (calls ++ [(q, policy)]) =
        ((resume policy).interpret (noting later)).run (calls ++ [(q, policy)]) := by
      apply noting_congr
      intro k q' hk
      rw [List.length_append, List.length_singleton] at hk
      exact if_neg (by omega)
    refine ⟨decide, ?_⟩
    change (((resume (decide calls.length q)).interpret (noting decide)).run
      (calls ++ [(q, decide calls.length q)])).1 = _
    rw [hfirst, hsame, hlater]
    rfl

theorem foldlM_noting {M E : Type} {decide : Nat → Q → ConflictPolicy}
    {ask : M → E → Dialogue Q (fun _ => ConflictPolicy) M} {add : M → E → M}
    {calls : M → List (Q × ConflictPolicy)}
    (hstep : ∀ m e, ((ask m e).interpret (noting decide)).run (calls m) =
      (add m e, calls (add m e))) (entries : List E) (m : M) :
    ((entries.foldlM ask m).interpret (noting decide)).run (calls m) =
      (entries.foldl add m, calls (entries.foldl add m)) := by
  induction entries generalizing m with
  | nil => rfl
  | cons e entries ih =>
    rw [List.foldlM_cons, Dialogue.interpret_bind, StateT.run_bind, hstep]
    exact ih (add m e)

end Noting

/-- How many entries there are after a merge, and what became of those that came in. -/
structure Balance (before after incoming : Nat) (report : Report)
    (answers : List ConflictPolicy) : Prop where
  entries : after + answers.count .keepNew = before + report.imported
  incoming : report.imported + answers.count .keepExisting = incoming
  conflicts : report.conflicts = answers.length

namespace Balance

variable {before after incoming imported conflicts : Nat} {answers : List ConflictPolicy}

theorem start : Balance before before 0 ⟨0, 0⟩ [] := ⟨rfl, rfl, rfl⟩

theorem added (h : Balance before after incoming ⟨imported, conflicts⟩ answers) :
    Balance before (after + 1) (incoming + 1) ⟨imported + 1, conflicts⟩ answers := by
  obtain ⟨hentries, hincoming, hconflicts⟩ := h
  dsimp only at hentries hincoming
  constructor
  · dsimp only
    omega
  · dsimp only
    omega
  · exact hconflicts

theorem answered (h : Balance before after incoming ⟨imported, conflicts⟩ answers)
    (policy : ConflictPolicy) :
    Balance before (if policy = .keepBoth then after + 1 else after) (incoming + 1)
      ⟨if policy = .keepExisting then imported else imported + 1, conflicts + 1⟩
      (answers ++ [policy]) := by
  obtain ⟨hentries, hincoming, hconflicts⟩ := h
  dsimp only at hentries hincoming hconflicts
  constructor
  · cases policy <;> simp <;> omega
  · cases policy <;> simp <;> omega
  · simp [hconflicts]

end Balance

/-- An answer has put something new in the place of what has this name. -/
def Overruled {Q : Type} (about : Q → Text) (calls : List (Q × ConflictPolicy)) (name : Text) : Prop :=
  ∃ call ∈ calls, about call.1 = name ∧ call.2 = .keepNew

/-- What is found before is found afterwards under the same name, and is the same unless overruled. -/
def Kept {K V : Type} (name : K → V → Text) (overruled : Text → Prop) (before after : K → Option V) :
    Prop :=
  ∀ k old, before k = some old →
    ∃ v, after k = some v ∧ name k v = name k old ∧ (v = old ∨ overruled (name k old))

namespace Kept

variable {K V : Type} {name : K → V → Text} {overruled overruled' : Text → Prop}
  {before between after : K → Option V}

theorem refl : Kept name overruled before before := fun _ old hold => ⟨old, hold, rfl, .inl rfl⟩

theorem imp (h : Kept name overruled before after) (himp : ∀ x, overruled x → overruled' x) :
    Kept name overruled' before after := by
  intro k old hold
  obtain ⟨v, hv, hname, hsame⟩ := h k old hold
  exact ⟨v, hv, hname, hsame.imp_right (himp _)⟩

theorem trans (h : Kept name overruled before between) (h' : Kept name overruled between after) :
    Kept name overruled before after := by
  intro k old hold
  obtain ⟨v, hv, hname, hsame⟩ := h k old hold
  obtain ⟨v', hv', hname', hsame'⟩ := h' k v hv
  rw [hname] at hname' hsame'
  refine ⟨v', hv', hname', ?_⟩
  rcases hsame with rfl | hnew
  · exact hsame'
  · exact .inr hnew

end Kept

structure Tally (Q : Type) where
  size : Nat
  imported : Nat
  conflicts : List Q

namespace Tally

variable {Q : Type} (decide : Nat → Q → ConflictPolicy) (t : Tally Q)

def report : Report := ⟨t.imported, t.conflicts.length⟩

def grown : Tally Q := { t with size := t.size + 1, imported := t.imported + 1 }

def replaced : Tally Q := { t with imported := t.imported + 1 }

def noted (qs : List Q) : Tally Q := { t with conflicts := t.conflicts ++ qs }

def calls : List (Q × ConflictPolicy) := t.conflicts.mapIdx fun k q => (q, decide k q)

def answers : List ConflictPolicy := (t.calls decide).map (·.2)

theorem calls_length : (t.calls decide).length = t.conflicts.length := List.length_mapIdx

theorem calls_noted (q : Q) :
    (t.noted [q]).calls decide = t.calls decide ++ [(q, decide t.conflicts.length q)] :=
  List.mapIdx_concat

theorem answers_noted (q : Q) :
    (t.noted [q]).answers decide = t.answers decide ++ [decide t.conflicts.length q] := by
  rw [answers, calls_noted, List.map_append]
  rfl

end Tally

/-- A way to merge: what is counted, what is found where, and what becomes of an entry that comes in. -/
structure Merging (M E Q K V : Type) where
  tally : M → Tally Q
  find? : M → K → Option V
  name : K → V → Text
  about : Q → Text
  /-- The question about an entry, if its name is taken. -/
  question? : M → E → Option Q
  note : M → List Q → M
  put : M → E → M
  overrule : M → E → M
  rename : M → E → M
  note_nil (m : M) : note m [] = m
  note_note (m : M) (qs qs' : List Q) : note (note m qs) qs' = note m (qs ++ qs')
  tally_note (m : M) (qs : List Q) : tally (note m qs) = (tally m).noted qs
  find?_note (m : M) (qs : List Q) : find? (note m qs) = find? m
  question?_note (m : M) (qs : List Q) (e : E) : question? (note m qs) e = question? m e
  tally_put {m : M} {e : E} : question? m e = none → tally (put m e) = (tally m).grown
  kept_put {m : M} {e : E} : question? m e = none →
    Kept name (fun _ => False) (find? m) (find? (put m e))
  tally_overrule {m : M} {e : E} {q : Q} : question? m e = some q →
    tally (overrule m e) = (tally m).replaced
  kept_overrule {m : M} {e : E} {q : Q} : question? m e = some q →
    Kept name (· = about q) (find? m) (find? (overrule m e))
  tally_rename (m : M) (e : E) : tally (rename m e) = (tally m).grown
  kept_rename (m : M) (e : E) : Kept name (fun _ => False) (find? m) (find? (rename m e))

namespace Merging

variable {M E Q K V : Type} (p : Merging M E Q K V)

def settle (m : M) (e : E) (q : Q) : ConflictPolicy → M
  | .keepExisting => p.note m [q]
  | .keepNew => p.overrule (p.note m [q]) e
  | .keepBoth => p.rename (p.note m [q]) e

def ask (m : M) (e : E) : Dialogue Q (fun _ => ConflictPolicy) M :=
  match p.question? m e with
  | none => pure (p.put m e)
  | some q => do
    let policy ← Dialogue.request q
    pure (p.settle m e q policy)

def add (decide : Nat → Q → ConflictPolicy) (m : M) (e : E) : M :=
  match p.question? m e with
  | none => p.put m e
  | some q => p.settle m e q (decide (p.tally m).conflicts.length q)

variable {p} {decide : Nat → Q → ConflictPolicy} {m : M} {e : E} {q : Q}

theorem add_put (h : p.question? m e = none) : p.add decide m e = p.put m e := by
  rw [add, h]

theorem add_settle (h : p.question? m e = some q) :
    p.add decide m e = p.settle m e q (decide (p.tally m).conflicts.length q) := by
  rw [add, h]

theorem tally_settle (h : p.question? m e = some q) (policy : ConflictPolicy) :
    p.tally (p.settle m e q policy) =
      ⟨if policy = .keepBoth then (p.tally m).size + 1 else (p.tally m).size,
        if policy = .keepExisting then (p.tally m).imported else (p.tally m).imported + 1,
        (p.tally m).conflicts ++ [q]⟩ := by
  cases policy with
  | keepExisting => exact p.tally_note m [q]
  | keepNew =>
    rw [settle, p.tally_overrule ((p.question?_note m [q] e).trans h), p.tally_note]
    rfl
  | keepBoth =>
    rw [settle, p.tally_rename, p.tally_note]
    rfl

theorem calls_settle (h : p.question? m e = some q) (policy : ConflictPolicy) :
    (p.tally (p.settle m e q policy)).calls decide =
      (p.tally m).calls decide ++ [(q, decide (p.tally m).conflicts.length q)] := by
  rw [tally_settle h]
  exact (p.tally m).calls_noted decide q

theorem kept_settle (h : p.question? m e = some q) (policy : ConflictPolicy) :
    Kept p.name (fun x => x = p.about q ∧ policy = .keepNew) (p.find? m)
      (p.find? (p.settle m e q policy)) := by
  have hnoted : p.find? m = p.find? (p.note m [q]) := (p.find?_note m [q]).symm
  rw [hnoted]
  cases policy with
  | keepExisting => exact .refl
  | keepNew => exact (p.kept_overrule ((p.question?_note m [q] e).trans h)).imp fun x hx => ⟨hx, rfl⟩
  | keepBoth => exact (p.kept_rename _ e).imp fun x hx => hx.elim

theorem calls_add : (p.tally m).calls decide <+: (p.tally (p.add decide m e)).calls decide := by
  cases h : p.question? m e with
  | none =>
    rw [add_put h, p.tally_put h]
    exact List.prefix_rfl
  | some q =>
    rw [add_settle h, calls_settle h]
    exact List.prefix_append _ _

theorem kept_add : Kept p.name (Overruled p.about ((p.tally (p.add decide m e)).calls decide)) (p.find? m)
    (p.find? (p.add decide m e)) := by
  cases h : p.question? m e with
  | none =>
    rw [add_put h]
    exact (p.kept_put h).imp fun x hx => hx.elim
  | some q =>
    rw [add_settle h]
    refine (kept_settle h _).imp fun x hx => ?_
    obtain ⟨rfl, hnew⟩ := hx
    rw [calls_settle h]
    exact ⟨(q, _), List.mem_append_right _ List.mem_cons_self, rfl, hnew⟩

theorem balance_add {before incoming : Nat}
    (hbalance : Balance before (p.tally m).size incoming (p.tally m).report
      ((p.tally m).answers decide)) :
    Balance before (p.tally (p.add decide m e)).size (incoming + 1)
      (p.tally (p.add decide m e)).report ((p.tally (p.add decide m e)).answers decide) := by
  cases h : p.question? m e with
  | none =>
    rw [add_put h, p.tally_put h]
    exact hbalance.added
  | some q =>
    have hanswered := hbalance.answered (decide (p.tally m).conflicts.length q)
    rw [← (p.tally m).answers_noted decide q] at hanswered
    rw [add_settle h, tally_settle h, Tally.report, List.length_append]
    exact hanswered

/-- However conflicts are settled, what is there is kept unless overruled, and the counts are in balance. -/
theorem foldl_add_conserves (p : Merging M E Q K V) (decide : Nat → Q → ConflictPolicy) (m : M)
    {before incoming : Nat} {existing : K → Option V} (entries : List E)
    (hkept : Kept p.name (Overruled p.about ((p.tally m).calls decide)) existing (p.find? m))
    (hbalance : Balance before (p.tally m).size incoming (p.tally m).report
      ((p.tally m).answers decide)) :
    let merged := entries.foldl (p.add decide) m
    Kept p.name (Overruled p.about ((p.tally merged).calls decide)) existing (p.find? merged) ∧
      Balance before (p.tally merged).size (incoming + entries.length) (p.tally merged).report
        ((p.tally merged).answers decide) := by
  induction entries generalizing m incoming with
  | nil => exact ⟨hkept, hbalance⟩
  | cons e entries ih =>
    have hgrown : ∀ x, Overruled p.about ((p.tally m).calls decide) x →
        Overruled p.about ((p.tally (p.add decide m e)).calls decide) x := fun x ⟨call, hcall, hnew⟩ =>
      ⟨call, calls_add.subset hcall, hnew⟩
    have hrest := ih (p.add decide m e) ((hkept.imp hgrown).trans kept_add) (balance_add hbalance)
    rw [Nat.add_right_comm] at hrest
    exact hrest

/-- Whoever settles conflicts by their numbers is asked about each of them once, in order. -/
theorem ask_noting (m : M) (e : E) :
    ((p.ask m e).interpret (noting decide)).run ((p.tally m).calls decide) =
      (p.add decide m e, (p.tally (p.add decide m e)).calls decide) := by
  cases h : p.question? m e with
  | none =>
    rw [add_put h, p.tally_put h]
    simp only [ask, h]
    rfl
  | some q =>
    rw [add_settle h, calls_settle h, ← (p.tally m).calls_length decide]
    simp only [ask, h]
    rfl

theorem foldlM_ask_noting (p : Merging M E Q K V) (decide : Nat → Q → ConflictPolicy)
    (entries : List E) (m : M) :
    ((entries.foldlM p.ask m).interpret (noting decide)).run ((p.tally m).calls decide) =
      (entries.foldl (p.add decide) m, (p.tally (entries.foldl (p.add decide) m)).calls decide) :=
  foldlM_noting ask_noting entries m

theorem exists_foldl_add (p : Merging M E Q K V) {σ : Type} (answer : Q → StateM σ ConflictPolicy) (w : σ)
    (entries : List E) (m : M) (hfirst : (p.tally m).conflicts = []) :
    ∃ decide, (((entries.foldlM p.ask m).interpret answer).run w).1 =
      entries.foldl (p.add decide) m := by
  obtain ⟨decide, hdecide⟩ := exists_noting answer (entries.foldlM p.ask m) w []
  have hcalls : (p.tally m).calls decide = [] := by
    rw [Tally.calls, hfirst]
    rfl
  refine ⟨decide, ?_⟩
  rw [← hdecide, ← hcalls, foldlM_ask_noting]

/-- Entries whose names are all taken are refused one after another, where what exists is kept. -/
theorem foldl_add_known (p : Merging M E Q K V) (m : M) (entries : List E) (h : ∀ e ∈ entries, (p.question? m e).isSome) :
    ∃ refused, refused.length = entries.length ∧
      entries.foldl (p.add fun _ _ => .keepExisting) m = p.note m refused := by
  induction entries generalizing m with
  | nil => exact ⟨[], rfl, (p.note_nil m).symm⟩
  | cons e entries ih =>
    obtain ⟨q, hq⟩ := Option.isSome_iff_exists.1 (h e List.mem_cons_self)
    obtain ⟨refused, hlength, hrest⟩ := ih (p.note m [q]) (by
      intro e' he'
      rw [p.question?_note]
      exact h e' (List.mem_cons_of_mem _ he'))
    refine ⟨q :: refused, congrArg Nat.succ hlength, ?_⟩
    rw [List.foldl_cons, add_settle hq, settle, hrest, p.note_note]
    rfl

end Merging
end SnippetExpansion
