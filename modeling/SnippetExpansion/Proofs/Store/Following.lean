import SnippetExpansion.Store.Following
import SnippetExpansion.Proofs.Store.Operation
import Mathlib.Data.List.Induction
import Mathlib.Logic.Relation

/-! # A follower comes to agree with its store
A store is changed through its operations while a follower subscribes, loads, takes notices and loads
again after missed ones, each in a step of its own. Changes that are already in the data may be taken
once more: replaying an end of the history over its outcome leads back to that outcome. -/
namespace SnippetExpansion

namespace Snapshot

theorem apply_ofStoredData (d : StoredData) (c : Change) :
    (ofStoredData d).apply c = ofStoredData (d.apply c) := by
  cases c <;> rfl

theorem foldl_apply_ofStoredData (changes : List Change) (d : StoredData) :
    changes.foldl apply (ofStoredData d) = ofStoredData (changes.foldl StoredData.apply d) := by
  induction changes generalizing d with
  | nil => rfl
  | cons c changes ih => rw [List.foldl_cons, apply_ofStoredData, ih, List.foldl_cons]

theorem apply_apply (s : Snapshot) (c e : Change) :
    (s.apply c).apply e = s.apply e ∨ (s.apply c).apply e = (s.apply e).apply c := by
  cases c <;> cases e <;> simp [apply]

theorem apply_idem (s : Snapshot) (c : Change) : (s.apply c).apply c = s.apply c := by
  cases c <;> rfl

theorem foldl_apply_absorb (changes : List Change) (s : Snapshot) (c : Change) :
    (changes.foldl apply (s.apply c)).apply c = (changes.foldl apply s).apply c := by
  induction changes generalizing s with
  | nil => exact apply_idem s c
  | cons e changes ih =>
    simp only [List.foldl_cons]
    rcases apply_apply s c e with h | h
    · rw [h]
    · rw [h, ih]

theorem replay_idem (changes : List Change) (s : Snapshot) :
    changes.foldl apply (changes.foldl apply s) = changes.foldl apply s := by
  induction changes using List.reverseRecOn with
  | nil => rfl
  | append_singleton changes c ih =>
    simp only [List.foldl_append, List.foldl_cons, List.foldl_nil]
    rw [foldl_apply_absorb, ih]

/-- An end of the history, done over again, changes nothing. -/
theorem replay_drop (changes : List Change) (n : Nat) (s : Snapshot) :
    (changes.drop n).foldl apply (changes.foldl apply s) = changes.foldl apply s := by
  have hsplit : changes.foldl apply s =
      (changes.drop n).foldl apply ((changes.take n).foldl apply s) := by
    rw [← List.foldl_append, List.take_append_drop]
  rw [hsplit, replay_idem]

end Snapshot

inductive Phase where
  | absent
  | subscribed (listener : Listener)
  | following (f : Follower)
  | behind (missed : Nat) (f : Follower)

def Phase.follower? : Phase → Option Follower
  | .following f | .behind _ f => some f
  | .absent | .subscribed _ => none

structure Watch where
  store : Store
  /-- The changes that the operation under way has written and not told yet. -/
  untold : List Change
  phase : Phase

/-- An operation writes its outcome, then tells its changes one by one, and the next operation waits
for that. The follower waits for nothing: its steps may fall between any two. -/
inductive Watch.Step (ids : IdSource) : Watch → Watch → Prop where
  | write (s s' : Store) (p : Phase) (op : Operation) (told : List Change) :
      ((op.perform ids).run s).2 = { s' with sent := s.sent ++ told } → s'.sent = s.sent →
      Step ids ⟨s, [], p⟩ ⟨s', told, p⟩
  | tell (s : Store) (c : Change) (untold : List Change) (p : Phase) :
      Step ids ⟨s, c :: untold, p⟩ ⟨{ s with sent := s.sent ++ [c] }, untold, p⟩
  | disturb (s : Store) (untold : List Change) (p : Phase) (fault : Option FileFault) :
      Step ids ⟨s, untold, p⟩ ⟨{ s with writeFault := fault }, untold, p⟩
  | subscribe (s : Store) (untold : List Change) :
      Step ids ⟨s, untold, .absent⟩ ⟨s, untold, .subscribed (Listener.subscribe s.sent)⟩
  | load (s : Store) (untold : List Change) (l : Listener) (d : StoredData) :
      (Store.load.run s).1 = .ok d →
      Step ids ⟨s, untold, .subscribed l⟩ ⟨s, untold, .following ⟨.ofStoredData d, l⟩⟩
  | take (s : Store) (untold : List Change) (f : Follower) (c : Change) (l : Listener) :
      f.listener.receive? s.sent = some (.change c, l) →
      Step ids ⟨s, untold, .following f⟩ ⟨s, untold, .following ⟨f.snapshot.apply c, l⟩⟩
  | miss (s : Store) (untold : List Change) (f : Follower) (missed : Nat) (l : Listener) :
      f.listener.receive? s.sent = some (.lagged missed, l) →
      Step ids ⟨s, untold, .following f⟩ ⟨s, untold, .behind missed ⟨f.snapshot, l⟩⟩
  | reload (s : Store) (untold : List Change) (f : Follower) (missed : Nat) :
      Step ids ⟨s, untold, .behind missed f⟩
        ⟨s, untold, .following ⟨Follower.take s.file f.snapshot (.lagged missed), f.listener⟩⟩

/-- It comes so far step by step, or does several steps at one stroke. -/
inductive Watch.Reachable (ids : IdSource) (file : File) : Watch → Prop where
  | start : Reachable ids file ⟨Store.ofFile file, [], .absent⟩
  | step {w w' : Watch} : Reachable ids file w → Watch.Step ids w w' → Reachable ids file w'
  | perform {s : Store} {p : Phase} (op : Operation) : Reachable ids file ⟨s, [], p⟩ →
      Reachable ids file ⟨((op.perform ids).run s).2, [], p⟩
  | follow {s s' : Store} {f : Follower} : Reachable ids file ⟨s, [], .absent⟩ →
      Follower.start.run s = (.ok f, s') → Reachable ids file ⟨s', [], .following f⟩
  | next {s : Store} {f f' : Follower} : Reachable ids file ⟨s, [], .following f⟩ →
      f.step? s = some f' → Reachable ids file ⟨s, [], .following f'⟩

theorem Watch.tell_steps (ids : IdSource) (untold : List Change) (s : Store) (p : Phase) :
    Relation.ReflTransGen (Watch.Step ids) ⟨s, untold, p⟩
      ⟨{ s with sent := s.sent ++ untold }, [], p⟩ := by
  induction untold generalizing s with
  | nil => rw [List.append_nil]
  | cons c untold ih =>
    have hrest := ih { s with sent := s.sent ++ [c] }
    rw [List.append_assoc] at hrest
    exact .head (.tell s c untold p) hrest

theorem Operation.perform_steps (ids : IdSource) (op : Operation) (s : Store) (p : Phase) :
    Relation.ReflTransGen (Watch.Step ids) ⟨s, [], p⟩ ⟨((op.perform ids).run s).2, [], p⟩ := by
  obtain ⟨told, hsent⟩ : ∃ told, ((op.perform ids).run s).2.sent = s.sent ++ told := by
    have hhonest := op.perform_honest ids s
    rcases hrun : (op.perform ids).run s with ⟨failure | result, s'⟩ <;> rw [hrun] at hhonest
    · exact ⟨[], by rw [hhonest.2, List.append_nil]⟩
    · obtain ⟨d, told, -, hsent, -⟩ := hhonest
      exact ⟨told, hsent⟩
  have hwrite : ((op.perform ids).run s).2 =
      { ((op.perform ids).run s).2 with sent := s.sent ++ told } := by
    rw [← hsent]
  rw [hwrite]
  exact .head
    (.write s { ((op.perform ids).run s).2 with sent := s.sent } p op told hwrite rfl)
    (Watch.tell_steps ids told _ p)

theorem Follower.start_steps (ids : IdSource) {s s' : Store} {f : Follower}
    (h : Follower.start.run s = (.ok f, s')) :
    Relation.ReflTransGen (Watch.Step ids) ⟨s, [], .absent⟩ ⟨s', [], .following f⟩ := by
  simp only [Follower.start, Store.run_bind, Store.run_get, Store.run_load] at h
  rcases hdata : s.file.data with failure | d <;> rw [hdata] at h
  · cases h
  · cases h
    exact .tail (.single (.subscribe s [])) (.load s [] _ d hdata)

theorem Follower.step_steps (ids : IdSource) {s : Store} {f f' : Follower}
    (h : f.step? s = some f') :
    Relation.ReflTransGen (Watch.Step ids) ⟨s, [], .following f⟩ ⟨s, [], .following f'⟩ := by
  obtain ⟨⟨notice, l⟩, hreceive, rfl⟩ := Option.map_eq_some_iff.1 h
  cases notice with
  | change c => exact .single (.take s [] f c l hreceive)
  | lagged missed =>
    exact .tail (.single (.miss s [] f missed l hreceive)) (.reload s [] ⟨_, l⟩ missed)

/-- Whether what a follower has yet to take leads it to the data, `now` being that data, `sent` what
is told already and `untold` what comes after that. -/
def Phase.OnCourse (sent untold : List Change) (now : Snapshot) : Phase → Prop
  | .absent => True
  | .subscribed l => l.position ≤ sent.length
  | .following f => f.listener.position ≤ sent.length ∧
      ((sent ++ untold).drop f.listener.position).foldl Snapshot.apply f.snapshot = now
  | .behind _ f => f.listener.position < sent.length

/-- The file holds data, the history of changes ends in that data, and so does what the follower has
yet to take. -/
def Watch.Invariant (w : Watch) : Prop :=
  ∃ d first, w.store.file.data = .ok d ∧
    (w.store.sent ++ w.untold).foldl Snapshot.apply first = .ofStoredData d ∧
    w.phase.OnCourse w.store.sent w.untold (.ofStoredData d)

theorem Phase.OnCourse.written {sent : List Change} {d : StoredData} {p : Phase}
    (h : p.OnCourse sent [] (.ofStoredData d)) (told : List Change) :
    p.OnCourse sent told (.ofStoredData (told.foldl StoredData.apply d)) := by
  cases p with
  | absent => trivial
  | subscribed l => exact h
  | following f =>
    obtain ⟨hpos, hrest⟩ := h
    refine ⟨hpos, ?_⟩
    rw [List.append_nil] at hrest
    rw [List.drop_append_of_le_length hpos, List.foldl_append, hrest,
      Snapshot.foldl_apply_ofStoredData]
  | behind missed f => exact h

theorem Phase.OnCourse.told {sent untold : List Change} {c : Change} {now : Snapshot} {p : Phase}
    (h : p.OnCourse sent (c :: untold) now) : p.OnCourse (sent ++ [c]) untold now := by
  have hlength : sent.length ≤ (sent ++ [c]).length := by simp
  cases p with
  | absent => trivial
  | subscribed l => exact Nat.le_trans h hlength
  | following f =>
    obtain ⟨hpos, hrest⟩ := h
    refine ⟨Nat.le_trans hpos hlength, ?_⟩
    rw [List.append_assoc]
    exact hrest
  | behind missed f => exact Nat.lt_of_lt_of_le h hlength

theorem Watch.write_invariant {ids : IdSource} {op : Operation} {s s' : Store} {p : Phase}
    {told : List Change} (h : Watch.Invariant ⟨s, [], p⟩)
    (hrun : ((op.perform ids).run s).2 = { s' with sent := s.sent ++ told })
    (hsame : s'.sent = s.sent) : Watch.Invariant ⟨s', told, p⟩ := by
  obtain ⟨d, first, hdata, hhistory, hcourse⟩ := h
  rw [List.append_nil] at hhistory
  have hhonest := op.perform_honest ids s
  rcases hended : (op.perform ids).run s with ⟨failure | result, after⟩ <;>
    rw [hended] at hhonest hrun <;> subst hrun
  · obtain ⟨hfile, hsent⟩ := hhonest
    obtain rfl : told = [] := by simpa using hsent
    refine ⟨d, first, ?_, ?_, ?_⟩
    · exact (congrArg File.data hfile).trans hdata
    · rw [List.append_nil, hsame]
      exact hhistory
    · rw [hsame]
      exact hcourse
  · obtain ⟨d', told', hbefore, hsent, hafter⟩ := hhonest
    obtain rfl : d = d' := Except.ok.inj (hdata.symm.trans hbefore)
    obtain rfl : told = told' := List.append_cancel_left hsent
    refine ⟨told.foldl StoredData.apply d, first, hafter, ?_, ?_⟩
    · rw [hsame, List.foldl_append, hhistory, Snapshot.foldl_apply_ofStoredData]
    · rw [hsame]
      exact hcourse.written told

theorem Listener.receive_change {sent : List Change} {l l' : Listener} {c : Change}
    (h : l.receive? sent = some (.change c, l')) :
    sent[l.position]? = some c ∧ l'.position = l.position + 1 := by
  unfold Listener.receive? at h
  split at h
  · simp at h
  · obtain ⟨c', hc, heq⟩ := Option.map_eq_some_iff.1 h
    simp only [Prod.mk.injEq, Notice.change.injEq] at heq
    obtain ⟨rfl, rfl⟩ := heq
    exact ⟨hc, rfl⟩

theorem Listener.receive_lagged {sent : List Change} {l l' : Listener} {missed : Nat}
    (h : l.receive? sent = some (.lagged missed, l')) : l'.position < sent.length := by
  unfold Listener.receive? at h
  split at h
  · next hlag =>
    simp only [Option.some.injEq, Prod.mk.injEq] at h
    obtain ⟨-, rfl⟩ := h
    simp only [listeningCapacity] at *
    omega
  · obtain ⟨c, -, heq⟩ := Option.map_eq_some_iff.1 h
    simp at heq

theorem Listener.receive_none {sent : List Change} {l : Listener} (h : l.receive? sent = none) :
    sent.length ≤ l.position := by
  unfold Listener.receive? at h
  split at h
  · simp at h
  · simpa using h

theorem Watch.step_preserves_invariant {ids : IdSource} {w w' : Watch} (h : Watch.Step ids w w')
    (hw : w.Invariant) : w'.Invariant := by
  cases h with
  | write s s' p op told hrun hsame => exact write_invariant hw hrun hsame
  | tell s c untold p =>
    obtain ⟨d, first, hdata, hhistory, hcourse⟩ := hw
    refine ⟨d, first, hdata, ?_, hcourse.told⟩
    rw [List.append_assoc]
    exact hhistory
  | disturb s untold p fault => exact hw
  | subscribe s untold =>
    obtain ⟨d, first, hdata, hhistory, -⟩ := hw
    exact ⟨d, first, hdata, hhistory, Nat.le_refl s.sent.length⟩
  | load s untold l d hload =>
    obtain ⟨d', first, hdata, hhistory, hpos⟩ := hw
    obtain rfl : d' = d := Except.ok.inj (hdata.symm.trans hload)
    refine ⟨d', first, hdata, hhistory, hpos, ?_⟩
    rw [← hhistory]
    exact Snapshot.replay_drop _ _ _
  | take s untold f c l hreceive =>
    obtain ⟨d, first, hdata, hhistory, hpos, hrest⟩ := hw
    obtain ⟨hget, hnext⟩ := Listener.receive_change hreceive
    obtain ⟨hlt, hc⟩ := List.getElem?_eq_some_iff.1 hget
    refine ⟨d, first, hdata, hhistory, ?_, ?_⟩
    · simp only [hnext]
      exact hlt
    · rw [List.drop_append_of_le_length hpos, List.drop_eq_getElem_cons hlt, hc, List.cons_append,
        List.foldl_cons, ← List.drop_append_of_le_length hlt] at hrest
      simp only [hnext]
      exact hrest
  | miss s untold f missed l hreceive =>
    obtain ⟨d, first, hdata, hhistory, -⟩ := hw
    exact ⟨d, first, hdata, hhistory, Listener.receive_lagged hreceive⟩
  | reload s untold f missed =>
    obtain ⟨d, first, hdata, hhistory, hpos⟩ := hw
    refine ⟨d, first, hdata, hhistory, Nat.le_of_lt hpos, ?_⟩
    -- The data is newer than the retained changes, which are replayed over it all the same.
    have htake : Follower.take s.file f.snapshot (.lagged missed) = .ofStoredData d := by
      simp only [Follower.take]
      rw [hdata]
    rw [htake, ← hhistory]
    exact Snapshot.replay_drop _ _ _

theorem Watch.steps_preserve_invariant {ids : IdSource} {w w' : Watch}
    (h : Relation.ReflTransGen (Watch.Step ids) w w') (hw : w.Invariant) : w'.Invariant := by
  induction h with
  | refl => exact hw
  | tail _ hstep ih => exact step_preserves_invariant hstep ih

theorem Watch.reachable_invariant {ids : IdSource} {file : File} {d : StoredData}
    (hfile : file.data = .ok d) {w : Watch} (h : Watch.Reachable ids file w) : w.Invariant := by
  induction h with
  | start => exact ⟨d, .ofStoredData d, hfile, rfl, trivial⟩
  | step _ hstep ih => exact step_preserves_invariant hstep ih
  | perform op _ ih => exact steps_preserve_invariant (op.perform_steps ids _ _) ih
  | follow _ hrun ih => exact steps_preserve_invariant (Follower.start_steps ids hrun) ih
  | next _ hnext ih => exact steps_preserve_invariant (Follower.step_steps ids hnext) ih

/-- Whenever no operation is under way and nothing is left to take, the follower has what the store
would load. -/
theorem quiet_follower_agrees {ids : IdSource} {file : File} {d : StoredData}
    (hfile : file.data = .ok d) {w : Watch} (h : Watch.Reachable ids file w)
    (htold : w.untold = []) {f : Follower} (hf : w.phase.follower? = some f)
    (hquiet : f.listener.receive? w.store.sent = none) :
    ∃ now, (Store.load.run w.store).1 = .ok now ∧ f.snapshot = .ofStoredData now := by
  obtain ⟨now, first, hdata, -, hcourse⟩ := Watch.reachable_invariant hfile h
  have hend := Listener.receive_none hquiet
  refine ⟨now, hdata, ?_⟩
  obtain ⟨s, untold, p⟩ := w
  obtain rfl : untold = [] := htold
  cases p with
  | absent => cases hf
  | subscribed l => cases hf
  | following g =>
    cases hf
    rw [← hcourse.2, List.append_nil, List.drop_eq_nil_of_le hend]
    rfl
  | behind missed g =>
    cases hf
    exact absurd hcourse (Nat.not_lt.2 hend)

namespace EarlyWrite

def ids : IdSource := .guessing fun _ => ['x']

def change : Change := .vars (Dictionary.empty.insert ['a'] ['b'])

def data : StoredData := StoredData.empty.apply change

def store (sent : List Change) : Store := ⟨.text data.write, sent, [], none⟩

def follower : Follower := ⟨(Snapshot.ofStoredData data).apply change, ⟨1⟩⟩

theorem reachable : Watch.Reachable ids .missing ⟨store [change], [], .following follower⟩ := by
  have hsubscribed : Watch.Reachable ids .missing ⟨Store.ofFile .missing, [], .subscribed ⟨0⟩⟩ :=
    .step .start (.subscribe _ [])
  have hwritten : Watch.Reachable ids .missing ⟨store [], [change], .subscribed ⟨0⟩⟩ :=
    .step hsubscribed (.write _ (store []) _ (.saveVariable ['a'] ['b'] none) [change] rfl rfl)
  have hloaded : Watch.Reachable ids .missing
      ⟨store [], [change], .following ⟨.ofStoredData data, ⟨0⟩⟩⟩ :=
    .step hwritten (.load _ _ _ data (File.data_write data))
  have htold : Watch.Reachable ids .missing
      ⟨store [change], [], .following ⟨.ofStoredData data, ⟨0⟩⟩⟩ :=
    .step hloaded (.tell _ change [] _)
  exact .step htold (.take _ _ _ change ⟨1⟩ rfl)

/-- A variable is saved after the follower has subscribed and is told of after it has loaded. -/
theorem follower_agrees :
    Watch.Reachable ids .missing ⟨store [change], [], .following follower⟩ ∧
    follower.listener.receive? [change] = none ∧
    ∃ now, (Store.load.run (store [change])).1 = .ok now ∧
      follower.snapshot = .ofStoredData now :=
  ⟨reachable, rfl, quiet_follower_agrees rfl reachable rfl rfl rfl⟩

end EarlyWrite
end SnippetExpansion
