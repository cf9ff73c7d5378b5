import SnippetExpansion.Change

/-!
# Listening for changes

A listener takes the changes one by one, in order. Only the newest ones are kept for those who are
slow; who misses some is told how many, once, and goes on with the oldest one that is kept.
-/
namespace SnippetExpansion

def listeningCapacity : Nat := 64

inductive Notice where
  | change (c : Change)
  | lagged (missed : Nat)
  deriving Repr, DecidableEq

/-- How many of the changes sent a listener has taken or missed. -/
structure Listener where
  position : Nat
  deriving Repr, DecidableEq

namespace Listener

def subscribe (sent : List Change) : Listener := ⟨sent.length⟩

def receive? (sent : List Change) (l : Listener) : Option (Notice × Listener) :=
  if sent.length - l.position > listeningCapacity then
    let kept := sent.length - listeningCapacity
    some (.lagged (kept - l.position), ⟨kept⟩)
  else
    sent[l.position]?.map fun c => (.change c, ⟨l.position + 1⟩)

theorem receive?_progress {sent : List Change} {l l' : Listener} {n : Notice}
    (h : receive? sent l = some (n, l')) :
    sent.length - l'.position < sent.length - l.position := by
  unfold receive? at h
  split at h
  · next hlag =>
    simp only [Option.some.injEq, Prod.mk.injEq] at h
    obtain ⟨_, rfl⟩ := h
    simp only [listeningCapacity] at *
    omega
  · obtain ⟨c, hc, h⟩ := Option.map_eq_some_iff.1 h
    simp only [Prod.mk.injEq] at h
    obtain ⟨_, rfl⟩ := h
    have := (List.getElem?_eq_some_iff.1 hc).1
    simp only
    omega

def drain (sent : List Change) (l : Listener) : List Notice × Listener :=
  match _h : receive? sent l with
  | none => ([], l)
  | some (notice, next) =>
    let (notices, last) := drain sent next
    (notice :: notices, last)
termination_by sent.length - l.position
decreasing_by exact receive?_progress (by assumption)

end Listener
end SnippetExpansion
