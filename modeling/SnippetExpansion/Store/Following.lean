import SnippetExpansion.Store.Basic
import SnippetExpansion.Store.Listening

/-!
# Following a store

A snapshot that is kept up to date by the changes a store tells of. After missed changes it is
read anew; where that fails it stays as it is.
-/
namespace SnippetExpansion

structure Follower where
  snapshot : Snapshot
  listener : Listener
  deriving Repr

namespace Follower

def start : StoreM Follower := do
  let s ← get
  let listener := Listener.subscribe s.sent
  let d ← Store.load
  pure ⟨.ofStoredData d, listener⟩

/-- What a snapshot becomes by a notice, the file being what it is. -/
def take (file : File) (snapshot : Snapshot) : Notice → Snapshot
  | .change c => snapshot.apply c
  | .lagged _ =>
    match file.data with
    | .ok d => .ofStoredData d
    | .error _ => snapshot

def step? (s : Store) (f : Follower) : Option Follower :=
  (f.listener.receive? s.sent).map fun (notice, listener) =>
    ⟨take s.file f.snapshot notice, listener⟩

def catchUp (s : Store) (f : Follower) : Follower :=
  let (notices, listener) := f.listener.drain s.sent
  ⟨notices.foldl (take s.file) f.snapshot, listener⟩

end Follower
end SnippetExpansion
