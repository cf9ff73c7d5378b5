import SnippetExpansion.Change
import SnippetExpansion.Session.Detection

/-!
# Sessions

Surfaces that share one snapshot and one clock, which goes on only in pauses.
-/
namespace SnippetExpansion

structure Session where
  settings : Settings
  snapshot : Snapshot
  sites : List Site
  clock : Nat
  /-- The number of the latest edit. It does not wrap: fewer than `2 ^ 64` edits are made. -/
  edits : Nat
  replacing : Bool

namespace Session

def start (settings : Settings) (snapshot : Snapshot) (sites : List Site) : Session :=
  ⟨settings, snapshot, sites, 0, 0, false⟩

/-- The surface with a number; there is an empty field behind the last one. -/
def site (s : Session) (index : Nat) : Site :=
  s.sites[index]?.getD (Site.fresh (.plain .empty) false)

def onSite (s : Session) (index : Nat) (f : Site → Site) : Session :=
  { s with sites := s.sites.modify index f }

variable {M : Type → Type} [Monad M]

def pass (milliseconds : Nat) : StateT Session M Unit :=
  modify fun s => { s with clock := s.clock + milliseconds }

def call (index : Nat) (c : Call) : StateT Session M (Except Failure Unit) :=
  modifyGet fun s => ((s.site index).outcome c, s.onSite index (·.call c))

/-- Sets the mark of a running replacement; gives whether it was not set. -/
def mark : StateT Session M Bool := modifyGet fun s => (!s.replacing, { s with replacing := true })

/-- Makes one move on a surface. What the session does not know itself `outside` answers. -/
def perform (outside : (r : Request) → M r.Answer) (index : Nat) :
    (m : Move) → StateT Session M m.Answer
  | .outside r => StateT.lift (outside r)
  | .pause milliseconds => pass milliseconds
  | .snapshot => (·.snapshot) <$> get
  | .text => (·.site index |>.surface.text) <$> get
  | .editable => (·.site index |>.surface.isEditable) <$> get
  | .measure t => (·.site index |>.surface.measure t) <$> get
  | .call c => call index c
  | .registerEdit => modifyGet fun s => (s.edits + 1, { s with edits := s.edits + 1 })
  | .latestEdit => (·.edits) <$> get
  | .busy => (·.replacing) <$> get
  | .begin => mark
  | .finish => modify fun s => { s with replacing := false }

end Session
end SnippetExpansion
