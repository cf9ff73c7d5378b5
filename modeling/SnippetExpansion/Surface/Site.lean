import SnippetExpansion.Surface.Basic

/-!
# Surfaces under watch

A surface together with all that has been done to it. It may be one that refuses to be written to.
-/
namespace SnippetExpansion

inductive Call where
  | write (text : Text) (caret : Option Nat)
  | placeCaret (offset : Nat)
  | dispatch (event : SurfaceEvent)
  deriving Repr, DecidableEq

structure Site where
  surface : Surface
  refusesWrites : Bool
  /-- All calls so far, in order, refused ones included. -/
  calls : List Call
  deriving Repr

namespace Site

def fresh (surface : Surface) (refusesWrites : Bool) : Site := ⟨surface, refusesWrites, []⟩

def accepts (s : Site) : Call → Bool
  | .write _ _ => !s.refusesWrites
  | _ => true

end Site

def Surface.perform (surface : Surface) : Call → Surface
  | .write text caret => surface.write text caret
  | .placeCaret offset => surface.placeCaret offset
  | .dispatch event => surface.dispatch event

namespace Site

def call (s : Site) (c : Call) : Site :=
  { s with
    surface := if s.accepts c then s.surface.perform c else s.surface
    calls := s.calls ++ [c] }

def outcome (s : Site) (c : Call) : Except Failure Unit :=
  if s.accepts c then .ok () else .error (.other "write refused".toList)

end Site
end SnippetExpansion
