import SnippetExpansion.Session.Basic

/-!
# Scenes

A session in a world of which all is known beforehand.
-/
namespace SnippetExpansion

structure Scene where
  session : Session
  world : Surroundings

namespace Scene

def perform (index : Nat) (m : Move) : StateM Scene m.Answer := fun scene =>
  let ((answer, session), world) :=
    ((Session.perform Surroundings.answer index m).run scene.session).run scene.world
  (answer, ⟨session, world⟩)

/-- Does work on a surface while nothing else goes on. -/
def run {α : Type} (index : Nat) (work : Work α) : StateM Scene α := work.interpret (perform index)

def onSession {α : Type} (m : StateM Session α) : StateM Scene α := fun scene =>
  let (a, session) := m.run scene.session
  (a, { scene with session })

def expansion {α : Type} (e : Expansion α) : StateM Scene α := fun scene =>
  let (a, world) := scene.world.run e
  (a, { scene with world })

end Scene
end SnippetExpansion
