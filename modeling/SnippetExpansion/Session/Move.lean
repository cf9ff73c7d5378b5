import SnippetExpansion.Snapshot
import SnippetExpansion.Surface.Site
import SnippetExpansion.Template.Expand

/-!
# Work on a surface

What is done to one surface in answer to an edit, move by move. Other work may go on in between,
and the snapshot may be another one each time it is looked at. All work shares the number of the
latest edit and a mark that a replacement is running.
-/
namespace SnippetExpansion

inductive Move where
  | outside (r : Request)
  | pause (milliseconds : Nat)
  | snapshot
  | text
  | editable
  | measure (text : Text)
  | call (c : Call)
  | registerEdit
  | latestEdit
  | busy
  | begin
  | finish
  deriving Repr, DecidableEq

def Move.Answer : Move → Type
  | outside r => r.Answer
  | pause _ => Unit
  | snapshot => Snapshot
  | text => Text
  | editable => Bool
  | measure _ => Nat
  | call _ => Except Failure Unit
  | registerEdit => Nat
  | latestEdit => Nat
  | busy => Bool
  | begin => Bool
  | finish => Unit

abbrev Work (α : Type) := Dialogue Move Move.Answer α

namespace Work

def outside (r : Request) : Work r.Answer := Dialogue.request (Move.outside r)
def pause (milliseconds : Nat) : Work Unit := Dialogue.request (Move.pause milliseconds)
def snapshot : Work Snapshot := Dialogue.request Move.snapshot
def text : Work Text := Dialogue.request Move.text
def editable : Work Bool := Dialogue.request Move.editable
def measure (t : Text) : Work Nat := Dialogue.request (Move.measure t)
def call (c : Call) : Work (Except Failure Unit) := Dialogue.request (Move.call c)
def registerEdit : Work Nat := Dialogue.request Move.registerEdit
def latestEdit : Work Nat := Dialogue.request Move.latestEdit
def busy : Work Bool := Dialogue.request Move.busy
def begin : Work Bool := Dialogue.request Move.begin
def finish : Work Unit := Dialogue.request Move.finish

/-- Answers one request of an expansion: waiting is a pause, and pressed keys are gathered. -/
def answer : (r : Request) → StateT (List Key) (Dialogue Move Move.Answer) r.Answer
  | .wait milliseconds => StateT.lift (pause milliseconds)
  | .press key => modify (· ++ [key])
  | .clipboard => StateT.lift (outside .clipboard)
  | .prompt label => StateT.lift (outside (.prompt label))
  | .generate provider key prompt => StateT.lift (outside (.generate provider key prompt))
  | .clock => StateT.lift (outside .clock)

def ofExpansion {α : Type} (e : Expansion α) : Work (α × List Key) := (e.interpret answer).run []

end Work
end SnippetExpansion
