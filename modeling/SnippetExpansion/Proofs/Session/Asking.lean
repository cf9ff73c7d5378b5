import SnippetExpansion.Session.Detection
import SnippetExpansion.Proofs.Protocol

/-! # What work asks for
Putting a snippet in asks for nothing that other work could notice, except through its surface: only before
and after it does a replacement touch the mark, and only an edit counts the edits. -/
namespace SnippetExpansion

/-- Neither the mark nor the number of the latest edit has to do with this move. -/
def Move.Plain : Move → Prop
  | .registerEdit | .latestEdit | .busy | .begin | .finish => False
  | _ => True

/-- The surface is asked nothing by this move, and told no more than of an event. -/
def Move.Quiet : Move → Prop
  | .outside _ | .pause _ | .snapshot | .call (.dispatch _) => True
  | _ => False

theorem Move.Quiet.plain {m : Move} (h : m.Quiet) : m.Plain := by
  cases m with
  | registerEdit => cases h
  | latestEdit => cases h
  | busy => cases h
  | begin => cases h
  | finish => cases h
  | _ => trivial

namespace Work

open Dialogue

theorem answer_asks (r : Request) (keys : List Key) :
    ((answer r).run keys).AsksOnly Move.Quiet fun _ => True := by
  cases r with
  | press key => exact asksOnly_pure trivial
  | _ => exact (asksOnly_request trivial).bind fun _ _ => asksOnly_pure trivial

theorem interpret_asks {α : Type} (e : Expansion α) (keys : List Key) :
    ((e.interpret answer).run keys).AsksOnly Move.Quiet fun _ => True := by
  induction e generalizing keys with
  | done a => exact asksOnly_pure trivial
  | ask r resume ih => exact (answer_asks r keys).bind fun (reply, gathered) _ => ih reply gathered

theorem writeOut_asks (current : Text) (caret : Option Nat) :
    (writeOut current caret).AsksOnly Move.Plain fun _ => True :=
  (asksOnly_request trivial).bind fun _ _ =>
    (asksOnly_request trivial).bind fun _ _ =>
      (asksOnly_request trivial).bind fun _ _ => asksOnly_pure trivial

theorem pressAll_asks (keys : List Key) :
    (pressAll keys).AsksOnly Move.Quiet fun _ => True := by
  induction keys with
  | nil => exact asksOnly_pure trivial
  | cons key keys ih => exact (asksOnly_request trivial).bind fun _ _ => ih

theorem tokenText_asks (maxDepth : Nat) (token : Text) :
    (tokenText maxDepth token).AsksOnly Move.Quiet fun _ => True := by
  refine (asksOnly_request trivial).bind fun s _ => ?_
  refine (interpret_asks (execute s maxDepth token) []).bind fun (value, keys) _ => ?_
  exact (pressAll_asks keys).bind fun _ _ => asksOnly_pure trivial

theorem addPieces_asks (maxDepth : Nat) (pieces : List (Piece Unit)) (current : Text)
    (caret : Option Nat) :
    (addPieces maxDepth current caret pieces).AsksOnly Move.Plain fun r => current <+: r.1 := by
  induction pieces generalizing current caret with
  | nil => exact asksOnly_pure List.prefix_rfl
  | cons piece rest ih =>
    have hadded (added : Text) (caret : Option Nat) : (addPieces maxDepth (current ++ added) caret
        rest).AsksOnly Move.Plain fun r => current <+: r.1 :=
      (ih (current ++ added) caret).imp (fun _ h => h) fun _ h =>
        (List.prefix_append current added).trans h
    cases piece with
    | plain t => exact (writeOut_asks _ _).bind fun _ _ => hadded t caret
    | found token found =>
      rw [addPieces]
      split
      · exact (asksOnly_request trivial).bind fun offset _ => ih current (some offset)
      · have htoken : (tokenText maxDepth token).AsksOnly Move.Plain fun _ => True :=
          (tokenText_asks maxDepth token).imp (fun _ => Move.Quiet.plain) fun _ h => h
        refine htoken.bind fun value _ => ?_
        exact (writeOut_asks _ _).bind fun _ _ => hadded value caret

def putIn (maxDepth : Nat) (s : Snippet) : Work (Text × Option Nat) := do
  let typed ← text
  let (current, caret) ← addPieces maxDepth (kept typed s.shortcut) none (Segment.all s.text)
  match caret with
  | some offset => do
    let _ ← call (.placeCaret offset)
    pure (current, caret)
  | none => pure (current, caret)

theorem putIn_asks (maxDepth : Nat) (s : Snippet) :
    (putIn maxDepth s).AsksOnly Move.Plain fun _ => True := by
  refine (asksOnly_request trivial).bind fun typed _ => ?_
  refine (addPieces_asks maxDepth _ _ none).bind fun (current, caret) _ => ?_
  cases caret with
  | none => exact asksOnly_pure trivial
  | some offset => exact (asksOnly_request trivial).bind fun _ _ => asksOnly_pure trivial

theorem replace_eq (maxDepth : Nat) (s : Snippet) :
    replace maxDepth s = begin >>= fun granted =>
      if granted then putIn maxDepth s >>= fun (current, caret) =>
        finish >>= fun _ => pure (.replaced current caret)
      else pure .dropped := by
  rw [replace]
  refine congrArg (begin >>= ·) (funext fun granted => ?_)
  cases granted with
  | false => rfl
  | true =>
    simp only [putIn, bind_assoc, if_true]
    refine congrArg (text >>= ·) (funext fun typed => ?_)
    refine congrArg (addPieces _ _ _ _ >>= ·) (funext fun (current, caret) => ?_)
    cases caret <;> rfl

end Work
end SnippetExpansion
