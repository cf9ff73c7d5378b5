import SnippetExpansion.Session.Move
import SnippetExpansion.Settings
import SnippetExpansion.Template.Segment

/-!
# Replacing a shortcut

A typed shortcut gives way to its snippet piece by piece, and the whole text is written anew after
each piece. Only one replacement runs at a time; another one that is asked for meanwhile is
dropped.
-/
namespace SnippetExpansion

inductive Replacement where
  | replaced (text : Text) (caret : Option Nat)
  | dropped
  deriving Repr, DecidableEq

namespace Work

/-- Writes the text so far and tells of it. A write that is refused changes nothing else. -/
def writeOut (current : Text) (caret : Option Nat) : Work Unit := do
  let _ ← call (.write current caret)
  let _ ← call (.dispatch .input)
  let _ ← call (.dispatch .change)

def pressAll : List Key → Work Unit
  | [] => pure ()
  | key :: keys => do
    let _ ← call (.dispatch (.keyDown key))
    pressAll keys

/-- The text of one token. The keys it pressed go to the surface first. -/
def tokenText (maxDepth : Nat) (token : Text) : Work Text := do
  let s ← snapshot
  let (value, keys) ← ofExpansion (execute s maxDepth token)
  pressAll keys
  pure value

def addPieces (maxDepth : Nat) (current : Text) (caret : Option Nat) :
    List (Piece Unit) → Work (Text × Option Nat)
  | [] => pure (current, caret)
  | .plain t :: rest => do
    writeOut (current ++ t) caret
    addPieces maxDepth (current ++ t) caret rest
  | .found token _ :: rest =>
    if isCursorMarker token then do
      let offset ← measure current
      addPieces maxDepth current (some offset) rest
    else do
      let value ← tokenText maxDepth token
      writeOut (current ++ value) caret
      addPieces maxDepth (current ++ value) caret rest

def kept (text shortcut : Text) : Text := text.take (text.length - shortcut.length)

/-- Puts the snippet in the place of the shortcut that ends the surface's text. -/
def replace (maxDepth : Nat) (s : Snippet) : Work Replacement := do
  if ← begin then
    let typed ← text
    let (current, caret) ←
      addPieces maxDepth (kept typed s.shortcut) none (Segment.all s.text)
    if let some offset := caret then
      let _ ← call (.placeCaret offset)
    finish
    pure (.replaced current caret)
  else pure .dropped

end Work
end SnippetExpansion
