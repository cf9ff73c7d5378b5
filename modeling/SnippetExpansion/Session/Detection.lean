import SnippetExpansion.Session.Replacement
import SnippetExpansion.Trigger

/-!
# Detecting shortcuts

After an edit there is a quiet time. If no other edit comes in it, the text is looked at, and a
shortcut at its end is replaced.
-/
namespace SnippetExpansion

inductive Detection where
  | superseded
  | busy
  | notEditable
  | noMatch
  | replaced (shortcut text : Text)
  deriving Repr, DecidableEq

inductive Action where
  | edit
  | replace (snippet : Snippet)
  deriving Repr, DecidableEq

inductive Outcome where
  | edit (detection : Detection)
  | replace (replacement : Replacement)
  deriving Repr, DecidableEq

namespace Work

def detect (settings : Settings) : Work Detection := do
  let current ← text
  let s ← snapshot
  match findTrigger settings.policy current s.snippets with
  | none => pure .noMatch
  | some snippet =>
    match ← replace settings.maxDepth snippet with
    | .replaced text _ => pure (.replaced snippet.shortcut text)
    | .dropped => pure .busy

def onEdit (settings : Settings) : Work Detection := do
  let number ← registerEdit
  pause settings.debounce
  let latest ← latestEdit
  if latest ≠ number then pure .superseded
  else if ← busy then pure .busy
  else if ← editable then detect settings
  else pure .notEditable

end Work

/-- The work of an action that starts after some milliseconds. -/
def Action.work (settings : Settings) (after : Nat) (action : Action) : Work Outcome := do
  Work.pause after
  match action with
  | edit =>
    let detection ← Work.onEdit settings
    pure (.edit detection)
  | replace snippet =>
    let replacement ← Work.replace settings.maxDepth snippet
    pure (.replace replacement)

end SnippetExpansion
