import SnippetExpansion.Snapshot
import SnippetExpansion.Template.Command
import SnippetExpansion.Template.Placeholder

/-!
# Resolving placeholders

One pass over a text for one kind of bracket. A key is a command, else a variable, else the user
is asked. Equal placeholders of one text are resolved once. A value that holds more placeholders
is passed over again, to a limited depth, unless it came from outside.
-/
namespace SnippetExpansion

namespace Snapshot

def runCommand (s : Snapshot) (command : Command) (argument : Text) : Expansion Text := do
  match ← command.run s.ai argument with
  | .ok text => pure text
  | .error _ => pure []

/-- The value of one placeholder. It stands for itself when it has no argument to ask with, and when
the question is not answered. -/
def resolve (s : Snapshot) (p : Placeholder) : Expansion Text :=
  match Command.lookup? p.key with
  | some command => s.runCommand command p.argumentOrEmpty
  | none =>
    match s.vars.find? p.key with
    | some value => pure value
    | none =>
      match p.argument with
      | none => pure p.text
      | some label => do
        let reply ← Expansion.prompt label
        pure (reply.getD p.text)

end Snapshot

def Placeholder.isLiteral (p : Placeholder) : Bool :=
  (Command.lookup? p.key).any Command.outputIsLiteral

/-- Whether a value is passed over again: not where it comes from outside, nor where the placeholder
stands for itself. -/
def Placeholder.rescans (b : Bracket) (p : Placeholder) (value : Text) : Bool :=
  !p.isLiteral && value != p.text && occursIn b value

/-- Resolves the pieces of a text in order. `known` holds the values found so far, by placeholder,
and `again` passes over a value. -/
def resolvePieces (s : Snapshot) (b : Bracket) (again : Text → Expansion Text)
    (known : List (Text × Text)) : List (Piece Placeholder) → Expansion Text
  | [] => pure []
  | .plain t :: rest => do
    let more ← resolvePieces s b again known rest
    pure (t ++ more)
  | .found t p :: rest =>
    if !p.resolvedIn b then do
      let more ← resolvePieces s b again known rest
      pure (t ++ more)
    else
      match known.lookup t with
      | some value => do
        let more ← resolvePieces s b again known rest
        pure (value ++ more)
      | none => do
        let first ← s.resolve p
        let value ← if p.rescans b first then again first else pure first
        let more ← resolvePieces s b again ((t, value) :: known) rest
        pure (value ++ more)

def resolveLevels (s : Snapshot) (b : Bracket) : Nat → Text → Expansion Text
  | 0, t => pure t
  | levels + 1, t => resolvePieces s b (resolveLevels s b levels) [] (Placeholder.pieces b t)

/-- Resolves a text that stands `depth` passes deep. The first pass is always made. -/
def resolveText (s : Snapshot) (maxDepth : Nat) (b : Bracket) (depth : Nat) (t : Text) :
    Expansion Text :=
  resolveLevels s b (maxDepth - (depth + 1) + 1) t

end SnippetExpansion
