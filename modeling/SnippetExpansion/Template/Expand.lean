import SnippetExpansion.Template.Resolve
import SnippetExpansion.Template.Segment

/-!
# Expanding templates

A whole template is expanded in three passes: square brackets, names in braces without argument,
braces with argument. A single token, as it comes up while typing, goes through its innermost
command first.
-/
namespace SnippetExpansion

/-- The value of a name in braces: a variable, else a command without argument, else itself. -/
def bareValue (s : Snapshot) (p : Placeholder) : Expansion Text :=
  match s.vars.find? p.key with
  | some value => pure value
  | none =>
    match Command.lookup? p.key with
    | some command => s.runCommand command []
    | none => pure p.text

def substituteBare (s : Snapshot) : List (Piece Placeholder) → Expansion Text
  | [] => pure []
  | .plain t :: rest => do
    let more ← substituteBare s rest
    pure (t ++ more)
  | .found t p :: rest => do
    let value ← if p.argument.isSome then pure t else bareValue s p
    let more ← substituteBare s rest
    pure (value ++ more)

def expand (s : Snapshot) (maxDepth : Nat) (template : Text) : Expansion Text := do
  let text ← resolveText s maxDepth .square 0 template
  let text ← substituteBare s (Placeholder.pieces .curly text)
  resolveText s maxDepth .curly 0 text

/-- Stands in for text from outside while the token around it is read. -/
def literalMask : Text := ['\x00']

/-- Resolves only the placeholder around `inner`, with `value` in the place of `inner`. Nothing in
`value` is read as a placeholder. -/
def resolveAround (s : Snapshot) (token inner value : Text) : Expansion Text :=
  let masked := Text.replaceFirst inner literalMask token
  let unmask := Text.replaceAll literalMask value
  match Placeholder.enclosing? literalMask masked with
  | none => pure (unmask masked)
  | some (before, p, after) => do
    let resolved ← s.resolve ⟨unmask p.text, p.key, p.argument.map unmask⟩
    pure (unmask (before ++ resolved ++ after))

/-- The text of one token. A token whose first placeholder is a command runs that command; where
more stands around it, the rest is resolved with the command's text in its place. Any other token
is expanded as a template. -/
def execute (s : Snapshot) (maxDepth : Nat) (token : Text) : Expansion Text :=
  match Placeholder.first? token with
  | none => pure token
  | some p =>
    match Command.lookup? p.key with
    | none => expand s maxDepth token
    | some command => do
      let value ← s.runCommand command p.argumentOrEmpty
      if p.text = token then pure value
      else if command.outputIsLiteral then resolveAround s token p.text value
      else expand s maxDepth (Text.replaceFirst p.text value token)

end SnippetExpansion
