import SnippetExpansion.Markup.Parser
import SnippetExpansion.Surface.Plain

/-!
# Rich text regions

A region that holds markup. What is written into it is read as markup; what is read from it is its
text content, in whose characters offsets count.
-/
namespace SnippetExpansion

inductive Editing where
  | region
  | design
  | none
  deriving Repr, DecidableEq

/-- A place in a text of the region, the texts counted in document order. -/
structure Caret where
  node : Nat
  offset : Nat
  deriving Repr, DecidableEq

structure RichRegion where
  children : List Node
  editing : Editing
  caret : Option Caret
  events : List SurfaceEvent
  deriving Repr

namespace Caret

/-- The place `offset` characters into these texts, the first of them being number `node`: in the
first text that reaches that far. -/
def locateFrom (node offset : Nat) : List Text → Option Caret
  | [] => none
  | t :: rest =>
    if offset ≤ t.length then some ⟨node, offset⟩
    else locateFrom (node + 1) (offset - t.length) rest

end Caret

namespace RichRegion

def empty (editing : Editing) : RichRegion := ⟨[], editing, none, []⟩

def text (r : RichRegion) : Text := Node.textContent r.children

def html (r : RichRegion) : Text := Node.writeAll r.children

def isEditable (r : RichRegion) : Bool := r.editing != .none

def locate (r : RichRegion) (offset : Nat) : Option Caret :=
  Caret.locateFrom 0 offset (Node.textsOfAll r.children)

def caretOffset (r : RichRegion) : Option Nat :=
  r.caret.map fun c =>
    Text.totalLength ((Node.textsOfAll r.children).take c.node) + c.offset

/-- Behind the last text there is no place, and the caret stays. -/
def placeCaret (r : RichRegion) (offset : Nat) : RichRegion :=
  { r with caret := (r.locate offset).or r.caret }

def load (r : RichRegion) (markup : Text) : RichRegion :=
  let r := { r with children := Markup.parse markup }
  { r with caret := r.locate r.text.length }

def write (r : RichRegion) (markup : Text) (caret : Option Nat) : RichRegion :=
  match caret with
  | some offset => (r.load markup).placeCaret offset
  | none => r.load markup

def measure (markup : Text) : Nat := (Node.textContent (Markup.parse markup)).length

end RichRegion
end SnippetExpansion
