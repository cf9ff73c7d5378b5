import SnippetExpansion.Surface.Rich

/-!
# Surfaces

Whatever text can be typed into: a plain field, a rich region, or a document embedded in another
one. An embedded document of another origin has no body that could be reached.
-/
namespace SnippetExpansion

structure EmbeddedDocument where
  body : Option RichRegion
  /-- Events go to the document and not to its body. -/
  events : List SurfaceEvent
  deriving Repr

inductive Surface where
  | plain (field : PlainField)
  | rich (region : RichRegion)
  | embedded (document : EmbeddedDocument)
  deriving Repr

namespace Surface

def kindName : Surface → Text
  | plain _ => "plain field".toList
  | rich _ => "rich region".toList
  | embedded _ => "embedded document".toList

def isEditable : Surface → Bool
  | plain f => !f.readOnly
  | rich r => r.isEditable
  | embedded d => d.body.any RichRegion.isEditable

def text : Surface → Text
  | plain f => f.value
  | rich r => r.text
  | embedded d => (d.body.map RichRegion.text).getD []

def write (text : Text) (caret : Option Nat) : Surface → Surface
  | plain f => plain (f.write text caret)
  | rich r => rich (r.write text caret)
  | embedded d => embedded { d with body := d.body.map (·.write text caret) }

def placeCaret (offset : Nat) : Surface → Surface
  | plain f => plain (f.placeCaret offset)
  | rich r => rich (r.placeCaret offset)
  | embedded d => embedded { d with body := d.body.map (·.placeCaret offset) }

def measure (text : Text) : Surface → Nat
  | plain _ => text.length
  | rich _ => RichRegion.measure text
  | embedded d => if d.body.isSome then RichRegion.measure text else text.length

def dispatch (event : SurfaceEvent) : Surface → Surface
  | plain f => plain { f with events := f.events ++ [event] }
  | rich r => rich { r with events := r.events ++ [event] }
  | embedded d => embedded { d with events := d.events ++ [event] }

def events : Surface → List SurfaceEvent
  | plain f => f.events
  | rich r => r.events
  | embedded d => d.events

def caretOffset : Surface → Option Nat
  | plain f => some f.caret
  | rich r => r.caretOffset
  | embedded d => d.body.bind RichRegion.caretOffset

end Surface
end SnippetExpansion
