import SnippetExpansion.Failure
import SnippetExpansion.Text.Blank

/-!
# Snippets and variables

A snippet binds a template to a shortcut. A variable is a named text.
-/
namespace SnippetExpansion

structure Snippet where
  id : Text
  shortcut : Text
  text : Text
  category : Option Text
  deriving Repr, DecidableEq, Inhabited

abbrev Variables := Dictionary Text

namespace Snippet

def preview (template : Text) (limit : Nat) : Text :=
  let flat := template.map fun c => if c = '\n' then ' ' else c
  if flat.length > limit then flat.take limit ++ "...".toList else flat

def withShortcut? (snippets : List Snippet) (shortcut : Text) : Option Snippet :=
  snippets.find? (·.shortcut = shortcut)

def record : Record :=
  ⟨"Snippet".toList,
    [.defaulted "id", .required "shortcut", .required "text", .optional "category"]⟩

def ofFields : List (Option Text) → Snippet
  | [some id, some shortcut, some text, category] => ⟨id, shortcut, text, category⟩
  | _ => default

def ofReading (r : Reading) : Except Mismatch Snippet := ofFields <$> record.decode .text r

def ofJson (j : Json) : Except Mismatch Snippet := ofFields <$> record.decodeValue j

def toJson (s : Snippet) : Json :=
  .object ([("id".toList, .string s.id), ("shortcut".toList, .string s.shortcut),
    ("text".toList, .string s.text)]
    ++ match s.category with
      | some category => [("category".toList, .string category)]
      | none => [])

def listToJson (snippets : List Snippet) : Json := .array (snippets.map toJson)

end Snippet

namespace Variables

def cleanName (name : Text) : Text := name.filter fun c => c != '\x7b' && c != '\x7d'

def toJson (vars : Variables) : Json :=
  .object (vars.entries.map fun e => (e.1, .string e.2))

end Variables
end SnippetExpansion
