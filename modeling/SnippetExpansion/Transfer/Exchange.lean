import SnippetExpansion.Snippet

/-!
# The exchange format

Snippets travel as a JSON array of objects, variables as a JSON object of strings.
-/
namespace SnippetExpansion

def readImport (t : Text) : Except Failure Json :=
  match Json.parse? t with
  | some j => .ok j
  | none => .error (.badImport ("not valid JSON: ".toList ++ Mismatch.notJson.message))

namespace Snippet

def exportText (snippets : List Snippet) : Text := (listToJson snippets).pretty

def ordinal (number : Nat) : Text := "snippet #".toList ++ Text.ofNat number

/-- The snippets among these values, counted from `number` on. None may have a blank shortcut. -/
def ofImported (number : Nat) : List Json → Except Failure (List Snippet)
  | [] => .ok []
  | j :: rest =>
    match ofJson j with
    | .error mismatch =>
      .error (.badImport (ordinal number ++ " is malformed: ".toList ++ mismatch.message))
    | .ok s =>
      if Text.isBlank s.shortcut then
        .error (.badImport (ordinal number ++ " has an empty shortcut".toList))
      else do
        let more ← ofImported (number + 1) rest
        .ok (s :: more)

def parseImport (t : Text) : Except Failure (List Snippet) := do
  match ← readImport t with
  | .array items => ofImported 1 items
  | _ => .error (.badImport "expected a JSON array of snippets".toList)

end Snippet

namespace Variables

def exportText (vars : Variables) : Text := vars.toJson.pretty

def ofImported : List (Text × Json) → Except Failure (List (Text × Text))
  | [] => .ok []
  | (name, .string value) :: rest => do
    let more ← ofImported rest
    .ok ((name, value) :: more)
  | (name, _) :: _ =>
    .error (.badImport (Failure.naming "variable" name ++ " must be a string".toList))

/-- Of fields with one name the last counts, and they are looked at in order of names. -/
def parseImport (t : Text) : Except Failure Variables := do
  match ← readImport t with
  | .object fields => Dictionary.ofList <$> ofImported (Dictionary.ofList fields).entries
  | _ => .error (.badImport "expected a JSON object of variables".toList)

end Variables
end SnippetExpansion
