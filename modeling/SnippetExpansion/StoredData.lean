import SnippetExpansion.Ai
import SnippetExpansion.Snippet

/-!
# The stored data

Everything that is kept between runs, and its JSON form. The text generation settings stand among
the other fields. Every part may be missing; fields of other names are read and dropped.
-/
namespace SnippetExpansion

structure StoredData where
  snippets : List Snippet
  categories : List Text
  vars : Variables
  ai : AiConfig
  deriving Repr, DecidableEq, Inhabited

namespace StoredData

def empty : StoredData := ⟨[], [], Dictionary.empty, AiConfig.empty⟩

end StoredData

namespace AiConfig

def keyField (name : String) : Option Text → List (Text × Json)
  | some key => [(name.toList, .string key)]
  | none => []

def toFields (config : AiConfig) : List (Text × Json) :=
  ("selectedProvider".toList, Json.ofOption (config.selected.map Provider.name))
    :: keyField "openaiApiKey" config.openaiKey ++ keyField "claudeApiKey" config.claudeKey
    ++ keyField "deepseekApiKey" config.deepseekKey

end AiConfig

namespace StoredData

def toJson (d : StoredData) : Json :=
  .object ([("snippets".toList, Snippet.listToJson d.snippets),
    ("categories".toList, .array (d.categories.map .string)),
    ("customVariables".toList, d.vars.toJson)] ++ d.ai.toFields)

def write (d : StoredData) : Text := d.toJson.pretty

end StoredData

namespace Provider

def variant (name : Text) : Except Mismatch Provider :=
  match named? name with
  | some provider => .ok provider
  | none => .error (.unknownVariant name (all.map Provider.name))

/-- A provider stands for itself or as the only name in an object, with nothing under it. -/
def ofJson : Json → Except Mismatch Provider
  | .string name => variant name
  | .object [(name, content)] => do
    let provider ← variant name
    match content with
    | .null | .object [] => .ok provider
    | _ => .error ((Reading.ofJson content).unfit "unit")
  | .object _ => .error (.wrongValue "map".toList "map with a single key".toList)
  | j => .error ((Reading.ofJson j).unfit "string or map")

def optionOfJson : Json → Except Mismatch (Option Provider)
  | .null => .ok none
  | j => some <$> ofJson j

end Provider

namespace AiConfig

structure Partial where
  selected : Option (Option Provider)
  openaiKey : Option (Option Text)
  claudeKey : Option (Option Text)
  deepseekKey : Option (Option Text)

def Partial.done (p : Partial) : AiConfig :=
  ⟨p.selected.join, p.openaiKey.join, p.claudeKey.join, p.deepseekKey.join⟩

def once {α β : Type} (name : Text) (old : Option β) (value : Except Mismatch α) :
    Except Mismatch α :=
  if old.isSome then .error (.duplicateField name) else value

def readField (p : Partial) (name : Text) (j : Json) : Except Mismatch Partial :=
  let key (old : Option (Option Text)) := once name old (Reading.ofJson j).optionalText
  if name = "selectedProvider".toList then do
    let selected ← once name p.selected (Provider.optionOfJson j)
    .ok { p with selected := some selected }
  else if name = "openaiApiKey".toList then do
    let key ← key p.openaiKey
    .ok { p with openaiKey := some key }
  else if name = "claudeApiKey".toList then do
    let key ← key p.claudeKey
    .ok { p with claudeKey := some key }
  else if name = "deepseekApiKey".toList then do
    let key ← key p.deepseekKey
    .ok { p with deepseekKey := some key }
  else .ok p

def ofFields (fields : List (Text × Json)) : Except Mismatch AiConfig := do
  let p ← fields.foldlM (fun p (name, j) => readField p name j) ⟨none, none, none, none⟩
  .ok p.done

end AiConfig

namespace StoredData

/-- The parts as far as they are read; `others` are the fields of other names. -/
structure Partial where
  snippets : Option (List Snippet)
  categories : Option (List Text)
  vars : Option Variables
  others : List (Text × Json)

def readField (p : Partial) (name : Option Text) (r : Reading) : Except Mismatch Partial :=
  match name with
  | none => .error .notJson
  | some name =>
    if name = "snippets".toList then do
      let snippets ← AiConfig.once name p.snippets (r.listOf Snippet.ofReading)
      .ok { p with snippets := some snippets }
    else if name = "categories".toList then do
      let categories ← AiConfig.once name p.categories (r.listOf Reading.text)
      .ok { p with categories := some categories }
    else if name = "customVariables".toList then do
      let vars ← AiConfig.once name p.vars r.dictionary
      .ok { p with vars := some vars }
    else match r.whole? (Json.maxLevels - 1) with
      | some j => .ok { p with others := p.others ++ [(name, j)] }
      | none => .error .notJson

def ofReading : Reading → Except Mismatch StoredData
  | .object fields closed => do
    let p ← fields.foldlM (fun p (name, r) => readField p name r) ⟨none, none, none, []⟩
    if !closed then .error .notJson
    else do
      let ai ← AiConfig.ofFields p.others
      .ok ⟨p.snippets.getD [], p.categories.getD [], p.vars.getD Dictionary.empty, ai⟩
  | r => .error (r.unfit "struct StoreData")

def parse (t : Text) : Except Mismatch StoredData := (Json.read t).decode ofReading

end StoredData
end SnippetExpansion
