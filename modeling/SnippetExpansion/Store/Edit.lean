import SnippetExpansion.Ids
import SnippetExpansion.Store.Basic

/-!
# Changing what is stored

One operation for each thing a user does to snippets, categories, variables and settings.
-/
namespace SnippetExpansion.Store

def config {α : Type} (reason : String) : StoreM α := throw (.config reason.toList)

def loadSnippets : StoreM (List Snippet) := (·.snippets) <$> load
def loadCategories : StoreM (List Text) := (·.categories) <$> load
def loadVariables : StoreM Variables := (·.vars) <$> load
def loadAi : StoreM AiConfig := (·.ai) <$> load

/-- Whether another snippet has the shortcut. A snippet without identifier is another one to all. -/
def shortcutTaken (snippets : List Snippet) (s : Snippet) : Bool :=
  snippets.any fun other => other.shortcut = s.shortcut && (s.id.isEmpty || other.id != s.id)

/-- The snippets with this one in the place of the one it updates. One that updates none goes to
the end under a new identifier. -/
def placeSnippet (ids : IdSource) (issued : List Text) (snippets : List Snippet) (s : Snippet) :
    Snippet × List Snippet × List Text :=
  match snippets.findIdx? fun other => !s.id.isEmpty && other.id = s.id with
  | some index => (s, snippets.set index s, [])
  | none =>
    let id := ids.next (issued ++ snippets.map (·.id))
    let s := { s with id }
    (s, snippets ++ [s], [id])

def withCategory (categories : List Text) (category : Option Text) : Option (List Text) :=
  match category with
  | some c => if c.isEmpty || categories.contains c then none else some (categories ++ [c])
  | none => none

def saveSnippet (ids : IdSource) (s : Snippet) : StoreM Snippet :=
  if Text.isBlank s.shortcut then config "shortcut must not be empty"
  else do
    let d ← load
    if shortcutTaken d.snippets s then throw (.duplicateShortcut s.shortcut)
    else do
      let (saved, snippets, made) := placeSnippet ids (← get).issued d.snippets s
      issue made
      let added := withCategory d.categories s.category
      write { d with snippets, categories := added.getD d.categories }
      notify (.snippets snippets)
      match added with
      | some categories => notify (.categories categories)
      | none => pure ()
      pure saved

def deleteSnippet (id : Text) : StoreM Unit := do
  let d ← load
  let snippets := d.snippets.filter (·.id ≠ id)
  if snippets.length = d.snippets.length then throw (.notFound (Failure.naming "snippet" id))
  else do
    write { d with snippets }
    notify (.snippets snippets)

def replaceSnippets (snippets : List Snippet) : StoreM Unit := do
  let d ← load
  write { d with snippets }
  notify (.snippets snippets)

def saveCategory (name : Text) : StoreM Unit :=
  let category := Text.trim name
  if category.isEmpty then config "category must not be empty"
  else do
    let d ← load
    if d.categories.contains category then pure ()
    else do
      let categories := d.categories ++ [category]
      write { d with categories }
      notify (.categories categories)

/-- The variables without an old name that is another one than the new. -/
def withoutOld (vars : Variables) (name : Text) (oldName : Option Text) : Variables :=
  match oldName.map Variables.cleanName with
  | some old => if old = name then vars else vars.erase old
  | none => vars

def saveVariable (name value : Text) (oldName : Option Text) : StoreM Unit :=
  let clean := Variables.cleanName name
  if Text.isBlank clean then config "variable name must not be empty"
  else do
    let d ← load
    let vars := (withoutOld d.vars clean oldName).insert clean value
    write { d with vars }
    notify (.vars vars)

def deleteVariable (name : Text) : StoreM Unit := do
  let clean := Variables.cleanName name
  let d ← load
  if d.vars.contains clean then do
    let vars := d.vars.erase clean
    write { d with vars }
    notify (.vars vars)
  else throw (.notFound (Failure.naming "variable" clean))

def replaceVariables (vars : Variables) : StoreM Unit := do
  let d ← load
  write { d with vars }
  notify (.vars vars)

def saveAi (ai : AiConfig) : StoreM Unit :=
  match ai.selected.filter fun provider => (ai.key provider).isNone with
  | some provider =>
    throw (.config
      (Failure.naming "an API key is required for the selected provider" provider.name))
  | none => do
    let d ← load
    write { d with ai }
    notify (.ai ai)

end SnippetExpansion.Store
