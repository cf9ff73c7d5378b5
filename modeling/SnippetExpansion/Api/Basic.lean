import SnippetExpansion.Api.Route
import SnippetExpansion.Settings
import SnippetExpansion.Store.Following
import SnippetExpansion.Template.Expand
import SnippetExpansion.Transfer.Import

/-!
# The HTTP interface

Serving requests from a store and a snapshot that follows it. Every route answers with JSON that
says whether it worked, and with what came of it or what went wrong.
-/
namespace SnippetExpansion

structure Api where
  store : Store
  follower : Follower

/-- What a request comes to, where expanding may ask the world around. -/
abbrev ApiM (α : Type) := StateT Api (Dialogue Request Request.Answer) α

inductive Content where
  | none
  | text (content : Text)
  | json (content : Json)

structure HttpResponse where
  status : Nat
  content : Content

namespace Content

def type : Content → Text
  | none => []
  | text _ => "text/plain; charset=utf-8".toList
  | json _ => "application/json".toList

end Content

def Refusal.response : Refusal → HttpResponse
  | notFound => ⟨404, .none⟩
  | methodNotAllowed => ⟨405, .text "HTTP method not allowed".toList⟩
  | badQuery => ⟨400, .text "Invalid query string".toList⟩
  | unsupportedType => ⟨415, .text "The request's content-type is not supported".toList⟩
  | badBody mismatch =>
    ⟨400, .text ("Request body deserialize error: ".toList ++ mismatch.message)⟩

def Report.toJson (r : Report) : Json :=
  .object [("imported".toList, .number (.integer r.imported)),
    ("conflicts".toList, .number (.integer r.conflicts))]

namespace Store

/-- Adds a snippet under an identifier of its own, whatever it came with. -/
def addSnippet (ids : IdSource) (s : Snippet) : StoreM Snippet :=
  saveSnippet ids { s with id := [] }

def updateSnippet (ids : IdSource) (s : Snippet) : StoreM Snippet := do
  let snippets ← loadSnippets
  if snippets.any fun other => !s.id.isEmpty && other.id = s.id then saveSnippet ids s
  else throw (.notFound (Failure.naming "snippet" s.id))

def policy : Option Text → StoreM ConflictPolicy
  | some name => MonadExcept.ofExcept (ConflictPolicy.parse name)
  | none => pure .keepExisting

def importText (content : Utf8.Bytes) : StoreM Text :=
  match Utf8.decode content with
  | .ok t => pure t
  | .error fault =>
    throw (.badImport ("body is not valid UTF-8: ".toList ++ fault.message))

end Store

namespace Api

def start (store : Store) : Except Failure Api :=
  match Follower.start.run store with
  | (.ok follower, store) => .ok ⟨store, follower⟩
  | (.error failure, _) => .error failure

def success (data : Json) : Json :=
  .object [("success".toList, .bool true), ("data".toList, data), ("error".toList, .null)]

def failed (message : Text) : Json :=
  .object [("success".toList, .bool false), ("data".toList, .null),
    ("error".toList, .string message)]

def onStore {α : Type} (what : String) (toJson : α → Json) (m : StoreM α) : ApiM Json := do
  let api ← get
  let (result, store) := m.run api.store
  set { api with store }
  match result with
  | .ok a => pure (success (toJson a))
  | .error failure =>
    pure (failed ("Failed to ".toList ++ what.toList ++ ": ".toList ++ failure.message))

def unitJson (_ : Unit) : Json := .null

/-- Expands against the snapshot. The keys that are pressed go nowhere. -/
def expandTemplate (settings : Settings) (template : Text) : ApiM Json := do
  let api ← get
  let text ← StateT.lift (expand api.follower.snapshot settings.maxDepth template)
  pure (success (.string text))

def serve (ids : IdSource) (settings : Settings) : Route → ApiM Content
  | .health => pure (.text "Quickfill API is running".toList)
  | .listSnippets => .json <$> onStore "load snippets" Snippet.listToJson Store.loadSnippets
  | .addSnippet s => .json <$> onStore "add snippet" Snippet.toJson (Store.addSnippet ids s)
  | .updateSnippet s =>
    .json <$> onStore "update snippet" Snippet.toJson (Store.updateSnippet ids s)
  | .deleteSnippet id => .json <$> onStore "delete snippet" unitJson (Store.deleteSnippet id)
  | .listCategories =>
    .json <$> onStore "load categories" (fun l => .array (l.map .string)) Store.loadCategories
  | .addCategory name => .json <$> onStore "add category" unitJson (Store.saveCategory name)
  | .listVariables => .json <$> onStore "load variables" Variables.toJson Store.loadVariables
  | .setVariable name value oldName =>
    .json <$> onStore "save variable" unitJson (Store.saveVariable name value oldName)
  | .deleteVariable name =>
    .json <$> onStore "delete variable" unitJson (Store.deleteVariable name)
  | .expand template => .json <$> expandTemplate settings template
  | .exportSnippets =>
    .json <$> onStore "export snippets" (.string ∘ Snippet.exportText) Store.loadSnippets
  | .exportVariables =>
    .json <$> onStore "export variables" (.string ∘ Variables.exportText) Store.loadVariables
  | .importSnippets policy content =>
    .json <$> onStore "import snippets" Report.toJson do
      let policy ← Store.policy policy
      let content ← Store.importText content
      Store.importSnippets ids content policy
  | .importVariables policy content =>
    .json <$> onStore "import variables" Report.toJson do
      let policy ← Store.policy policy
      let content ← Store.importText content
      Store.importVariables content policy

def catchUp (api : Api) : Api := { api with follower := api.follower.catchUp api.store }

def handle (ids : IdSource) (settings : Settings) (r : HttpRequest) : ApiM HttpResponse := do
  let response ← match Route.ofRequest r with
    | .ok route => HttpResponse.mk 200 <$> serve ids settings route
    | .error refusal => pure refusal.response
  modify catchUp
  pure response

end Api
end SnippetExpansion
