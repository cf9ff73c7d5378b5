import SnippetExpansion.Api.MediaType
import SnippetExpansion.Api.Query
import SnippetExpansion.Snippet

/-!
# Routes

What a client can ask for over HTTP, and how a request says it. A request that says nothing of the
kind is refused, for the first reason in this order: its path, its method, its query, the type of
its body, its body.
-/
namespace SnippetExpansion

structure HttpRequest where
  method : Text
  target : Text
  contentType : Option Text
  body : Utf8.Bytes

inductive Route where
  | health
  | listSnippets
  | addSnippet (snippet : Snippet)
  | updateSnippet (snippet : Snippet)
  | deleteSnippet (id : Text)
  | listCategories
  | addCategory (name : Text)
  | listVariables
  | setVariable (name value : Text) (oldName : Option Text)
  | deleteVariable (name : Text)
  | expand (template : Text)
  | exportSnippets
  | exportVariables
  | importSnippets (policy : Option Text) (content : Utf8.Bytes)
  | importVariables (policy : Option Text) (content : Utf8.Bytes)

inductive Refusal where
  | notFound
  | methodNotAllowed
  | badQuery
  | unsupportedType
  | badBody (mismatch : Mismatch)
  deriving DecidableEq

namespace HttpRequest

/-- The body as JSON of some shape. Without a type it is taken to be JSON. -/
def json {α : Type} (r : HttpRequest) (shape : Reading → Except Mismatch α) : Except Refusal α :=
  if r.contentType.all fun t => MediaType.parse? t = some .json then
    ((Json.read (Utf8.decodeJson r.body)).decode shape).mapError .badBody
  else .error .unsupportedType

def record (r : HttpRequest) (title : String) (fields : List Field) :
    Except Refusal (List (Option Text)) :=
  r.json (Record.decode ⟨title.toList, fields⟩ .text)

end HttpRequest

namespace Query

def optional (query : List (Text × Text)) (name : String) : Except Refusal (Option Text) :=
  (single query name.toList).mapError fun _ => .badQuery

def required (query : List (Text × Text)) (name : String) : Except Refusal Text := do
  match ← optional query name with
  | some value => .ok value
  | none => .error .badQuery

end Query

namespace Route

inductive Place where
  | health
  | snippets
  | categories
  | vars
  | expand
  | exportSnippets
  | exportVariables
  | importSnippets
  | importVariables
  deriving DecidableEq

def places : List (Text × Place) :=
  [("/health".toList, .health), ("/api/snippets".toList, .snippets),
   ("/api/categories".toList, .categories), ("/api/variables".toList, .vars),
   ("/api/expand".toList, .expand), ("/api/export/snippets".toList, .exportSnippets),
   ("/api/export/variables".toList, .exportVariables),
   ("/api/import/snippets".toList, .importSnippets),
   ("/api/import/variables".toList, .importVariables)]

def place? (path : Text) : Option Place :=
  (places.find? fun p => path = p.1 || path = p.1 ++ ['/']).map (·.2)

inductive Method where
  | get
  | post
  | put
  | delete
  | other
  deriving DecidableEq

def method (name : Text) : Method :=
  if name = "GET".toList then .get
  else if name = "POST".toList then .post
  else if name = "PUT".toList then .put
  else if name = "DELETE".toList then .delete
  else .other

def theText : List (Option Text) → Text
  | some t :: _ => t
  | _ => []

def variableOf : List (Option Text) → Route
  | [some name, some value, oldName] => setVariable name value oldName
  | _ => setVariable [] [] none

def atPlace (r : HttpRequest) (query : List (Text × Text)) : Place → Method → Except Refusal Route
  | .health, _ => .ok health
  | .snippets, .get => .ok listSnippets
  | .snippets, .post => addSnippet <$> r.json Snippet.ofReading
  | .snippets, .put => updateSnippet <$> r.json Snippet.ofReading
  | .snippets, .delete => deleteSnippet <$> Query.required query "id"
  | .categories, .get => .ok listCategories
  | .categories, .post =>
    (addCategory ∘ theText) <$> r.record "AddCategory" [.required "name"]
  | .vars, .get => .ok listVariables
  | .vars, .put =>
    variableOf <$> r.record "SetVariable" [.required "name", .required "value", .optional "oldName"]
  | .vars, .delete => deleteVariable <$> Query.required query "name"
  | .expand, .post => (expand ∘ theText) <$> r.record "ExpandRequest" [.required "template"]
  | .exportSnippets, .get => .ok exportSnippets
  | .exportVariables, .get => .ok exportVariables
  | .importSnippets, .post => (importSnippets · r.body) <$> Query.optional query "policy"
  | .importVariables, .post => (importVariables · r.body) <$> Query.optional query "policy"
  | _, _ => .error .methodNotAllowed

def ofRequest (r : HttpRequest) : Except Refusal Route :=
  let target := Target.parse r.target
  match place? target.path with
  | some place => atPlace r target.query place (method r.method)
  | none => .error .notFound

end Route
end SnippetExpansion
