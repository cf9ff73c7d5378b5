import SnippetExpansion.Api.Basic
import SnippetExpansion.CommandLine.Console
import SnippetExpansion.CommandLine.Invocation
import SnippetExpansion.Store.ByShortcut

/-!
# Running commands

Each command reads the stored data afresh, does its work on it and prints what it did. Two
commands go on after that: one with the lines that are typed, the other with the requests to
serve.
-/
namespace SnippetExpansion.CommandLine

/-- A command under way; it may fail, and what it printed before stays printed. -/
abbrev CommandM (α : Type) := ExceptT Failure (Dialogue ConsoleRequest ConsoleRequest.Answer) α

inductive Sequel where
  | nothing
  | lines (snapshot : Snapshot)
  | requests (api : Api) (portNumber : Nat)

def printLine (t : Text) : CommandM Unit := ExceptT.lift (Console.printLine t)

def report (word : String) (name : Text) : CommandM Unit := printLine (Failure.naming word name)

def orFault {α : Type} (c : Console (Except FileFault α)) : CommandM α := do
  match ← ExceptT.lift c with
  | .ok a => pure a
  | .error fault => throw (.file fault)

def openStore (path : Text) : CommandM Store := do
  let content ← ExceptT.lift (Console.readFile path)
  pure (.ofFile (.ofRead content))

/-- Does something to the store in a file, which is written where it becomes another one. -/
def onStore {α : Type} (path : Text) (m : StoreM α) : CommandM α := do
  let store ← openStore path
  let (result, changed) := m.run store
  match changed.file with
  | .text content =>
    if changed.file = store.file then pure () else orFault (Console.keepFile path content)
  | _ => pure ()
  MonadExcept.ofExcept result

def counted (n : Nat) (things : String) : Text := Text.ofNat n ++ ' ' :: things.toList

def printStored (path : Text) : CommandM Unit := do
  let d ← onStore path Store.load
  printLine ("Database: ".toList ++ path)
  printLine (counted d.snippets.length "snippets, " ++ counted d.categories.length "categories, "
    ++ counted d.vars.entries.length "variables")
  printLine ("AI provider: ".toList
    ++ (d.ai.selected.map Provider.name).getD "not configured".toList)

def snippetLine (s : Snippet) : Text :=
  Text.padRight 16 s.shortcut ++ ' ' :: Text.padRight 12 (s.category.getD ['-'])
    ++ ' ' :: Snippet.preview s.text 50

def inCategory (category : Option Text) (s : Snippet) : Bool :=
  category.isNone || s.category = category

def variableLine (name value : Text) : Text :=
  '\x7b' :: name ++ '\x7d' :: " = ".toList ++ value

def snippetLines (snippets : List Snippet) : List Text :=
  if snippets.isEmpty then ["No snippets found".toList] else snippets.map snippetLine

def printAll (lines : List Text) : CommandM Unit := lines.forM printLine

def expandTemplate (path template : Text) : CommandM Text := do
  let d ← onStore path Store.load
  ExceptT.lift ((expand (.ofStoredData d) Settings.standard.maxDepth template).interpret
    Console.answer)

def exported (path : Text) : Collection → CommandM Text
  | .snippets => Snippet.exportText <$> onStore path Store.loadSnippets
  | .vars => Variables.exportText <$> onStore path Store.loadVariables

def importInto (ids : IdSource) (path : Text) (what : Collection) (content : Text)
    (policy : ConflictPolicy) : CommandM Report :=
  match what with
  | .snippets => onStore path (Store.importSnippets ids content policy)
  | .vars => onStore path (Store.importVariables content policy)

def importLine (r : Report) (policy : ConflictPolicy) : Text :=
  "Imported ".toList ++ counted r.imported "entries (" ++ counted r.conflicts "conflicts, "
    ++ policy.name ++ [')']

/-- Selects a provider. Without a new key it keeps the one it has. -/
def selectProvider (provider : Provider) (key : Option Text) : StoreM Unit := do
  let ai ← Store.loadAi
  let ai := if key.isSome then ai.setKey provider key else ai
  Store.saveAi { ai with selected := provider }

def Order.run (ids : IdSource) (path : Text) : Order → CommandM Sequel
  | add shortcut text category => do
    let saved ← onStore path (Store.saveSnippet ids ⟨[], shortcut, text, category⟩)
    report "Added snippet" saved.shortcut
    pure .nothing
  | update shortcut text category => do
    let _ ← onStore path (Store.updateByShortcut ids shortcut text category)
    report "Updated snippet" shortcut
    pure .nothing
  | delete shortcut => do
    onStore path (Store.deleteByShortcut shortcut)
    report "Deleted snippet" shortcut
    pure .nothing
  | list category => do
    let snippets ← onStore path Store.loadSnippets
    printAll (snippetLines (snippets.filter (inCategory category)))
    pure .nothing
  | setVariable name value oldName => do
    onStore path (Store.saveVariable name value oldName)
    report "Saved variable" name
    pure .nothing
  | deleteVariable name => do
    onStore path (Store.deleteVariable name)
    report "Deleted variable" name
    pure .nothing
  | listVariables => do
    let vars ← onStore path Store.loadVariables
    printAll (vars.entries.map fun (name, value) => variableLine name value)
    pure .nothing
  | addCategory name => do
    onStore path (Store.saveCategory name)
    report "Added category" name
    pure .nothing
  | listCategories => do
    let categories ← onStore path Store.loadCategories
    printAll categories
    pure .nothing
  | chooseProvider provider key => do
    onStore path (selectProvider provider key)
    printLine ("AI provider set to ".toList ++ provider.name)
    pure .nothing
  | expand template => do
    printLine (← expandTemplate path template)
    pure .nothing
  | exportAll what none => do
    printLine (← exported path what)
    pure .nothing
  | exportAll what (some target) => do
    let content ← exported path what
    orFault (Console.writeFile target content)
    printLine ("Exported to ".toList ++ target)
    pure .nothing
  | importAll what source policy => do
    let content ← orFault (Console.readFile source)
    let r ← importInto ids path what content policy
    printLine (importLine r policy)
    pure .nothing
  | tryOut => do
    let d ← onStore path Store.load
    pure (.lines (.ofStoredData d))
  | serve portNumber => do
    let store ← openStore path
    let api ← MonadExcept.ofExcept (Api.start store)
    pure (.requests api portNumber)

def Invocation.run (ids : IdSource) (path : Text) (i : Invocation) : CommandM Sequel := do
  if i.showStored then printStored path
  match i.order with
  | some order => order.run ids path
  | none => pure .nothing

def fieldLine (detection : Detection) (surface : Surface) : Text :=
  let shown := match surface with
    | .plain f => f.withCaret
    | other => other.text
  match detection with
  | .replaced shortcut _ => '[' :: shortcut ++ "] ".toList ++ shown
  | _ => shown

def typeLine (snapshot : Snapshot) (line : Text) : Console Unit := do
  let session := Session.start .standard snapshot [Site.fresh (.plain (.typed line)) false]
  let (detection, session) ← ((Work.onEdit .standard).interpret Console.perform).run session
  Console.printLine (fieldLine detection (session.site 0).surface)

def typeLine? (snapshot : Snapshot) : Option Text → Console Bool
  | some line => do
    typeLine snapshot line
    pure true
  | none => pure false

def typeNext (snapshot : Snapshot) : Console Bool := do
  typeLine? snapshot (← Console.readLine)

end SnippetExpansion.CommandLine
