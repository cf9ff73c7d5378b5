import SnippetExpansion.CommandLine.Arguments

/-!
# Commands with their arguments
-/
namespace SnippetExpansion.CommandLine

inductive Order where
  | add (shortcut text : Text) (category : Option Text)
  | update (shortcut text : Text) (category : Option Text)
  | delete (shortcut : Text)
  | list (category : Option Text)
  | setVariable (name value : Text) (oldName : Option Text)
  | deleteVariable (name : Text)
  | listVariables
  | addCategory (name : Text)
  | listCategories
  | chooseProvider (provider : Provider) (key : Option Text)
  | expand (template : Text)
  | exportAll (what : Collection) (path : Option Text)
  | importAll (what : Collection) (path : Text) (policy : ConflictPolicy)
  | tryOut
  | serve (portNumber : Nat)
  deriving Repr, DecidableEq

def standardPort : Nat := 3030

structure Invocation where
  showStored : Bool
  order : Option Order
  deriving Repr, DecidableEq

namespace Value

def text? : Value → Option Text
  | text t => some t
  | _ => none

def collection? : Value → Option Collection
  | collection c => some c
  | _ => none

def provider? : Value → Option Provider
  | provider p => some p
  | _ => none

def policy? : Value → Option ConflictPolicy
  | policy p => some p
  | _ => none

def portNumber? : Value → Option Nat
  | portNumber n => some n
  | _ => none

end Value

namespace Progress

def optional {α : Type} (p : Progress) (kind : Value → Option α) (name : Text) : Option α :=
  (p.values.lookup name).bind kind

def required {α : Type} (p : Progress) (kind : Value → Option α) (name : Text) :
    Except Usage α :=
  match p.optional kind name with
  | some a => .ok a
  | none => .error .missingArgument

/-- The command that was chosen; a group is none. -/
def order (p : Progress) : Except Usage (Option Order) :=
  let text := p.required Value.text?
  let text? := p.optional Value.text?
  match p.verb with
  | .root | .vars | .categories => .ok none
  | .add => do
    .ok (some (.add (← text Named.shortcut) (← text Named.text) (text? Named.category)))
  | .update => do
    .ok (some (.update (← text Named.shortcut) (← text Named.text) (text? Named.category)))
  | .delete => do .ok (some (.delete (← text Named.shortcut)))
  | .list => .ok (some (.list (text? Named.category)))
  | .setVariable => do
    .ok (some (.setVariable (← text Named.name) (← text Named.value) (text? Named.renameFrom)))
  | .deleteVariable => do .ok (some (.deleteVariable (← text Named.name)))
  | .listVariables => .ok (some .listVariables)
  | .addCategory => do .ok (some (.addCategory (← text Named.name)))
  | .listCategories => .ok (some .listCategories)
  | .ai => do
    .ok (some (.chooseProvider (← p.required Value.provider? Named.provider) (text? Named.key)))
  | .expand => do .ok (some (.expand (← text Named.template)))
  | .exportAll => do
    .ok (some (.exportAll (← p.required Value.collection? Named.what) (text? Named.output)))
  | .importAll => do
    let policy := (p.optional Value.policy? Named.onConflict).getD .keepExisting
    .ok (some (.importAll (← p.required Value.collection? Named.what) (← text Named.file) policy))
  | .tryOut => .ok (some .tryOut)
  | .serve =>
    let portNumber := (p.optional Value.portNumber? Named.portNumber).getD standardPort
    .ok (some (.serve portNumber))

end Progress

def Invocation.parse (arguments : List Text) : Except Usage Invocation := do
  let p ← Progress.start.read arguments
  let order ← p.order
  .ok ⟨p.switches.contains Named.config, order⟩

end SnippetExpansion.CommandLine
