import SnippetExpansion.CommandLine.Value

/-!
# The commands of the command line

Which options and operands each command takes, and which commands stand in a group.
-/
namespace SnippetExpansion.CommandLine

inductive Verb where
  | root
  | add
  | update
  | delete
  | list
  | vars
  | setVariable
  | deleteVariable
  | listVariables
  | categories
  | addCategory
  | listCategories
  | ai
  | expand
  | exportAll
  | importAll
  | tryOut
  | serve
  deriving Repr, DecidableEq

inductive OptionRole where
  | help
  | version
  | switch
  | value (kind : ValueKind)
  deriving Repr, DecidableEq

structure OptionForm where
  long : Text
  short : Option Char
  role : OptionRole
  deriving Repr, DecidableEq

structure Operand where
  name : Text
  kind : ValueKind
  deriving Repr, DecidableEq

namespace Named

def config : Text := "config".toList
def shortcut : Text := "shortcut".toList
def text : Text := "text".toList
def category : Text := "category".toList
def name : Text := "name".toList
def value : Text := "value".toList
def renameFrom : Text := "rename-from".toList
def provider : Text := "provider".toList
def key : Text := "key".toList
def template : Text := "template".toList
def what : Text := "what".toList
def file : Text := "file".toList
def output : Text := "output".toList
def onConflict : Text := "on-conflict".toList
def portNumber : Text := "port".toList

end Named

namespace Verb

def subcommands : Verb → List (Text × Verb)
  | root =>
    [("add".toList, add), ("update".toList, update), ("delete".toList, delete),
     ("list".toList, list), ("var".toList, vars), ("category".toList, categories),
     ("ai".toList, ai), ("expand".toList, expand), ("export".toList, exportAll),
     ("import".toList, importAll), ("try".toList, tryOut), ("serve".toList, serve)]
  | vars =>
    [("set".toList, setVariable), ("delete".toList, deleteVariable), ("list".toList, listVariables)]
  | categories => [("add".toList, addCategory), ("list".toList, listCategories)]
  | _ => []

def isGroup (v : Verb) : Bool := !v.subcommands.isEmpty

def needsSubcommand (v : Verb) : Bool := v.isGroup && v ≠ root

def valued (long : Text) (short : Option Char) (kind : ValueKind) : OptionForm :=
  ⟨long, short, .value kind⟩

def snippetOptions : List OptionForm :=
  [valued Named.shortcut 's' .text, valued Named.text 't' .text, valued Named.category none .text]

def ownOptions : Verb → List OptionForm
  | root => [⟨Named.config, 'c', .switch⟩, ⟨"version".toList, 'V', .version⟩]
  | add | update => snippetOptions
  | delete => [valued Named.shortcut 's' .text]
  | list => [valued Named.category none .text]
  | setVariable => [valued Named.renameFrom none .text]
  | ai => [valued Named.provider none .provider, valued Named.key none .text]
  | exportAll => [valued Named.output 'o' .path]
  | importAll => [valued Named.onConflict none .policy]
  | serve => [valued Named.portNumber 'p' .portNumber]
  | _ => []

def options (v : Verb) : List OptionForm := ⟨"help".toList, 'h', .help⟩ :: v.ownOptions

def operands : Verb → List Operand
  | setVariable => [⟨Named.name, .text⟩, ⟨Named.value, .text⟩]
  | deleteVariable | addCategory => [⟨Named.name, .text⟩]
  | expand => [⟨Named.template, .text⟩]
  | exportAll => [⟨Named.what, .collection⟩]
  | importAll => [⟨Named.what, .collection⟩, ⟨Named.file, .path⟩]
  | _ => []

def long? (v : Verb) (name : Text) : Option OptionForm := v.options.find? (·.long = name)

def short? (v : Verb) (letter : Char) : Option OptionForm := v.options.find? (·.short = some letter)

end Verb
end SnippetExpansion.CommandLine
