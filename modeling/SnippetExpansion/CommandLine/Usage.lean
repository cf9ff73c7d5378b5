import SnippetExpansion.Text.Basic

/-!
# Why nothing is run

Either the user asks for help, or the arguments do not make up a command.
-/
namespace SnippetExpansion.CommandLine

inductive Usage where
  | help
  | version
  | noSubcommand
  | unknownSubcommand
  | unknownArgument
  | missingArgument
  | wrongValue
  | unreadableValue
  | repeated
  | needlessValue
  deriving Repr, DecidableEq

namespace Usage

def exitCode : Usage → Nat
  | help | version => 0
  | _ => 2

def message : Usage → Text
  | help => "a snippet is expanded where its shortcut is typed".toList
  | version => "0.1.0".toList
  | noSubcommand => "a subcommand is needed".toList
  | unknownSubcommand => "there is no such subcommand".toList
  | unknownArgument => "an argument is not known".toList
  | missingArgument => "an argument is missing".toList
  | wrongValue => "a value is missing or none of those allowed".toList
  | unreadableValue => "a value cannot be read".toList
  | repeated => "an option is given more than once".toList
  | needlessValue => "a value is given to an option that takes none".toList

end Usage
end SnippetExpansion.CommandLine
