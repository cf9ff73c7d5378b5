import SnippetExpansion.Failure
import SnippetExpansion.Text.Blank

/-!
# Text generation settings

The providers, their keys and which one is used. A key of white space counts as no key.
-/
namespace SnippetExpansion

inductive Provider where
  | openai
  | claude
  | deepseek
  deriving Repr, DecidableEq

namespace Provider

def all : List Provider := [openai, claude, deepseek]

def name : Provider → Text
  | openai => "openai".toList
  | claude => "claude".toList
  | deepseek => "deepseek".toList

def named? (name : Text) : Option Provider := all.find? (·.name = name)

def parse (t : Text) : Except Failure Provider :=
  let name := Text.lower (Text.trim t)
  match named? name with
  | some provider => .ok provider
  | none => .error (.config (Failure.naming "unknown AI provider" name))

end Provider

structure AiConfig where
  selected : Option Provider
  openaiKey : Option Text
  claudeKey : Option Text
  deepseekKey : Option Text
  deriving Repr, DecidableEq, Inhabited

namespace AiConfig

def empty : AiConfig := ⟨none, none, none, none⟩

def storedKey (config : AiConfig) : Provider → Option Text
  | .openai => config.openaiKey
  | .claude => config.claudeKey
  | .deepseek => config.deepseekKey

def key (config : AiConfig) (provider : Provider) : Option Text :=
  (config.storedKey provider).filter fun k => !Text.isBlank k

def setKey (config : AiConfig) (provider : Provider) (key : Option Text) : AiConfig :=
  match provider with
  | .openai => { config with openaiKey := key }
  | .claude => { config with claudeKey := key }
  | .deepseek => { config with deepseekKey := key }

def active (config : AiConfig) : Option (Provider × Text) := do
  let provider ← config.selected
  let key ← config.key provider
  some (provider, key)

end AiConfig
end SnippetExpansion
