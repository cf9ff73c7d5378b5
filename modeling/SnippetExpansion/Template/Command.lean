import SnippetExpansion.Template.DateFormat
import SnippetExpansion.Text.Blank
import SnippetExpansion.Text.Case

/-!
# Commands

The keys that do something. Letter case does not count in them.
-/
namespace SnippetExpansion

inductive Command where
  | paste
  | wait
  | enter
  | tab
  | date
  | time
  | uppercase
  | lowercase
  | capitalize
  | cursor
  | ai
  deriving Repr, DecidableEq

namespace Command

def all : List Command :=
  [paste, wait, enter, tab, date, time, uppercase, lowercase, capitalize, cursor, ai]

def name : Command → Text
  | paste => "paste".toList
  | wait => "wait".toList
  | enter => "enter".toList
  | tab => "tab".toList
  | date => "date".toList
  | time => "time".toList
  | uppercase => "uppercase".toList
  | lowercase => "lowercase".toList
  | capitalize => "capitalize".toList
  | cursor => "cursor".toList
  | ai => "ai".toList

def lookup? (key : Text) : Option Command :=
  let key := Text.lower key
  all.find? (·.name = key)

/-- Whether the text comes from outside the template, so that it is never read as a template. -/
def outputIsLiteral : Command → Bool
  | paste | ai => true
  | _ => false

def defaultDateFormat : Text := "DD/MM/YYYY".toList

def leadingNumber (argument : Text) : Nat :=
  let n := Text.digitsValue ((Text.trimStart argument).takeWhile Char.isDigit)
  if n < Nat.pow 2 64 then n else 0

/-- How long a wait lasts: one that ends beyond what a clock can count ends after thirty years. -/
def waitSeconds (n : Nat) : Nat := if n < Nat.pow 2 63 then n else 30 * 365 * 86400

def notConfigured : Text :=
  "[Error: AI is not configured. Set an API key in the settings.]".toList

def generationFailed : Text :=
  "[Error: could not generate an AI response. Please try again.]".toList

def generated (config : AiConfig) (prompt : Text) : Expansion Text :=
  match config.active with
  | none => pure notConfigured
  | some (provider, key) => do
    match ← Expansion.generate provider key prompt with
    | .ok text => pure text
    | .error _ => pure generationFailed

def run (config : AiConfig) (argument : Text) : Command → Expansion (Except Failure Text)
  | paste => Expansion.clipboard
  | wait => do
    Expansion.wait (1000 * waitSeconds (leadingNumber argument))
    pure (.ok [])
  | enter => do
    Expansion.press .enter
    pure (.ok ['\n'])
  | tab => do
    Expansion.press .tab
    pure (.ok ['\t'])
  | date => do
    let now ← Expansion.now
    pure (.ok (now.formatDate (if argument.isEmpty then defaultDateFormat else argument)))
  | time => do
    let now ← Expansion.now
    pure (.ok now.formatTime)
  | uppercase => pure (.ok (Text.upper argument))
  | lowercase => pure (.ok (Text.lower argument))
  | capitalize => pure (.ok (Text.capitalize argument))
  | cursor => pure (.ok ['|'])
  | ai => do
    let text ← generated config argument
    pure (.ok text)

end Command
end SnippetExpansion
