import SnippetExpansion.Outside
import SnippetExpansion.Session.Basic

/-!
# The console

What a command asks of the terminal it runs in: lines to read, text to show, and files. Prompts go
to the user at the terminal; all else that expansions ask is asked of the world around.
-/
namespace SnippetExpansion

inductive ConsoleRequest where
  | print (t : Text)
  | tell (t : Text)
  | readLine
  | readFile (path : Text)
  | keepFile (path content : Text)
  | writeFile (path content : Text)
  | outside (r : Request)
  deriving Repr, DecidableEq

def ConsoleRequest.Answer : ConsoleRequest → Type
  | print _ => Unit
  | tell _ => Unit
  | readLine => Option Text
  | readFile _ => Except FileFault Text
  | keepFile _ _ => Except FileFault Unit
  | writeFile _ _ => Except FileFault Unit
  | outside r => r.Answer

abbrev Console (α : Type) := Dialogue ConsoleRequest ConsoleRequest.Answer α

namespace Console

def print (t : Text) : Console Unit := Dialogue.request (ConsoleRequest.print t)

def printLine (t : Text) : Console Unit := print (t ++ ['\n'])

def tell (t : Text) : Console Unit := Dialogue.request (ConsoleRequest.tell t)

def readFile (path : Text) : Console (Except FileFault Text) :=
  Dialogue.request (ConsoleRequest.readFile path)

def keepFile (path content : Text) : Console (Except FileFault Unit) :=
  Dialogue.request (ConsoleRequest.keepFile path content)

def writeFile (path content : Text) : Console (Except FileFault Unit) :=
  Dialogue.request (ConsoleRequest.writeFile path content)

def lineText (line : Text) : Text := Text.dropTrailing (fun c => c = '\r' || c = '\n') line

def readLine : Console (Option Text) := do
  let line ← Dialogue.request ConsoleRequest.readLine
  pure (line.map lineText)

def prompt (label : Text) : Console (Option Text) := do
  tell (label ++ ": ".toList)
  let line ← readLine
  pure (line.filter (!·.isEmpty))

def answer : (r : Request) → Console r.Answer
  | .prompt label => prompt label
  | .clipboard => Dialogue.request (ConsoleRequest.outside .clipboard)
  | .generate provider key prompt =>
    Dialogue.request (ConsoleRequest.outside (.generate provider key prompt))
  | .clock => Dialogue.request (ConsoleRequest.outside .clock)
  | .wait milliseconds => Dialogue.request (ConsoleRequest.outside (.wait milliseconds))
  | .press key => Dialogue.request (ConsoleRequest.outside (.press key))

/-- Makes a move on the only surface of a session. A pause is waited for. -/
def perform : (m : Move) → StateT Session (Dialogue ConsoleRequest ConsoleRequest.Answer) m.Answer
  | .pause milliseconds => do
    StateT.lift (answer (.wait milliseconds))
    Session.pass milliseconds
  | m => Session.perform answer 0 m

end Console
end SnippetExpansion
