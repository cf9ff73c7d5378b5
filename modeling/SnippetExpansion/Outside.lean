import SnippetExpansion.Ai
import SnippetExpansion.Dialogue

/-!
# The outside world

What an expansion asks of the world around it: the clipboard, the user, a text generator and the
time. A pressed key is a request as well, as its effect is on whatever is being edited.
-/
namespace SnippetExpansion

inductive Key where
  | enter
  | tab
  deriving Repr, DecidableEq

namespace Key

def name : Key → Text
  | enter => "Enter".toList
  | tab => "Tab".toList

def code : Key → Nat
  | enter => 13
  | tab => 9

end Key

/-- A moment on the wall clock. From a billion on, the nanoseconds are those of a leap second. -/
structure Instant where
  year : Int
  month : Nat
  day : Nat
  hour : Nat
  minute : Nat
  second : Nat
  nanosecond : Nat
  deriving Repr, DecidableEq, Inhabited

inductive Request where
  | clipboard
  | prompt (label : Text)
  | generate (provider : Provider) (key prompt : Text)
  | clock
  | wait (milliseconds : Nat)
  | press (key : Key)
  deriving Repr, DecidableEq

/-- What answers a request; a prompt that is cancelled has no answer. -/
def Request.Answer : Request → Type
  | clipboard => Except Failure Text
  | prompt _ => Option Text
  | generate _ _ _ => Except Failure Text
  | clock => Instant
  | wait _ => Unit
  | press _ => Unit

abbrev Expansion (α : Type) := Dialogue Request Request.Answer α

namespace Expansion

def clipboard : Expansion (Except Failure Text) := Dialogue.request Request.clipboard

def prompt (label : Text) : Expansion (Option Text) := Dialogue.request (Request.prompt label)

def generate (provider : Provider) (key prompt : Text) : Expansion (Except Failure Text) :=
  Dialogue.request (Request.generate provider key prompt)

def now : Expansion Instant := Dialogue.request Request.clock

def wait (milliseconds : Nat) : Expansion Unit := Dialogue.request (Request.wait milliseconds)

def press (key : Key) : Expansion Unit := Dialogue.request (Request.press key)

end Expansion

/-- A world that answers by what is known beforehand, and notes what it was asked. -/
structure Surroundings where
  now : Instant
  clipboard : Except Failure Text
  prompts : List (Option Text)
  generate : Provider → Text → Text → Except Failure Text
  asked : List Request

namespace Surroundings

def reply (world : Surroundings) : (r : Request) → r.Answer
  | .clipboard => world.clipboard
  | .prompt _ => world.prompts.head?.join
  | .generate provider key prompt => world.generate provider key prompt
  | .clock => world.now
  | .wait _ => ()
  | .press _ => ()

def promptsAfter (world : Surroundings) : Request → List (Option Text)
  | .prompt _ => world.prompts.tail
  | _ => world.prompts

def answer (r : Request) : StateM Surroundings r.Answer := fun world =>
  (world.reply r,
    { world with prompts := world.promptsAfter r, asked := world.asked ++ [r] })

def run {α : Type} (world : Surroundings) (e : Expansion α) : α × Surroundings :=
  (e.interpret answer).run world

end Surroundings

namespace Request

def keys (requests : List Request) : List Key :=
  requests.filterMap fun
    | press key => some key
    | _ => none

def timeWaited : List Request → Nat
  | [] => 0
  | wait milliseconds :: rest => milliseconds + timeWaited rest
  | _ :: rest => timeWaited rest

end Request
end SnippetExpansion
