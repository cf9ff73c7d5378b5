import SnippetExpansion.CommandLine.Run
import SnippetExpansion.Home
import SnippetExpansion.Uuid
import Std.Time.Zoned

/-!
# The program

Runs the command line at a real terminal. There is no clipboard to reach here and no network, so
pasting and generating fail and requests are not served.
-/
namespace SnippetExpansion.Main

open SnippetExpansion.CommandLine

def faultOf : IO.Error → FileFault
  | .noFileOrDirectory .. => .notFound
  | .inappropriateType _ code details => if code = 21 then .isDirectory
    else if code = 20 then .notDirectory
    else .other details.toList
  | e => .other (toString e).toList

def attempt {α : Type} (act : IO α) : IO (Except FileFault α) := do
  match ← act.toBaseIO with
  | .ok a => pure (.ok a)
  | .error e => pure (.error (faultOf e))

def readFile (path : Text) : IO (Except FileFault Text) := do
  match ← attempt (IO.FS.readBinFile (String.ofList path)) with
  | .error fault => pure (.error fault)
  | .ok bytes => pure ((Utf8.decode bytes.toList).mapError fun _ => FileFault.notText)

def writeFile (path content : Text) : IO (Except FileFault Unit) :=
  attempt (IO.FS.writeFile (String.ofList path) (String.ofList content))

def directoryOf (path : Text) : Text := ((path.reverse.dropWhile (· ≠ '/')).drop 1).reverse

def keepFile (path content : Text) : IO (Except FileFault Unit) := do
  let directory := directoryOf path
  let made ← if directory.isEmpty then pure (.ok ())
    else attempt (IO.FS.createDirAll (String.ofList directory))
  match made with
  | .ok () => writeFile path content
  | .error fault => pure (.error fault)

def now : IO Instant := do
  let t ← Std.Time.PlainDateTime.now
  let n (i : Int) : Nat := i.toNat
  pure ⟨t.date.year, n t.date.month.val, n t.date.day.val, n t.time.hour.val, n t.time.minute.val,
    n t.time.second.val, n t.time.nanosecond.val⟩

def longestSleep : Nat := 1000000

partial def sleepFor (milliseconds : Nat) : IO Unit := do
  if milliseconds ≤ longestSleep then IO.sleep milliseconds.toUInt32
  else
    IO.sleep longestSleep.toUInt32
    sleepFor (milliseconds - longestSleep)

def outside : (r : Request) → IO r.Answer
  | .clipboard => pure (.error (.clipboard "no clipboard".toList))
  | .prompt _ => pure none
  | .generate _ _ _ => pure (.error (.ai "no network".toList))
  | .clock => now
  | .wait milliseconds => sleepFor milliseconds
  | .press _ => pure ()

def display (stream : IO.FS.Stream) (t : Text) : IO Unit := do
  stream.putStr (String.ofList t)
  stream.flush

def readLine : IO (Option Text) := do
  match ← attempt (do (← IO.getStdin).getLine) with
  | .ok line => pure (if line.isEmpty then none else some line.toList)
  | .error _ => pure none

def answer : (r : ConsoleRequest) → IO r.Answer
  | .print t => do display (← IO.getStdout) t
  | .tell t => do display (← IO.getStderr) t
  | .readLine => readLine
  | .readFile path => readFile path
  | .keepFile path content => keepFile path content
  | .writeFile path content => writeFile path content
  | .outside r => outside r

partial def typeAll (snapshot : Snapshot) : IO Unit := do
  if ← (typeNext snapshot).interpret answer then typeAll snapshot

def complain (t : Text) : IO UInt32 := do
  display (← IO.getStderr) (t ++ ['\n'])
  pure 1

def goOn : Sequel → IO UInt32
  | .nothing => pure 0
  | .lines snapshot => do
    typeAll snapshot
    pure 0
  | .requests _ _ => complain "Error: requests are not served here".toList

def seed : IO Nat := do
  let bytes ← IO.getRandomBytes 16
  pure (bytes.toList.foldl (fun n b => 256 * n + b.toNat) 0)

def environment (name : String) : IO (Option Text) := do
  pure ((← IO.getEnv name).map String.toList)

def run (i : Invocation) : IO UInt32 := do
  let directory := Home.directory (← environment "QUICKFILL_HOME") (← environment "HOME")
  let ids := IdSource.random (← seed)
  match ← (i.run ids (Home.dataFile directory)).run.interpret answer with
  | .ok sequel => goOn sequel
  | .error failure => complain ("Error: ".toList ++ failure.message)

def usage (u : Usage) : IO UInt32 := do
  let stream ← if u.exitCode = 0 then IO.getStdout else IO.getStderr
  display stream (u.message ++ ['\n'])
  pure u.exitCode.toUInt32

end SnippetExpansion.Main

def main (arguments : List String) : IO UInt32 := do
  match SnippetExpansion.CommandLine.Invocation.parse (arguments.map String.toList) with
  | .ok i => SnippetExpansion.Main.run i
  | .error u => SnippetExpansion.Main.usage u
