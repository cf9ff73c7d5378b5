import SnippetExpansion.CommandLine.Run

/-!
# A terminal of which all is known

Files by their paths, the input that is left, and what was shown so far.
-/
namespace SnippetExpansion

/-- The directories and files there are, each by the parts of its path. -/
structure FileTree where
  directories : List (List Text)
  files : List (List Text × Text)
  deriving Repr

namespace Path

/-- The parts between the slashes. Empty parts and dots lead nowhere; an empty first part is the
root. -/
def parts (path : Text) : List Text :=
  match Text.splitOn '/' path with
  | [] => []
  | first :: rest =>
    (if first = ['.'] || path.isEmpty then [] else [first])
      ++ rest.filter fun part => !part.isEmpty && part ≠ ['.']

def namesDirectory (path : Text) : Bool := path.getLast? = some '/'

end Path

namespace FileTree

def isFile (tree : FileTree) (parts : List Text) : Bool := (tree.files.lookup parts).isSome

def throughFile (tree : FileTree) (parts : List Text) : Bool :=
  tree.files.any fun file => file.1.isPrefixOf parts && file.1 ≠ parts

def read (tree : FileTree) (path : Text) : Except FileFault Text :=
  let parts := Path.parts path
  match tree.files.lookup parts with
  | some content => if Path.namesDirectory path then .error .notDirectory else .ok content
  | none =>
    if path.isEmpty then .error .notFound
    else if tree.directories.contains parts then .error .isDirectory
    else if tree.throughFile parts then .error .notDirectory
    else .error .notFound

def put (tree : FileTree) (parts : List Text) (content : Text) : FileTree :=
  { tree with files := (parts, content) :: tree.files.filter (·.1 ≠ parts) }

def write (tree : FileTree) (path content : Text) : Except FileFault FileTree :=
  let parts := Path.parts path
  if tree.throughFile parts then .error .notDirectory
  else if tree.directories.contains parts then .error .isDirectory
  else if !tree.directories.contains parts.dropLast then .error .notFound
  else if Path.namesDirectory path then .error .isDirectory
  else .ok (tree.put parts content)

def withDirectoryOf (tree : FileTree) (path : Text) : FileTree :=
  let parts := Path.parts path
  { tree with directories := tree.directories ++ (List.range parts.length).map parts.take }

end FileTree

structure Terminal where
  tree : FileTree
  input : Text
  printed : Text
  told : Text
  world : Surroundings

namespace Terminal

def nextLine (input : Text) : Option (Text × Text) :=
  if input.isEmpty then none
  else match Text.splitAtFirst '\n' input with
    | (line, some rest) => some (line ++ ['\n'], rest)
    | (line, none) => some (line, [])

def readLine : StateM Terminal (Option Text) := fun t =>
  match nextLine t.input with
  | some (line, input) => (some line, { t with input })
  | none => (none, t)

def writeFile (path content : Text) : StateM Terminal (Except FileFault Unit) := fun t =>
  match t.tree.write path content with
  | .ok tree => (.ok (), { t with tree })
  | .error fault => (.error fault, t)

def answer : (r : ConsoleRequest) → StateM Terminal r.Answer
  | .print content => modify fun t => { t with printed := t.printed ++ content }
  | .tell content => modify fun t => { t with told := t.told ++ content }
  | .readLine => readLine
  | .readFile path => fun t => (t.tree.read path, t)
  | .keepFile path content => do
    modify fun t => { t with tree := t.tree.withDirectoryOf path }
    writeFile path content
  | .writeFile path content => writeFile path content
  | .outside r => fun t =>
    let (a, world) := (Surroundings.answer r).run t.world
    (a, { t with world })

def run {α : Type} (c : Console α) : StateM Terminal α := c.interpret answer

theorem splitAtFirst_length {c : Char} {t line rest : Text}
    (h : Text.splitAtFirst c t = (line, some rest)) : rest.length < t.length := by
  induction t generalizing line with
  | nil => simp [Text.splitAtFirst] at h
  | cons d t ih =>
    simp only [Text.splitAtFirst] at h
    split at h
    · cases h
      exact Nat.lt_succ_self _
    · obtain ⟨_, h⟩ := Prod.mk.inj h
      exact Nat.lt_succ_of_lt (ih (Prod.ext rfl h))

theorem nextLine_length {input line rest : Text} (h : nextLine input = some (line, rest)) :
    rest.length < input.length := by
  unfold nextLine at h
  split at h
  · cases h
  · next nonempty =>
    split at h
    · next e =>
      cases h
      exact splitAtFirst_length e
    · cases h
      cases input with
      | nil => exact absurd rfl nonempty
      | cons c input => exact Nat.succ_pos _

theorem answer_input_length (r : ConsoleRequest) (t : Terminal) :
    ((answer r).run t).2.input.length ≤ t.input.length := by
  cases r with
  | readLine =>
    show (readLine t).2.input.length ≤ _
    unfold readLine
    split
    · next h => exact Nat.le_of_lt (nextLine_length h)
    · exact Nat.le_refl _
  | keepFile path content =>
    show (writeFile path content _).2.input.length ≤ _
    unfold writeFile
    split <;> exact Nat.le_refl _
  | writeFile path content =>
    show (writeFile path content t).2.input.length ≤ _
    unfold writeFile
    split <;> exact Nat.le_refl _
  | _ => exact Nat.le_refl _

theorem run_input_length {α : Type} (c : Console α) (t : Terminal) :
    ((run c).run t).2.input.length ≤ t.input.length := by
  induction c generalizing t with
  | done a => exact Nat.le_refl _
  | ask q resume ih => exact Nat.le_trans (ih _ _) (answer_input_length q t)

end Terminal

namespace CommandLine

theorem typeNext_run (snapshot : Snapshot) (t : Terminal) :
    (Terminal.run (typeNext snapshot)).run t
      = (Terminal.run (typeLine? snapshot ((Terminal.readLine t).1.map Console.lineText))).run
        (Terminal.readLine t).2 := rfl

theorem typeNext_length {snapshot : Snapshot} {t t' : Terminal}
    (h : (Terminal.run (typeNext snapshot)).run t = (true, t')) :
    t'.input.length < t.input.length := by
  rw [typeNext_run] at h
  cases hline : Terminal.nextLine t.input with
  | none =>
    simp only [Terminal.readLine, hline] at h
    exact absurd (congrArg Prod.fst h) Bool.false_ne_true
  | some next =>
    have bound := Terminal.run_input_length
      (typeLine? snapshot (some (Console.lineText next.1))) { t with input := next.2 }
    simp only [Terminal.readLine, hline, Option.map_some] at h
    rw [h] at bound
    exact Nat.lt_of_le_of_lt bound (Terminal.nextLine_length hline)

def typeAll (snapshot : Snapshot) (t : Terminal) : Terminal :=
  match _h : (Terminal.run (typeNext snapshot)).run t with
  | (true, t') => typeAll snapshot t'
  | (false, t') => t'
termination_by t.input.length
decreasing_by exact typeNext_length (by assumption)

/-- Runs a command to its end. Requests are left for others to send. -/
def Invocation.complete (ids : IdSource) (path : Text) (i : Invocation) :
    StateM Terminal (Except Failure Unit) := fun t =>
  match (Terminal.run (i.run ids path).run).run t with
  | (.ok (.lines snapshot), t) => (.ok (), typeAll snapshot t)
  | (.ok _, t) => (.ok (), t)
  | (.error failure, t) => (.error failure, t)

end CommandLine
end SnippetExpansion
