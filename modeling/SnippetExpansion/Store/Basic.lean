import SnippetExpansion.Change
import SnippetExpansion.Failure
import SnippetExpansion.Text.Utf8

/-!
# The store

The stored data in a file, and the changes that those who listen are told of. An operation loads
the document, edits it, writes the whole of it and then tells of each part it has edited.
-/
namespace SnippetExpansion

inductive File where
  | missing
  | text (content : Text)
  | unreadable (fault : FileFault)
  deriving Repr, DecidableEq

namespace File

def ofBytes (bytes : Utf8.Bytes) : File :=
  match Utf8.decode bytes with
  | .ok content => text content
  | .error _ => unreadable .notText

def ofRead : Except FileFault Text → File
  | .ok content => text content
  | .error .notFound | .error .notDirectory => missing
  | .error fault => unreadable fault

/-- The data in the file. A file that is missing or blank holds no data yet. -/
def data : File → Except Failure StoredData
  | missing => .ok .empty
  | text content =>
    if Text.isBlank content then .ok .empty
    else (StoredData.parse content).mapError Failure.json
  | unreadable fault => .error (.file fault)

end File

structure Store where
  file : File
  sent : List Change
  issued : List Text
  /-- The fault that every write meets, where the file cannot be written. -/
  writeFault : Option FileFault
  deriving Repr

/-- An operation on a store. It may fail, and the store is what it has come to by then. -/
abbrev StoreM (α : Type) := ExceptT Failure (StateM Store) α

namespace Store

def ofFile (file : File) : Store := ⟨file, [], [], none⟩

def load : StoreM StoredData := fun s => (s.file.data, s)

def write (d : StoredData) : StoreM Unit := do
  match (← get).writeFault with
  | some fault => throw (.file fault)
  | none => modify fun s => { s with file := .text d.write }

def notify (c : Change) : StoreM Unit := modify fun s => { s with sent := s.sent ++ [c] }

def issue (made : List Text) : StoreM Unit := modify fun s => { s with issued := s.issued ++ made }

end Store
end SnippetExpansion
