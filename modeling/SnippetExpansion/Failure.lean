import SnippetExpansion.Json.Mismatch

/-!
# Failures

What can go wrong, by kind. Each kind has one wording.
-/
namespace SnippetExpansion

inductive FileFault where
  | notFound
  | isDirectory
  | notDirectory
  | notText
  | other (reason : Text)
  deriving Repr, DecidableEq

def FileFault.message : FileFault → Text
  | .notFound => "No such file or directory (os error 2)".toList
  | .isDirectory => "Is a directory (os error 21)".toList
  | .notDirectory => "Not a directory (os error 20)".toList
  | .notText => "stream did not contain valid UTF-8".toList
  | .other reason => reason

inductive Failure where
  | file (fault : FileFault)
  | json (mismatch : Mismatch)
  | config (reason : Text)
  | clipboard (reason : Text)
  | badImport (reason : Text)
  | notFound (what : Text)
  | duplicateShortcut (shortcut : Text)
  | ai (reason : Text)
  | other (reason : Text)
  deriving Repr, DecidableEq

namespace Failure

def message : Failure → Text
  | file fault => "I/O error: ".toList ++ fault.message
  | json mismatch => "JSON error: ".toList ++ mismatch.message
  | config reason => "Invalid configuration: ".toList ++ reason
  | clipboard reason => "Clipboard error: ".toList ++ reason
  | badImport reason => "Invalid import file: ".toList ++ reason
  | notFound what => "Not found: ".toList ++ what
  | duplicateShortcut shortcut =>
    "Shortcut '".toList ++ shortcut ++ "' is already used by another snippet".toList
  | ai reason => "AI provider error: ".toList ++ reason
  | other reason => "Error: ".toList ++ reason

def naming (word : String) (name : Text) : Text := word.toList ++ " '".toList ++ name ++ ['\'']

end Failure
end SnippetExpansion
