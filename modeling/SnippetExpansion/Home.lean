import SnippetExpansion.Text.Blank

/-!
# Where things are kept
-/
namespace SnippetExpansion

namespace Path

def join (directory name : Text) : Text :=
  if directory = [] ∨ directory.getLast? = some '/' then directory ++ name
  else directory ++ '/' :: name

end Path

namespace Home

/-- The directory of the stored data: the chosen one unless that is blank, else one in the user's
home, else one in the current directory. -/
def directory (chosen userHome : Option Text) : Text :=
  match chosen.filter (!Text.isBlank ·) with
  | some directory => directory
  | none => Path.join (userHome.getD []) ".quickfill".toList

def dataFile (directory : Text) : Text := Path.join directory "quickfill.json".toList

end Home
end SnippetExpansion
