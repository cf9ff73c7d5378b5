import SnippetExpansion.Text.CaseTable

/-!
# Letter case

Full case mapping without a language of its own: a character may become several, and a capital sigma
becomes a final one at the end of a word.
-/
namespace SnippetExpansion.Text

def inRanges (ranges : List (Nat × Nat)) (c : Char) : Bool :=
  ranges.any fun (first, last) => decide (first ≤ c.toNat ∧ c.toNat ≤ last)

def mapChar (runs : List CaseRun) (sequences : List (Nat × List Nat)) (c : Char) : Text :=
  match sequences.lookup c.toNat with
  | some ns => ns.map Char.ofNat
  | none =>
    match runs.findSome? (·.image? c.toNat) with
    | some n => [Char.ofNat n]
    | none => [c]

def upperChar (c : Char) : Text :=
  if c.toNat < 0x80 then [c.toUpper] else mapChar upperRuns upperSequences c

def lowerChar (c : Char) : Text :=
  if c.toNat < 0x80 then [c.toLower] else mapChar lowerRuns lowerSequences c

def meetsCased (t : Text) : Bool :=
  match t.dropWhile (inRanges caseIgnorableRanges) with
  | c :: _ => inRanges casedRanges c
  | [] => false

def upper (t : Text) : Text := t.flatMap upperChar

/-- Lower case of what follows `before`, the text so far in reverse. -/
def lowerAfter (before : Text) : Text → Text
  | [] => []
  | c :: rest =>
    (if c = 'Σ' then [if meetsCased before && !meetsCased rest then 'ς' else 'σ'] else lowerChar c)
      ++ lowerAfter (c :: before) rest

def lower (t : Text) : Text := lowerAfter [] t

/-- First character in upper case, each later one by itself in lower case. -/
def capitalize : Text → Text
  | [] => []
  | c :: rest => upperChar c ++ rest.flatMap lowerChar

end SnippetExpansion.Text
