import SnippetExpansion.Template.DateFormat
import SnippetExpansion.Proofs.Text.Cut
import Mathlib.Data.List.Chain

/-! # Date formats run by run
A field is written with equal letters, so a format is read one run of equal characters at a time: of a run of
field letters every so many give the field, and those left over at its end stay letters. What a field gives is
no part of any run. -/
namespace SnippetExpansion

namespace Text

def runs : Text → List (Char × Nat)
  | [] => []
  | c :: rest =>
    match runs rest with
    | (d, n) :: more => if c = d then (d, n + 1) :: more else (c, 1) :: (d, n) :: more
    | [] => [(c, 1)]

def ofRuns (runs : List (Char × Nat)) : Text := runs.flatMap fun run => List.replicate run.2 run.1

/-- A text taken apart into runs of equal characters that are as long as can be. -/
structure InRuns (t : Text) (runs : List (Char × Nat)) : Prop where
  lossless : ofRuns runs = t
  nonempty : ∀ run ∈ runs, 0 < run.2
  maximal : runs.IsChain fun run next => run.1 ≠ next.1

theorem ofRuns_cons (c : Char) (n : Nat) (runs : List (Char × Nat)) :
    ofRuns ((c, n) :: runs) = List.replicate n c ++ ofRuns runs := List.flatMap_cons

theorem InRuns.tail {t : Text} {run : Char × Nat} {more : List (Char × Nat)}
    (h : InRuns t (run :: more)) : InRuns (ofRuns more) more where
  lossless := rfl
  nonempty := fun next hnext => h.nonempty next (List.mem_cons_of_mem run hnext)
  maximal := h.maximal.tail

theorem InRuns.head?_ne {t : Text} {c : Char} {n : Nat} {more : List (Char × Nat)}
    (h : InRuns t ((c, n) :: more)) : (ofRuns more).head? ≠ some c := by
  cases more with
  | nil => exact nofun
  | cons next more =>
    obtain ⟨d, m⟩ := next
    obtain ⟨hne, -⟩ := List.isChain_cons_cons.1 h.maximal
    have hm : 0 < m := h.nonempty (d, m) (List.mem_cons_of_mem _ List.mem_cons_self)
    obtain ⟨m, rfl⟩ := Nat.exists_eq_add_of_lt hm
    rw [ofRuns_cons, Nat.zero_add, List.replicate_succ, List.cons_append, List.head?_cons]
    intro hsame
    exact hne (Option.some.inj hsame).symm

theorem inRuns_runs (t : Text) : InRuns t (runs t) := by
  induction t with
  | nil => exact ⟨rfl, nofun, .nil⟩
  | cons c rest ih =>
    rw [runs]
    obtain ⟨hlossless, hnonempty, hmaximal⟩ := ih
    split
    · next d n more hruns =>
      rw [hruns] at hlossless hnonempty hmaximal
      obtain ⟨hn, hmore⟩ := List.forall_mem_cons.1 hnonempty
      by_cases hcd : c = d
      · -- The run in front of the rest grows by one, and its neighbour stays the same.
        subst hcd
        rw [if_pos rfl]
        constructor
        · rw [ofRuns_cons, List.replicate_succ, List.cons_append, ← ofRuns_cons, hlossless]
        · exact List.forall_mem_cons.2 ⟨Nat.succ_pos n, hmore⟩
        · cases more with
          | nil => exact .singleton _
          | cons next more =>
            obtain ⟨hnext, hlater⟩ := List.isChain_cons_cons.1 hmaximal
            exact .cons_cons hnext hlater
      · rw [if_neg hcd]
        constructor
        · rw [ofRuns_cons, hlossless]
          rfl
        · exact List.forall_mem_cons.2 ⟨Nat.one_pos, hnonempty⟩
        · exact .cons_cons hcd hmaximal
    · next hruns =>
      rw [hruns] at hlossless
      subst hlossless
      exact ⟨rfl, by simp, .singleton _⟩

/-- Letters in front of a run of them: no other letter follows that would prolong it. -/
theorem replicate_prefix_iff {size n : Nat} {c : Char} {rest : Text} (hrest : rest.head? ≠ some c) :
    List.replicate size c <+: List.replicate n c ++ rest ↔ size ≤ n := by
  induction n generalizing size with
  | zero =>
    cases size with
    | zero => exact iff_of_true List.nil_prefix (Nat.le_refl 0)
    | succ size =>
      refine iff_of_false ?_ (Nat.not_succ_le_zero size)
      rintro ⟨more, hmore⟩
      rw [List.replicate_zero, List.nil_append] at hmore
      rw [← hmore] at hrest
      exact hrest rfl
  | succ n ih =>
    cases size with
    | zero => exact iff_of_true List.nil_prefix (Nat.zero_le _)
    | succ size =>
      rw [List.replicate_succ, List.replicate_succ, List.cons_append, List.cons_prefix_cons, ih,
        and_iff_right rfl]
      omega

end Text

namespace DateField

def letter : DateField → Char
  | day => 'D'
  | month => 'M'
  | year => 'Y'
  | hour => 'H'
  | minute => 'm'
  | second => 's'

def size : DateField → Nat
  | year => 4
  | _ => 2

theorem letters_eq (field : DateField) : field.letters = List.replicate field.size field.letter := by
  cases field <;> rfl

theorem letters_eq_cons (field : DateField) :
    field.letters = field.letter :: List.replicate (field.size - 1) field.letter := by
  cases field <;> rfl

theorem size_pos (field : DateField) : 0 < field.size := by
  cases field <;> decide

theorem letter_injective {field other : DateField} (h : field.letter = other.letter) :
    field = other := by
  revert h
  cases field <;> cases other <;> decide

theorem mem_all (field : DateField) : field ∈ all := by
  cases field <;> decide

theorem finder_letters (field : DateField) (rest : Text) :
    finder (field.letters ++ rest) = some (field, field.size - 1) := by
  cases field <;> rfl

theorem finder_eq_none_iff {t : Text} : finder t = none ↔ ∀ field : DateField, ¬field.letters <+: t := by
  rw [finder, Option.map_eq_none_iff, List.find?_eq_none]
  constructor
  · intro h field hstarts
    exact h field field.mem_all (List.isPrefixOf_iff_prefix.2 hstarts)
  · intro h field _ hstarts
    exact h field (List.isPrefixOf_iff_prefix.1 hstarts)

theorem finder_run_eq_none {n : Nat} {c : Char} {rest : Text} (hn : 0 < n)
    (hrest : rest.head? ≠ some c) (hshort : ∀ field : DateField, field.letter = c → n < field.size) :
    finder (List.replicate n c ++ rest) = none := by
  rw [finder_eq_none_iff]
  intro field hstarts
  by_cases hletter : field.letter = c
  · have hlt := hshort field hletter
    rw [letters_eq, hletter, Text.replicate_prefix_iff hrest] at hstarts
    omega
  · obtain ⟨m, rfl⟩ := Nat.exists_eq_add_of_lt hn
    rw [letters_eq_cons, Nat.zero_add, List.replicate_succ, List.cons_append,
      List.cons_prefix_cons] at hstarts
    exact hletter hstarts.1

end DateField

namespace Instant

variable (i : Instant)

/-- For a letter that fields are written with: how many of it make up a field, and what the field gives. -/
def letterShown : Char → Option (Nat × Text)
  | 'D' => some (2, twoDigits i.day)
  | 'M' => some (2, twoDigits i.month)
  | 'Y' => some (4, yearDigits i.year)
  | 'H' => some (2, twoDigits i.hour)
  | 'm' => some (2, twoDigits i.minute)
  | 's' => some (2, twoDigits i.second)
  | _ => none

def runShown (c : Char) (n : Nat) : Text :=
  match i.letterShown c with
  | some (size, shown) => (List.replicate (n / size) shown).flatten ++ List.replicate (n % size) c
  | none => List.replicate n c

theorem runShown_letter (field : DateField) (n : Nat) :
    i.runShown field.letter n =
      (List.replicate (n / field.size) (i.shown field)).flatten ++
        List.replicate (n % field.size) field.letter := by
  cases field <;> rfl

theorem runShown_other {c : Char} (h : ∀ field : DateField, field.letter ≠ c) (n : Nat) :
    i.runShown c n = List.replicate n c := by
  have hnone : i.letterShown c = none := by
    unfold letterShown
    split
    · exact absurd rfl (h .day)
    · exact absurd rfl (h .month)
    · exact absurd rfl (h .year)
    · exact absurd rfl (h .hour)
    · exact absurd rfl (h .minute)
    · exact absurd rfl (h .second)
    · rfl
  rw [runShown, hnone]

theorem runShown_short {field : DateField} {n : Nat} (h : n < field.size) :
    i.runShown field.letter n = List.replicate n field.letter := by
  rw [runShown_letter, Nat.div_eq_of_lt h, Nat.mod_eq_of_lt h]
  rfl

theorem runShown_add_size (field : DateField) (n : Nat) :
    i.runShown field.letter (field.size + n) = i.shown field ++ i.runShown field.letter n := by
  rw [runShown_letter, runShown_letter, Nat.add_div_left n field.size_pos, Nat.add_mod_left,
    List.replicate_succ, List.flatten_cons, List.append_assoc]

theorem formatDate_letters (field : DateField) (rest : Text) :
    i.formatDate (field.letters ++ rest) = i.shown field ++ i.formatDate rest := by
  have hfind := DateField.finder_letters field rest
  rw [DateField.letters_eq_cons, List.cons_append] at hfind ⊢
  rw [formatDate, Text.cut_of_some hfind, List.drop_left' List.length_replicate]
  rfl

theorem formatDate_passed {c : Char} {rest : Text} (h : DateField.finder (c :: rest) = none) :
    i.formatDate (c :: rest) = c :: i.formatDate rest := by
  rw [formatDate, Text.cut_of_none h, formatDate]
  generalize Text.cut DateField.finder rest = pieces
  unfold Piece.consChar
  split <;> rfl

theorem formatDate_stretch {c : Char} {rest : Text} (n : Nat) (hrest : rest.head? ≠ some c)
    (hshort : ∀ field : DateField, field.letter = c → n < field.size) :
    i.formatDate (List.replicate n c ++ rest) = List.replicate n c ++ i.formatDate rest := by
  induction n with
  | zero => rfl
  | succ n ih =>
    have hnone := DateField.finder_run_eq_none (Nat.succ_pos n) hrest hshort
    have hlater := ih fun field hletter => Nat.lt_of_succ_lt (hshort field hletter)
    rw [List.replicate_succ, List.cons_append] at hnone ⊢
    rw [i.formatDate_passed hnone, hlater]
    rfl

theorem formatDate_field_run (field : DateField) (n : Nat) {rest : Text}
    (hrest : rest.head? ≠ some field.letter) :
    i.formatDate (List.replicate n field.letter ++ rest) =
      i.runShown field.letter n ++ i.formatDate rest := by
  induction n using Nat.strongRecOn with
  | ind n ih =>
    by_cases hn : n < field.size
    · rw [i.runShown_short hn]
      refine i.formatDate_stretch n hrest fun other hletter => ?_
      rw [DateField.letter_injective hletter]
      exact hn
    · obtain ⟨m, rfl⟩ := Nat.exists_eq_add_of_le (Nat.le_of_not_lt hn)
      have hlater := ih m (Nat.lt_add_of_pos_left field.size_pos)
      rw [List.replicate_add, ← field.letters_eq, List.append_assoc, formatDate_letters, hlater,
        runShown_add_size, List.append_assoc]

theorem formatDate_run (c : Char) (n : Nat) {rest : Text} (hrest : rest.head? ≠ some c) :
    i.formatDate (List.replicate n c ++ rest) = i.runShown c n ++ i.formatDate rest := by
  by_cases hletter : ∃ field : DateField, field.letter = c
  · obtain ⟨field, rfl⟩ := hletter
    exact i.formatDate_field_run field n hrest
  · have hother : ∀ field : DateField, field.letter ≠ c := by
      intro field hfield
      exact hletter ⟨field, hfield⟩
    rw [i.runShown_other hother]
    exact i.formatDate_stretch n hrest fun field hfield => absurd hfield (hother field)

theorem formatDate_inRuns {format : Text} {runs : List (Char × Nat)} (h : Text.InRuns format runs) :
    i.formatDate format = runs.flatMap fun run => i.runShown run.1 run.2 := by
  induction runs generalizing format with
  | nil =>
    obtain rfl : [] = format := h.lossless
    rfl
  | cons run more ih =>
    obtain ⟨c, n⟩ := run
    rw [← h.lossless, Text.ofRuns_cons, i.formatDate_run c n h.head?_ne, ih h.tail]
    rfl

/-- Each run of equal characters is shown by itself: of a field's letters, the field as often as they make
it up, and the letters that are left over; of all others the run as it is. -/
theorem formatDate_run_by_run (format : Text) :
    Text.InRuns format (Text.runs format) ∧
      i.formatDate format = (Text.runs format).flatMap fun run => i.runShown run.1 run.2 :=
  ⟨Text.inRuns_runs format, i.formatDate_inRuns (Text.inRuns_runs format)⟩

example : formatDate ⟨2024, 3, 5, 14, 30, 9, 0⟩ "YYYYYY-DDDD".toList = "2024YY-0505".toList := by
  decide

end Instant
end SnippetExpansion
