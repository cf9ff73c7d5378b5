import SnippetExpansion.Proofs.Dictionary
import SnippetExpansion.Proofs.Template.Resolution

/-! # Expanding token by token
Each pass of an expansion reads a text of flat parts part by part, and leaves one: a part becomes a text
without the brackets that are still to be read, or stays a single token. So a flat template comes to what
its parts come to one by one, and a token as it comes up while typing to what it comes to in a template. -/
namespace SnippetExpansion

open Text (BracketFree)
open Placeholder

variable {reply : (r : Request) → r.Answer} {s : Snapshot} {b : Bracket}

/-- Nothing in the text is open to what stands beside it: it has no brackets, or it is one token. -/
def Whole (b : Bracket) (t : Text) : Prop :=
  b.Absent t ∨ ∃ inside, t = written b inside ∧ b.Absent inside ∧ hasKey inside

theorem Whole.piece {t : Text} (h : Whole b t) :
    ∃ piece : Piece Placeholder, piece.text = t ∧ piece.Apart b ∅ := by
  rcases h with habsent | ⟨inside, rfl, habsent, hkey⟩
  · exact ⟨.plain t, rfl, .inl habsent⟩
  · exact ⟨.found (written b inside) (ofInside b inside), rfl, inside, rfl, habsent, hkey, rfl⟩

theorem pieces_of_whole {texts : List Text} (h : ∀ t ∈ texts, Whole b t) :
    ∃ pieces : List (Piece Placeholder), texts = pieces.map Piece.text ∧
      ∀ piece ∈ pieces, piece.Apart b ∅ := by
  induction texts with
  | nil => exact ⟨[], rfl, nofun⟩
  | cons t texts ih =>
    obtain ⟨hhead, hrest⟩ := List.forall_mem_cons.1 h
    obtain ⟨pieces, rfl, hpieces⟩ := ih hrest
    obtain ⟨piece, rfl, hpiece⟩ := hhead.piece
    exact ⟨piece :: pieces, rfl, List.forall_mem_cons.2 ⟨hpiece, hpieces⟩⟩

theorem pieces_of_apart_alone {pieces : List (Piece Placeholder)}
    (h : ∀ piece ∈ pieces, piece.Apart b ∅) :
    Placeholder.pieces b (pieces.flatMap Piece.text) = Piece.glue pieces :=
  Piece.pieces_of_apart (fun _ ht => absurd ht id) h

theorem Piece.Apart.isWritten {piece : Piece Placeholder} (h : piece.Apart b ∅) :
    piece.IsWritten b := by
  cases piece with
  | plain t => trivial
  | found t p =>
    obtain ⟨inside, ht, -, -, hp⟩ := h
    exact ⟨inside, ht, hp⟩

section Pass

variable {pass : Text → Text} {value : Piece Placeholder → Text}
  (hpass : ∀ pieces : List (Piece Placeholder), (∀ piece ∈ pieces, piece.Apart b ∅) →
    pass (pieces.flatMap Piece.text) = pieces.flatMap value)

include hpass

theorem pass_piece {piece : Piece Placeholder} (h : piece.Apart b ∅) :
    pass piece.text = value piece := by
  have halone := hpass [piece] (List.forall_mem_singleton.2 h)
  simpa using halone

theorem pass_flatten {texts : List Text} (h : ∀ t ∈ texts, Whole b t) :
    pass texts.flatten = (texts.map pass).flatten := by
  obtain ⟨pieces, rfl, hpieces⟩ := pieces_of_whole h
  rw [← List.flatMap_def, hpass pieces hpieces, List.map_map, ← List.flatMap_def]
  exact List.flatMap_congr fun piece hpiece => (pass_piece hpass (hpieces piece hpiece)).symm

end Pass

def passed (reply : (r : Request) → r.Answer) (s : Snapshot) (maxDepth : Nat) (b : Bracket)
    (t : Text) : Text :=
  (resolveText s maxDepth b 0 t).outcome reply

theorem passed_apart {maxDepth : Nat} {pieces : List (Piece Placeholder)}
    (h : ∀ piece ∈ pieces, piece.Apart b ∅) :
    passed reply s maxDepth b (pieces.flatMap Piece.text) =
      pieces.flatMap fun piece =>
        (piece.resolution s b (resolveLevels s b (maxDepth - (0 + 1)))).outcome reply := by
  rw [passed, resolveText, resolveLevels, pieces_of_apart_alone h, resolvePieces_glue]
  refine resolvePieces_outcome (fun piece hpiece => (h piece hpiece).isWritten) ?_
  rintro inside value ⟨⟩

theorem passed_flatten (maxDepth : Nat) {texts : List Text} (h : ∀ t ∈ texts, Whole b t) :
    passed reply s maxDepth b texts.flatten = (texts.map (passed reply s maxDepth b)).flatten :=
  pass_flatten (fun _ => passed_apart) h

theorem passed_absent {maxDepth : Nat} {t : Text} (h : b.Absent t) :
    passed reply s maxDepth b t = t := by
  have hpiece : (Piece.plain t).Apart b ∅ := .inl h
  exact pass_piece (fun _ => passed_apart) hpiece

theorem passed_written {maxDepth : Nat} {inside : Text} (hinside : b.Absent inside)
    (hkey : hasKey inside) :
    passed reply s maxDepth b (written b inside) =
      ((Piece.found (written b inside) (ofInside b inside)).resolution s b
        (resolveLevels s b (maxDepth - (0 + 1)))).outcome reply := by
  have hpiece : (Piece.found (written b inside) (ofInside b inside)).Apart b ∅ :=
    ⟨inside, rfl, hinside, hkey, rfl⟩
  exact pass_piece (fun _ => passed_apart) hpiece

def barePassed (reply : (r : Request) → r.Answer) (s : Snapshot) (t : Text) : Text :=
  (substituteBare s (pieces .curly t)).outcome reply

def Piece.bareResolution (s : Snapshot) : Piece Placeholder → Expansion Text
  | .plain t => pure t
  | .found t p => if p.argument.isSome then pure t else bareValue s p

theorem substituteBare_outcome (pieces : List (Piece Placeholder)) :
    (substituteBare s pieces).outcome reply =
      pieces.flatMap fun piece => (piece.bareResolution s).outcome reply := by
  induction pieces with
  | nil => rfl
  | cons piece pieces ih =>
    rw [List.flatMap_cons, ← ih]
    cases piece with
    | plain t =>
      rw [substituteBare, Dialogue.outcome_bind]
      rfl
    | found t p =>
      rw [substituteBare, Piece.bareResolution]
      split <;> simp only [Dialogue.outcome_bind, Dialogue.outcome_pure]

theorem barePassed_apart {pieces : List (Piece Placeholder)}
    (h : ∀ piece ∈ pieces, piece.Apart .curly ∅) :
    barePassed reply s (pieces.flatMap Piece.text) =
      pieces.flatMap fun piece => (piece.bareResolution s).outcome reply := by
  rw [barePassed, pieces_of_apart_alone h, substituteBare_glue, substituteBare_outcome]

theorem barePassed_flatten {texts : List Text} (h : ∀ t ∈ texts, Whole .curly t) :
    barePassed reply s texts.flatten = (texts.map (barePassed reply s)).flatten :=
  pass_flatten (fun _ => barePassed_apart) h

theorem barePassed_absent {t : Text} (h : Bracket.curly.Absent t) : barePassed reply s t = t := by
  have hpiece : (Piece.plain t).Apart .curly ∅ := .inl h
  exact pass_piece (fun _ => barePassed_apart) hpiece

theorem barePassed_written {inside : Text} (hinside : Bracket.curly.Absent inside)
    (hkey : hasKey inside) :
    barePassed reply s (written .curly inside) =
      ((Piece.found (written .curly inside) (ofInside .curly inside)).bareResolution s).outcome
        reply := by
  have hpiece : (Piece.found (written .curly inside) (ofInside .curly inside)).Apart .curly ∅ :=
    ⟨inside, rfl, hinside, hkey, rfl⟩
  exact pass_piece (fun _ => barePassed_apart) hpiece

theorem bareValue_braceless (hs : s.Braceless) (hreply : Request.SourcesBraceless reply)
    (inside : Text) :
    Bracket.curly.Absent ((bareValue s (ofInside .curly inside)).outcome reply) ∨
      (bareValue s (ofInside .curly inside)).outcome reply = written .curly inside := by
  rw [bareValue]
  split
  · next value hvalue => exact .inl (hs _ value hvalue)
  · split
    · exact .inl (s.runCommand_braceless hreply _ .nil)
    · exact .inr rfl

theorem barePassed_whole (hs : s.Braceless) (hreply : Request.Braceless reply) {t : Text}
    (h : Whole .curly t) : Whole .curly (barePassed reply s t) := by
  rcases h with habsent | ⟨inside, rfl, hinside, hkey⟩
  · rw [barePassed_absent habsent]
    exact .inl habsent
  · rw [barePassed_written hinside hkey, Piece.bareResolution]
    split
    · exact .inr ⟨inside, rfl, hinside, hkey⟩
    · rcases bareValue_braceless hs hreply.sources inside with habsent | hsame
      · exact .inl habsent
      · rw [hsame]
        exact .inr ⟨inside, rfl, hinside, hkey⟩

namespace Part

def Keyed : Part → Prop
  | literal _ => True
  | token _ inside => hasKey inside

instance : DecidablePred Flat
  | literal t => inferInstanceAs (Decidable (BracketFree t))
  | token _ inside => inferInstanceAs (Decidable (BracketFree inside))

instance : DecidablePred Keyed
  | literal _ => inferInstanceAs (Decidable True)
  | token _ inside => inferInstanceAs (Decidable (hasKey inside))

theorem whole_square {part : Part} (hflat : part.Flat) (hkeyed : part.Keyed) :
    Whole .square part.text := by
  cases part with
  | literal t => exact .inl (hflat .square)
  | token b inside =>
    cases b with
    | square => exact .inr ⟨inside, rfl, hflat .square, hkeyed⟩
    | curly => exact .inl (Chunk.square_absent_written_curly hflat)

/-- The first pass leaves of a part a text without braces or a token in braces. -/
theorem passed_whole (hs : s.Braceless) (hreply : Request.Braceless reply) (maxDepth : Nat)
    {part : Part} (hflat : part.Flat) (hkeyed : part.Keyed) :
    Whole .curly (passed reply s maxDepth .square part.text) := by
  cases part with
  | literal t =>
    rw [text, passed_absent (hflat .square)]
    exact .inl (hflat .curly)
  | token b inside =>
    cases b with
    | square =>
      exact .inl (resolveLevels_braceless hs hreply _ (Chunk.curly_absent_written_square hflat))
    | curly =>
      rw [text, passed_absent (Chunk.square_absent_written_curly hflat)]
      exact .inr ⟨inside, rfl, hflat .curly, hkeyed⟩

end Part

theorem expand_outcome (maxDepth : Nat) (t : Text) :
    (expand s maxDepth t).outcome reply =
      passed reply s maxDepth .curly (barePassed reply s (passed reply s maxDepth .square t)) := by
  simp only [expand, Dialogue.outcome_bind, barePassed, passed]

/-- A flat template comes to what its parts come to one by one. -/
theorem expand_flatMap (hs : s.Braceless) (hreply : Request.Braceless reply) (maxDepth : Nat)
    {parts : List Part} (hflat : ∀ part ∈ parts, part.Flat) (hkeyed : ∀ part ∈ parts, part.Keyed) :
    (expand s maxDepth (parts.flatMap Part.text)).outcome reply =
      parts.flatMap fun part => (expand s maxDepth part.text).outcome reply := by
  -- Each pass finds texts that are whole for its brackets, and leaves them whole for the next one.
  have hsquare : ∀ t ∈ parts.map Part.text, Whole .square t :=
    List.forall_mem_map.2 fun part hpart =>
      part.whole_square (hflat part hpart) (hkeyed part hpart)
  have hbare : ∀ t ∈ (parts.map Part.text).map (passed reply s maxDepth .square),
      Whole .curly t := by
    rw [List.map_map]
    exact List.forall_mem_map.2 fun part hpart =>
      part.passed_whole hs hreply maxDepth (hflat part hpart) (hkeyed part hpart)
  have hcurly := List.forall_mem_map.2 fun t ht => barePassed_whole hs hreply (hbare t ht)
  calc (expand s maxDepth (parts.flatMap Part.text)).outcome reply
    _ = passed reply s maxDepth .curly
          (barePassed reply s (passed reply s maxDepth .square (parts.map Part.text).flatten)) := by
        rw [expand_outcome, List.flatMap_def]
    _ = ((((parts.map Part.text).map (passed reply s maxDepth .square)).map
          (barePassed reply s)).map (passed reply s maxDepth .curly)).flatten := by
        rw [passed_flatten maxDepth hsquare, barePassed_flatten hbare, passed_flatten maxDepth hcurly]
    _ = parts.flatMap fun part => (expand s maxDepth part.text).outcome reply := by
        simp only [List.map_map, List.flatMap_def, expand_outcome, Function.comp_def]

theorem pieces_written {inside : Text} (hinside : b.Absent inside) (hkey : hasKey inside) :
    pieces b (written b inside) = [.found (written b inside) (ofInside b inside)] := by
  have hpiece : (Piece.found (written b inside) (ofInside b inside)).Apart b ∅ :=
    ⟨inside, rfl, hinside, hkey, rfl⟩
  have hpieces := pieces_of_apart_alone (List.forall_mem_singleton.2 hpiece)
  rwa [List.flatMap_singleton] at hpieces

theorem all_written {inside : Text} (hinside : b.Absent inside) (hkey : hasKey inside) :
    all b (written b inside) = [ofInside b inside] := by
  rw [all, pieces_written hinside hkey]
  rfl

theorem first?_written (b : Bracket) {inside : Text} (hinside : BracketFree inside)
    (hkey : hasKey inside) : first? (written b inside) = some (ofInside b inside) := by
  have hall := all_written (hinside b) hkey
  cases b with
  | square => rw [first?, hall]; rfl
  | curly =>
    rw [first?, hall, all_of_absent (Chunk.square_absent_written_curly hinside)]
    rfl

theorem rescans_of_absent {p : Placeholder} {value : Text} (h : b.Absent value) :
    p.rescans b value = false := by
  rw [rescans, occursIn, all_of_absent h, List.any_nil, Bool.and_false]

theorem rescans_of_command {p : Placeholder} {command : Command} {value : Text}
    (hcommand : Command.lookup? p.key = some command)
    (hvalue : command.outputIsLiteral ∨ b.Absent value) : p.rescans b value = false := by
  rcases hvalue with hliteral | habsent
  · rw [rescans, isLiteral, hcommand, Option.any_some, hliteral]
    rfl
  · exact rescans_of_absent habsent

theorem resolution_command {inside : Text} (hinside : b.Absent inside) {command : Command}
    (hcommand : Command.lookup? (ofInside b inside).key = some command)
    (hresolved : (ofInside b inside).resolvedIn b) (again : Text → Expansion Text) :
    ((Piece.found (written b inside) (ofInside b inside)).resolution s b again).outcome reply =
      (s.runCommand command (ofInside b inside).argumentOrEmpty).outcome reply := by
  have hresolve : s.resolve (ofInside b inside) =
      s.runCommand command (ofInside b inside).argumentOrEmpty := by
    rw [Snapshot.resolve, hcommand]
  have hvalue : command.outputIsLiteral ∨
      b.Absent ((s.runCommand command (ofInside b inside).argumentOrEmpty).outcome reply) := by
    rw [or_iff_not_imp_left]
    exact fun hliteral => s.runCommand_absent hliteral (argument_absent hinside)
  rw [Piece.resolution, if_pos hresolved, Dialogue.outcome_bind, hresolve,
    rescans_of_command hcommand hvalue]
  rfl

theorem expand_command (hreply : Request.Braceless reply) (maxDepth : Nat) (b : Bracket)
    {inside : Text} (hinside : BracketFree inside) (hkey : hasKey inside) {command : Command}
    (hcommand : Command.lookup? (ofInside b inside).key = some command)
    (hvar : s.vars.find? (ofInside b inside).key = none) :
    (expand s maxDepth (written b inside)).outcome reply =
      (s.runCommand command (ofInside b inside).argumentOrEmpty).outcome reply := by
  have hvalue := s.runCommand_braceless hreply.sources command (argument_absent (a := b) (hinside .curly))
  rw [expand_outcome]
  cases b with
  | square =>
    rw [passed_written (hinside .square) hkey, resolution_command (hinside .square) hcommand rfl,
      barePassed_absent hvalue, passed_absent hvalue]
  | curly =>
    rw [passed_absent (Chunk.square_absent_written_curly hinside),
      barePassed_written (hinside .curly) hkey, Piece.bareResolution]
    cases hargument : (ofInside .curly inside).argument with
    | none =>
      have hempty : (ofInside .curly inside).argumentOrEmpty = [] := by
        rw [argumentOrEmpty, hargument]
        rfl
      rw [hempty] at hvalue ⊢
      rw [Option.isSome_none, if_neg Bool.false_ne_true, bareValue, hvar, hcommand,
        passed_absent hvalue]
    | some label =>
      have hresolved : (ofInside .curly inside).resolvedIn .curly := by
        rw [resolvedIn, hargument]
        rfl
      rw [Option.isSome_some, if_pos rfl, Dialogue.outcome_pure,
        passed_written (hinside .curly) hkey, resolution_command (hinside .curly) hcommand hresolved]

/-- A flat token comes to the same by itself as in a template. -/
theorem execute_outcome (hreply : Request.Braceless reply)
    (hnames : ∀ name ∈ s.vars.names, Command.lookup? name = none) (maxDepth : Nat) (b : Bracket)
    {inside : Text} (hinside : BracketFree inside) (hkey : hasKey inside) :
    (execute s maxDepth (written b inside)).outcome reply =
      (expand s maxDepth (written b inside)).outcome reply := by
  rw [execute, first?_written b hinside hkey]
  cases hcommand : Command.lookup? (ofInside b inside).key with
  | none => simp only [hcommand]
  | some command =>
    have hvar : s.vars.find? (ofInside b inside).key = none := by
      rw [← Option.not_isSome_iff_eq_none, ← Dictionary.mem_names_iff]
      intro hname
      rw [hnames _ hname] at hcommand
      cases hcommand
    rw [expand_command hreply maxDepth b hinside hkey hcommand hvar]
    simp only [hcommand, ofInside_text, if_pos, bind_pure]

end SnippetExpansion
