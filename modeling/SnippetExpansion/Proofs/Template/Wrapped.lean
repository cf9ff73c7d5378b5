import SnippetExpansion.Proofs.Template.Consulting

/-! # Tokens in the argument of a token
A token of a command in braces, whose argument holds text and tokens of commands in square brackets. In a template
all of the inner tokens are put in by the first pass, and the outer command is run on that by the last. -/
namespace SnippetExpansion

open Text (BracketFree)
open Placeholder

variable {s : Snapshot} {reply : (r : Request) → r.Answer}

theorem Text.replaceFirst_append {c : Char} {before : Text} (h : c ∉ before) (part new after : Text) :
    replaceFirst (c :: part) new (before ++ (c :: part ++ after)) = before ++ (new ++ after) := by
  induction before with
  | nil =>
    have hstarts : (c :: part).isPrefixOf (c :: part ++ after) :=
      List.isPrefixOf_iff_prefix.2 (List.prefix_append _ _)
    rw [List.nil_append, List.cons_append, replaceFirst, ← List.cons_append, if_pos hstarts,
      List.drop_left]
    rfl
  | cons d before ih =>
    obtain ⟨hd, hbefore⟩ := not_or.1 (mt List.mem_cons.2 h)
    have hstarts : ¬(c :: part).isPrefixOf (d :: (before ++ (c :: part ++ after))) := by
      simp [List.isPrefixOf, hd]
    rw [List.cons_append, replaceFirst, if_neg hstarts, ih hbefore]
    rfl

theorem Placeholder.hasKey_of_lookup? {b : Bracket} {inside : Text} {command : Command}
    (h : Command.lookup? (ofInside b inside).key = some command) : hasKey inside := by
  have hempty : Command.lookup? [] ≠ some command := by cases command <;> decide
  cases inside with
  | nil => exact absurd h hempty
  | cons c rest =>
    by_cases hc : c = ':'
    · subst hc
      exact absurd h hempty
    · simp [hasKey, hc]

namespace Part

/-- Text without brackets, or a token of a command in square brackets. -/
def Runs : Part → Prop
  | literal t => BracketFree t
  | token b inside =>
    b = .square ∧ BracketFree inside ∧ ∃ command, Command.lookup? (ofInside b inside).key = some command

def output (s : Snapshot) (reply : (r : Request) → r.Answer) : Part → Text
  | literal t => t
  | token b inside => (s.resolve (ofInside b inside)).outcome reply

def fed : Part → Piece Placeholder
  | literal t => .plain t
  | token b inside => .found (written b inside) (ofInside b inside)

variable {part : Part}

theorem text_fed (part : Part) : part.fed.text = part.text := by cases part <;> rfl

theorem Runs.absent_text (h : part.Runs) : Bracket.curly.Absent part.text := by
  cases part with
  | literal t => exact h .curly
  | token b inside =>
    obtain ⟨rfl, hinside, -⟩ := h
    exact Chunk.curly_absent_written_square hinside

theorem Runs.apart (h : part.Runs) : part.fed.Apart .square ∅ := by
  cases part with
  | literal t => exact .inl (h .square)
  | token b inside =>
    obtain ⟨rfl, hinside, command, hcommand⟩ := h
    exact ⟨inside, rfl, hinside .square, hasKey_of_lookup? hcommand, rfl⟩

theorem Runs.resolution (h : part.Runs) (s : Snapshot) (again : Text → Expansion Text) :
    (part.fed.resolution s .square again).outcome reply = part.output s reply := by
  cases part with
  | literal t => rfl
  | token b inside =>
    obtain ⟨rfl, hinside, command, hcommand⟩ := h
    rw [fed, resolution_command (hinside .square) hcommand rfl, output,
      Snapshot.resolve_of_lookup? hcommand]

theorem Runs.output_absent (h : part.Runs) (hreply : Request.SourcesBraceless reply) :
    Bracket.curly.Absent (part.output s reply) := by
  cases part with
  | literal t => exact h .curly
  | token b inside =>
    obtain ⟨rfl, hinside, command, hcommand⟩ := h
    rw [output, Snapshot.resolve_of_lookup? hcommand]
    exact s.runCommand_braceless hreply command (argument_absent (hinside .curly))

end Part

/-- The token in braces with this key and these parts as its argument. -/
def wrapped (key : Text) (parts : List Part) : Text :=
  written .curly (key ++ ':' :: parts.flatMap Part.text)

def wrappedPieces (key : Text) (parts : List Part) : List (Piece Placeholder) :=
  .plain (Bracket.curly.opener :: (key ++ [':'])) :: (parts.map Part.fed ++ [.plain [Bracket.curly.closer]])

theorem wrapped_eq (key : Text) (parts : List Part) :
    wrapped key parts = (wrappedPieces key parts).flatMap Piece.text := by
  have hparts : (parts.map Part.fed).flatMap Piece.text = parts.flatMap Part.text := by
    simp only [List.flatMap_map, Part.text_fed]
  rw [wrapped, wrappedPieces, List.flatMap_cons, List.flatMap_append, hparts]
  simp [written, Piece.text]

/-- What the passes over braces make of a token of a command is what the command gives. -/
theorem bracesPassed_written {key argument : Text} {command : Command}
    (hcommand : Command.lookup? key = some command) (hargument : Bracket.curly.Absent argument)
    (maxDepth : Nat) :
    bracesPassed s maxDepth (written .curly (key ++ ':' :: argument)) = s.runCommand command argument := by
  have hread : ofInside .curly (key ++ ':' :: argument) =
      ⟨written .curly (key ++ ':' :: argument), key, some argument⟩ :=
    Pattern.ofInside_of_argument (Command.colon_not_mem_of_lookup? hcommand) argument
  have hlookup : Command.lookup? (ofInside .curly (key ++ ':' :: argument)).key = some command := by
    rw [hread]
    exact hcommand
  have hinside : Bracket.curly.Absent (key ++ ':' :: argument) :=
    Bracket.Absent.append_iff.2 ⟨Command.bracketFree_of_lookup? hcommand .curly,
      Bracket.Absent.cons_iff.2 ⟨by decide, hargument⟩⟩
  have hresolve : s.resolve (ofInside .curly (key ++ ':' :: argument)) = s.runCommand command argument := by
    rw [Snapshot.resolve_of_lookup? hlookup, hread]
    rfl
  have harguments : ∀ f p, .found f p ∈ pieces .curly (written .curly (key ++ ':' :: argument)) →
      p.argument.isSome := by
    rw [pieces_written hinside (hasKey_of_lookup? hlookup), hread]
    intro f p hmem
    obtain ⟨-, rfl⟩ := Piece.found.inj (List.mem_singleton.1 hmem)
    rfl
  rw [bracesPassed, substituteBare_of_arguments s harguments, pure_bind, pieces, Text.flatMap_text_cut,
    resolveText, resolveLevels, pieces_written hinside (hasKey_of_lookup? hlookup)]
  have hresolved : (ofInside .curly (key ++ ':' :: argument)).resolvedIn .curly := by
    rw [hread]
    rfl
  rw [resolvePieces_unnoted hresolved rfl, Snapshot.resolution_of_lookup? hinside hlookup, hresolve]
  simp only [resolvePieces, pure_bind, List.append_nil, bind_pure]

section Wrapped

variable {key : Text} {command : Command} {parts : List Part}
  (hkey : Command.lookup? key = some command) (hparts : ∀ part ∈ parts, part.Runs)

include hkey hparts

theorem wrappedPieces_apart : ∀ piece ∈ wrappedPieces key parts, piece.Apart .square ∅ := by
  have hopening : Bracket.square.Absent (Bracket.curly.opener :: (key ++ [':'])) := by
    have hfree := Command.bracketFree_of_lookup? hkey .square
    refine Bracket.Absent.cons_iff.2 ⟨by decide, Bracket.Absent.append_iff.2 ⟨hfree, by decide⟩⟩
  intro piece hpiece
  simp only [wrappedPieces, List.mem_cons, List.mem_append, List.mem_map, List.not_mem_nil,
    or_false] at hpiece
  rcases hpiece with rfl | ⟨part, hpart, rfl⟩ | rfl
  · exact .inl hopening
  · exact (hparts part hpart).apart
  · exact .inl (by decide)

theorem pieces_square_wrapped :
    pieces .square (wrapped key parts) = Piece.glue (wrappedPieces key parts) := by
  rw [wrapped_eq, pieces_of_apart_alone (wrappedPieces_apart hkey hparts)]

theorem all_square_wrapped :
    all .square (wrapped key parts) = parts.filterMap fun part => part.fed.value? := by
  rw [all, pieces_square_wrapped hkey hparts, Piece.filterMap_value?_glue, wrappedPieces,
    List.filterMap_cons_none rfl, List.filterMap_append, List.filterMap_map]
  exact List.append_nil _

theorem found_mem_wrapped {t : Text} {p : Placeholder} :
    .found t p ∈ pieces .square (wrapped key parts) ↔ ∃ inside,
      .token .square inside ∈ parts ∧ t = written .square inside ∧ p = ofInside .square inside := by
  have hall : p ∈ all .square (wrapped key parts) ↔
      ∃ inside, .token .square inside ∈ parts ∧ p = ofInside .square inside := by
    rw [all_square_wrapped hkey hparts, List.mem_filterMap]
    constructor
    · rintro ⟨part, hpart, hvalue⟩
      cases part with
      | literal t => cases hvalue
      | token b inside =>
        obtain ⟨rfl, -⟩ := hparts _ hpart
        exact ⟨inside, hpart, (Option.some.inj hvalue).symm⟩
    · rintro ⟨inside, hpart, rfl⟩
      exact ⟨.token .square inside, hpart, rfl⟩
  constructor
  · intro hmem
    obtain ⟨inside, hpart, rfl⟩ := hall.1 (mem_all_iff_found.2 ⟨t, hmem⟩)
    obtain ⟨inside', rfl, -, -, hsame⟩ := found_of_mem_pieces hmem
    obtain rfl := written_injective (congrArg Placeholder.text hsame)
    exact ⟨inside, hpart, rfl, rfl⟩
  · rintro ⟨inside, hpart, rfl, rfl⟩
    obtain ⟨found, hmem⟩ := mem_all_iff_found.1 (hall.2 ⟨inside, hpart, rfl⟩)
    obtain ⟨inside', rfl, -, -, hsame⟩ := found_of_mem_pieces hmem
    obtain rfl := written_injective (congrArg Placeholder.text hsame)
    exact hmem

theorem pieces_curly_wrapped :
    pieces .curly (wrapped key parts) =
      [.found (wrapped key parts) ⟨wrapped key parts, key, some (parts.flatMap Part.text)⟩] := by
  have hcolon := Command.colon_not_mem_of_lookup? hkey
  have hargument : Bracket.curly.Absent (parts.flatMap Part.text) :=
    .flatMap fun part hpart => (hparts part hpart).absent_text
  have hread := Pattern.ofInside_of_argument (b := .curly) hcolon (parts.flatMap Part.text)
  rw [wrapped, pieces_written ?_ (hasKey_of_lookup? (b := .curly) ?_), hread]
  · exact Bracket.Absent.append_iff.2 ⟨Command.bracketFree_of_lookup? hkey .curly,
      Bracket.Absent.cons_iff.2 ⟨by decide, hargument⟩⟩
  · exact command
  · rw [hread]
    exact hkey

/-- The first pass puts in what the parts give, and nothing is read in that. -/
theorem passed_wrapped (s : Snapshot) (maxDepth : Nat) :
    passed reply s maxDepth .square (wrapped key parts) =
      written .curly (key ++ ':' :: parts.flatMap (Part.output s reply)) := by
  have hvalues (again : Text → Expansion Text) :
      parts.flatMap (fun part => (part.fed.resolution s .square again).outcome reply) =
        parts.flatMap (Part.output s reply) :=
    List.flatMap_congr fun part hpart => (hparts part hpart).resolution s again
  rw [wrapped_eq, passed_apart (wrappedPieces_apart hkey hparts), wrappedPieces, List.flatMap_cons,
    List.flatMap_append, List.flatMap_map, hvalues]
  simp [written, Piece.resolution]

theorem run_expand_wrapped {P : Request → Prop} (hprompt : ∀ label, ¬P (.prompt label)) {maxDepth : Nat}
    (hfirst : (resolveText s maxDepth .square 0 (wrapped key parts)).AsksOnly P fun _ => True)
    (world : Surroundings) :
    ∃ asked, (∀ r ∈ asked, P r) ∧ world.run (expand s maxDepth (wrapped key parts)) =
      { world with asked := world.asked ++ asked }.run
        (bracesPassed s maxDepth (written .curly (key ++ ':' :: parts.flatMap (Part.output s world.reply)))) := by
  obtain ⟨asked, hasked, hrun⟩ := world.run_unprompted hfirst hprompt
  refine ⟨asked, hasked, ?_⟩
  rw [expand_eq, Surroundings.run_bind, hrun, ← passed_wrapped hkey hparts s maxDepth]
  rfl

/-- Where nothing from outside holds a brace, a template comes to the outer command's text on what the parts
give. -/
theorem expand_wrapped {world : Surroundings} (hworld : Request.SourcesBraceless world.reply) (maxDepth : Nat) :
    (world.run (expand s maxDepth (wrapped key parts))).1 =
      (s.runCommand command (parts.flatMap (Part.output s world.reply))).outcome world.reply := by
  have hcommands : ∀ p ∈ all .square (wrapped key parts),
      ∃ command, Command.lookup? p.key = some command := by
    intro p hp
    obtain ⟨t, hmem⟩ := mem_all_iff_found.1 hp
    obtain ⟨inside, hpart, -, rfl⟩ := (found_mem_wrapped hkey hparts).1 hmem
    exact (hparts _ hpart).2.2
  have hgiven : Bracket.curly.Absent (parts.flatMap (Part.output s world.reply)) :=
    .flatMap fun part hpart => (hparts part hpart).output_absent hworld
  obtain ⟨asked, -, hrun⟩ := run_expand_wrapped hkey hparts (fun _ hprompt => hprompt trivial)
    (resolveText_unprompted (fun p hp _ => hcommands p hp) maxDepth 0) world
  rw [hrun, bracesPassed_written hkey hgiven,
    Surroundings.run_eq_outcome (s.runCommand_unprompted command .square _), Surroundings.reply_noted]

end Wrapped

section First

variable {key lead inner : Text} {command first : Command} {rest : List Part}
  (hkey : Command.lookup? key = some command) (hlead : BracketFree lead) (hinner : BracketFree inner)
  (hfirst : Command.lookup? (ofInside .square inner).key = some first) (hrest : ∀ part ∈ rest, part.Runs)

include hlead in
theorem runs_of_literal {t : Text} (ht : BracketFree t) (hrest : ∀ part ∈ rest, part.Runs) :
    ∀ part ∈ Part.literal (lead ++ t) :: rest, part.Runs :=
  List.forall_mem_cons.2 ⟨hlead.append ht, hrest⟩

include hlead hinner hfirst hrest in
theorem runs_of_first : ∀ part ∈ .literal lead :: .token .square inner :: rest, part.Runs :=
  List.forall_mem_cons.2 ⟨hlead, List.forall_mem_cons.2 ⟨⟨rfl, hinner, first, hfirst⟩, hrest⟩⟩

include hkey hlead

theorem replaceFirst_inner (new : Text) :
    Text.replaceFirst (written .square inner) new
        (wrapped key (.literal lead :: .token .square inner :: rest)) =
      wrapped key (.literal (lead ++ new) :: rest) := by
  have hopener : Bracket.square.opener ∉ Bracket.curly.opener :: (key ++ ':' :: lead) := by
    intro hmem
    have habsent : Bracket.square.Absent (Bracket.curly.opener :: (key ++ ':' :: lead)) := by
      have hfree := Command.bracketFree_of_lookup? hkey .square
      refine Bracket.Absent.cons_iff.2 ⟨by decide, Bracket.Absent.append_iff.2 ⟨hfree, ?_⟩⟩
      exact Bracket.Absent.cons_iff.2 ⟨by decide, hlead .square⟩
    exact Bracket.not_isInner_opener .square (habsent _ hmem)
  have hreplaced := Text.replaceFirst_append hopener (inner ++ [Bracket.square.closer]) new
    (rest.flatMap Part.text ++ [Bracket.curly.closer])
  simpa [wrapped, written, Part.text] using hreplaced

include hinner hfirst hrest

theorem execute_wrapped (s : Snapshot) (maxDepth : Nat) :
    execute s maxDepth (wrapped key (.literal lead :: .token .square inner :: rest)) =
      (do
        let value ← s.runCommand first (ofInside .square inner).argumentOrEmpty
        if first.outputIsLiteral then
          resolveAround s (wrapped key (.literal lead :: .token .square inner :: rest))
            (written .square inner) value
        else expand s maxDepth (wrapped key (.literal (lead ++ value) :: rest))) := by
  have hwider : written .square inner ≠ wrapped key (.literal lead :: .token .square inner :: rest) := by
    intro hsame
    exact absurd (List.cons.inj hsame).1 (by decide)
  have hfound : first? (wrapped key (.literal lead :: .token .square inner :: rest)) =
      some (ofInside .square inner) := by
    rw [first?, all_square_wrapped hkey (runs_of_first hlead hinner hfirst hrest)]
    rfl
  rw [execute, hfound]
  simp only [hfirst, ofInside_text, if_neg hwider, replaceFirst_inner hkey hlead]

end First
end SnippetExpansion
