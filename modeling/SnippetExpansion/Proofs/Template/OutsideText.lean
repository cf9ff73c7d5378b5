import SnippetExpansion.Proofs.Template.Flat
import Mathlib.Data.List.Forall2

/-! # Text from outside as data
Text of the clipboard or the generator is put in by one pass and read by the later ones. What a flat
template comes to is foreseen as long as no two such texts, with something between them, hold a
placeholder in braces; other texts are taken for parts of the template. -/
namespace SnippetExpansion

open Text (BracketFree)
open Placeholder

section Glue

variable (s : Snapshot) (b : Bracket) (again : Text → Expansion Text)

theorem resolvePieces_consChar (known : List (Text × Text)) (c : Char)
    (pieces : List (Piece Placeholder)) :
    resolvePieces s b again known (Piece.consChar c pieces) =
      (do let more ← resolvePieces s b again known pieces; pure (c :: more)) := by
  unfold Piece.consChar
  split
  · simp [resolvePieces]
  · rfl

theorem resolvePieces_foldr (known : List (Text × Text)) (t : Text)
    (pieces : List (Piece Placeholder)) :
    resolvePieces s b again known (t.foldr Piece.consChar pieces) =
      (do let more ← resolvePieces s b again known pieces; pure (t ++ more)) := by
  induction t with
  | nil => simp
  | cons c t ih => simp [resolvePieces_consChar, ih]

theorem resolvePieces_glue (known : List (Text × Text)) (pieces : List (Piece Placeholder)) :
    resolvePieces s b again known (Piece.glue pieces) =
      resolvePieces s b again known pieces := by
  induction pieces generalizing known with
  | nil => rfl
  | cons piece pieces ih =>
    cases piece with
    | plain t => rw [Piece.glue, resolvePieces_foldr, ih]; rfl
    | found t p => simp only [Piece.glue, resolvePieces, ih]

theorem substituteBare_consChar (c : Char) (pieces : List (Piece Placeholder)) :
    substituteBare s (Piece.consChar c pieces) =
      (do let more ← substituteBare s pieces; pure (c :: more)) := by
  unfold Piece.consChar
  split
  · simp [substituteBare]
  · rfl

theorem substituteBare_foldr (t : Text) (pieces : List (Piece Placeholder)) :
    substituteBare s (t.foldr Piece.consChar pieces) =
      (do let more ← substituteBare s pieces; pure (t ++ more)) := by
  induction t with
  | nil => simp
  | cons c t ih => simp [substituteBare_consChar, ih]

theorem substituteBare_glue (pieces : List (Piece Placeholder)) :
    substituteBare s (Piece.glue pieces) = substituteBare s pieces := by
  induction pieces with
  | nil => rfl
  | cons piece pieces ih =>
    cases piece with
    | plain t => rw [Piece.glue, substituteBare_foldr, ih]; rfl
    | found t p => simp only [Piece.glue, substituteBare, ih]

end Glue

def Contribution.Fits (ai : AiConfig) : Contribution → Prop
  | .text t => Bracket.curly.Absent t
  | .clipboard => True
  | .generated provider key prompt => ai.active = some (provider, key) ∧ BracketFree prompt

namespace Chunk

def Fits (ai : AiConfig) : Chunk → Prop
  | settled c => c.Fits ai
  | token _ inside => BracketFree inside

theorem flat_of_fits {ai : AiConfig} {chunk : Chunk} (h : chunk.Fits ai) : chunk.Flat := by
  cases chunk with
  | settled c => trivial
  | token b inside => exact h

theorem curly_absent_written_square {inside : Text} (h : BracketFree inside) :
    Bracket.curly.Absent (written .square inside) := by
  refine Bracket.Absent.cons_iff.2 ⟨by decide, Bracket.Absent.append_iff.2 ⟨h .curly, ?_⟩⟩
  decide

theorem square_absent_written_curly {inside : Text} (h : BracketFree inside) :
    Bracket.square.Absent (written .curly inside) := by
  refine Bracket.Absent.cons_iff.2 ⟨by decide, Bracket.Absent.append_iff.2 ⟨h .square, ?_⟩⟩
  decide

theorem fill_fits {ai : AiConfig} {c : Contribution} (h : c.Fits ai) (sources : Sources) :
    Bracket.curly.Absent (sources.fill c) ∨ sources.fill c ∈ sources.texts ai := by
  cases c with
  | text t => exact .inl h
  | clipboard =>
    rw [Sources.fill]
    split
    · next t ht => exact .inr (.inl ht)
    · exact .inl .nil
  | generated provider key prompt =>
    rw [Sources.fill]
    split
    · next t ht => exact .inr (.inr ⟨provider, key, prompt, h.1, h.2, ht⟩)
    · exact .inl (by decide)

theorem token_apart (b : Bracket) {inside : Text} (h : BracketFree inside) (sources : Sources)
    (texts : Set Text) : ((token b inside).piece b sources).Apart b texts := by
  rw [piece]
  split
  · next hfound => exact ⟨inside, rfl, h b, hfound.2, rfl⟩
  · next hfound => exact .inr (.inl ⟨inside, rfl, h b, fun hkey => hfound ⟨rfl, hkey⟩⟩)

theorem curly_apart {ai : AiConfig} {chunk : Chunk} (h : chunk.Fits ai) (sources : Sources) :
    (chunk.piece .curly sources).Apart .curly (sources.texts ai) := by
  cases chunk with
  | settled c =>
    rcases fill_fits h sources with habsent | hmem
    · exact .inl habsent
    · exact .inr (.inr hmem)
  | token b inside =>
    cases b with
    | square => exact .inl (curly_absent_written_square h)
    | curly => exact token_apart .curly h sources _

theorem pieces_curly {ai : AiConfig} {chunks : List Chunk} (h : ∀ chunk ∈ chunks, chunk.Fits ai)
    {sources : Sources} (hquiet : Quiet .curly (sources.texts ai)) :
    Placeholder.pieces .curly (chunks.flatMap (text sources)) =
      Piece.glue (chunks.map (piece .curly sources)) := by
  rw [← Piece.pieces_of_apart hquiet]
  · simp only [List.flatMap_map, text_piece]
  · intro piece hpiece
    obtain ⟨chunk, hchunk, rfl⟩ := List.mem_map.1 hpiece
    exact curly_apart (h chunk hchunk) sources

end Chunk

/-- A part of a template. -/
inductive Part where
  | literal (t : Text)
  | token (b : Bracket) (inside : Text)

namespace Part

def text : Part → Text
  | literal t => t
  | token b inside => written b inside

/-- No bracket is in it but a token's own. -/
def Flat : Part → Prop
  | literal t => BracketFree t
  | token _ inside => BracketFree inside

/-- The source a token takes its text from. A variable hides a command of its name that stands in
braces without argument. -/
def source? (s : Snapshot) : Part → Option Contribution
  | literal _ => none
  | token b inside =>
    let p := ofInside b inside
    if hasKey inside ∧ ¬(b = .curly ∧ p.argument = none ∧ s.vars.contains p.key) then
      p.source? s.ai
    else none

/-- What a part gives to the text: a literal itself, and a token with a source what that gives. -/
def Gives (s : Snapshot) (part : Part) (c : Contribution) : Prop :=
  match part with
  | literal t => c = .text t
  | token _ _ => c.Is (part.source? s) fun _ => True

def chunk : Part → Chunk
  | literal t => .settled (.text t)
  | token b inside => .token b inside

theorem text_chunk (sources : Sources) (part : Part) : part.chunk.text sources = part.text := by
  cases part <;> rfl

theorem square_apart {part : Part} (h : part.Flat) (sources : Sources) :
    (part.chunk.piece .square sources).Apart .square ∅ := by
  cases part with
  | literal t => exact .inl (h .square)
  | token b inside =>
    cases b with
    | square => exact Chunk.token_apart .square h sources ∅
    | curly => exact .inl (Chunk.square_absent_written_curly h)

theorem pieces_square {parts : List Part} (h : ∀ part ∈ parts, part.Flat) (sources : Sources) :
    Placeholder.pieces .square (parts.flatMap text) =
      Piece.glue ((parts.map chunk).map (Chunk.piece .square sources)) := by
  have hquiet : Quiet .square ∅ := fun t ht => absurd ht id
  rw [← Piece.pieces_of_apart hquiet]
  · simp only [List.flatMap_map, Chunk.text_piece, text_chunk]
  · intro piece hpiece
    obtain ⟨_, hchunk, rfl⟩ := List.mem_map.1 hpiece
    obtain ⟨part, hpart, rfl⟩ := List.mem_map.1 hchunk
    exact square_apart (h part hpart) sources

end Part

theorem Command.source?_fits {ai : AiConfig} {argument : Text} (hargument : BracketFree argument)
    {command : Command} {c : Contribution} (h : command.source? ai argument = some c) :
    c.Fits ai := by
  cases command with
  | paste =>
    obtain rfl := Option.some.inj h
    trivial
  | ai =>
    obtain rfl := Option.some.inj h
    cases hactive : ai.active with
    | none => exact (by decide : Bracket.curly.Absent notConfigured)
    | some chosen => exact ⟨hactive, hargument⟩
  | _ => cases h

theorem Contribution.Is.fits {ai : AiConfig} {b : Bracket} {inside : Text} {c : Contribution}
    {like : Text → Prop} (hinside : BracketFree inside)
    (h : c.Is ((ofInside b inside).source? ai) like)
    (hlike : ∀ t, like t → Bracket.curly.Absent t) : c.Fits ai := by
  cases hsource : (ofInside b inside).source? ai with
  | none =>
    rw [hsource] at h
    obtain ⟨t, rfl, ht⟩ := h
    exact hlike t ht
  | some source =>
    rw [hsource] at h
    obtain rfl : c = source := h
    obtain ⟨command, -, hcommand⟩ := Option.bind_eq_some_iff.1 hsource
    exact Command.source?_fits (argument_bracketFree (b := b) hinside) hcommand

namespace Chunk

theorem flat_of_part {part : Part} (h : part.Flat) : part.chunk.Flat := by
  cases part with
  | literal t => trivial
  | token b inside => exact h

theorem fits_of_square_pass {s : Snapshot} {part : Part} {chunk : Chunk} (h : part.Flat)
    (hpass : Pass (resolvedBy .square) (resolvedTo s) part.chunk chunk) : chunk.Fits s.ai := by
  cases part with
  | literal t =>
    cases hpass
    exact h .curly
  | token b inside =>
    cases hpass with
    | kept _ _ _ => exact h
    | done _ _ c hresolved hc =>
      obtain rfl : b = .square := by
        simp only [resolvedBy, Bool.and_eq_true, decide_eq_true_eq] at hresolved
        exact hresolved.1.1
      refine hc.fits h fun t ht => ?_
      rcases ht with ht | rfl
      · exact ht .curly
      · exact curly_absent_written_square h

theorem fits_of_bare_pass {s : Snapshot} (hs : s.BracketFree) {chunk chunk' : Chunk}
    (h : chunk.Fits s.ai) (hpass : Pass (bareResolved s) (bareTo s) chunk chunk') :
    chunk'.Fits s.ai := by
  cases hpass with
  | settled c => exact h
  | kept b inside _ => exact h
  | done b inside c _ hc =>
    unfold bareTo at hc
    split at hc
    · next value hvalue =>
      subst hc
      exact hs _ value hvalue .curly
    · exact hc.fits h fun t ht => ht .curly

end Chunk

def Chunk.contribution : Chunk → Contribution
  | settled c => c
  | token b inside => .text (written b inside)

theorem Chunk.fill_contribution (sources : Sources) (chunk : Chunk) :
    sources.fill chunk.contribution = chunk.text sources := by
  cases chunk <;> rfl

theorem Part.source?_of_kept {s : Snapshot} {b : Bracket} {inside : Text}
    (hsquare : resolvedBy .square b inside = false) (hbare : bareResolved s b inside = false)
    (hcurly : resolvedBy .curly b inside = false) : (Part.token b inside).source? s = none := by
  by_cases hkey : hasKey inside
  · cases b with
    | square => simp [resolvedBy, hkey, resolvedIn] at hsquare
    | curly =>
      have hargument : (ofInside .curly inside).argument = none := by
        simpa [resolvedBy, hkey, resolvedIn] using hcurly
      have hcommand : Command.lookup? (ofInside .curly inside).key = none := by
        simp [bareResolved, hkey, hargument] at hbare
        exact hbare.2
      simp [source?, Placeholder.source?, hcommand]
  · simp [source?, hkey]

theorem Part.gives_of_passes {s : Snapshot} {part : Part} {first second third : Chunk}
    (hsquare : Chunk.Pass (resolvedBy .square) (resolvedTo s) part.chunk first)
    (hbare : Chunk.Pass (bareResolved s) (bareTo s) first second)
    (hcurly : Chunk.Pass (resolvedBy .curly) (resolvedTo s) second third) :
    part.Gives s third.contribution := by
  cases part with
  | literal t =>
    cases hsquare
    cases hbare
    cases hcurly
    rfl
  | token b inside =>
    cases hsquare with
    | done _ _ c hresolved hc =>
      cases hbare
      cases hcurly
      simp only [resolvedBy, Bool.and_eq_true, decide_eq_true_eq] at hresolved
      obtain ⟨⟨rfl, hkey⟩, -⟩ := hresolved
      have hsource : (Part.token .square inside).source? s =
          (ofInside .square inside).source? s.ai := by
        simp [source?, hkey]
      rw [Gives, hsource]
      exact hc.imp fun t _ => trivial
    | kept _ _ hsquare =>
      cases hbare with
      | done _ _ c hresolved hc =>
        cases hcurly
        simp only [bareResolved, Bool.and_eq_true, decide_eq_true_eq] at hresolved
        obtain ⟨⟨⟨rfl, hkey⟩, hargument⟩, -⟩ := hresolved
        rw [Option.isNone_iff_eq_none] at hargument
        unfold bareTo at hc
        cases hfind : s.vars.find? (ofInside .curly inside).key with
        | some value =>
          have hsource : (Part.token .curly inside).source? s = none := by
            simp [source?, hargument, Dictionary.contains, hfind]
          rw [hfind] at hc
          rw [Gives, hsource]
          exact ⟨value, hc, trivial⟩
        | none =>
          have hsource : (Part.token .curly inside).source? s =
              (ofInside .curly inside).source? s.ai := by
            simp [source?, hkey, Dictionary.contains, hfind]
          rw [hfind] at hc
          rw [Gives, hsource]
          exact hc.imp fun t _ => trivial
      | kept _ _ hbare =>
        cases hcurly with
        | done _ _ c hresolved hc =>
          simp only [resolvedBy, Bool.and_eq_true, decide_eq_true_eq] at hresolved
          obtain ⟨⟨rfl, hkey⟩, hargument⟩ := hresolved
          have hsource : (Part.token .curly inside).source? s =
              (ofInside .curly inside).source? s.ai := by
            simp [source?, hkey, Option.ne_none_iff_isSome.2 hargument]
          rw [Gives, hsource]
          exact hc.imp fun t _ => trivial
        | kept _ _ hcurly =>
          rw [Gives, source?_of_kept hsquare hbare hcurly]
          exact ⟨written b inside, rfl, trivial⟩

theorem forall_of_forall₂ {α β : Type} {p : α → Prop} {r : α → β → Prop} {q : β → Prop}
    {l : List α} {l' : List β} (h : ∀ a b, p a → r a b → q b) (hl : ∀ a ∈ l, p a)
    (hr : List.Forall₂ r l l') : ∀ b ∈ l', q b := by
  induction hr with
  | nil => exact nofun
  | cons hab _ ih =>
    obtain ⟨ha, hrest⟩ := List.forall_mem_cons.1 hl
    exact List.forall_mem_cons.2 ⟨h _ _ ha hab, ih hrest⟩

theorem Part.all_give {s : Snapshot} {parts : List Part} {first second third : List Chunk}
    (hsquare : List.Forall₂ (Chunk.Pass (resolvedBy .square) (resolvedTo s))
      (parts.map Part.chunk) first)
    (hbare : List.Forall₂ (Chunk.Pass (bareResolved s) (bareTo s)) first second)
    (hcurly : List.Forall₂ (Chunk.Pass (resolvedBy .curly) (resolvedTo s)) second third) :
    List.Forall₂ (Part.Gives s) parts (third.map Chunk.contribution) := by
  induction parts generalizing first second third with
  | nil =>
    cases hsquare
    cases hbare
    cases hcurly
    exact .nil
  | cons part parts ih =>
    cases hsquare with
    | cons hsquare hsquares =>
      cases hbare with
      | cons hbare hbares =>
        cases hcurly with
        | cons hcurly hcurlies =>
          exact .cons (part.gives_of_passes hsquare hbare hcurly) (ih hsquares hbares hcurlies)

def bracesPassed (s : Snapshot) (maxDepth : Nat) (t : Text) : Expansion Text := do
  let t ← substituteBare s (pieces .curly t)
  resolveText s maxDepth .curly 0 t

theorem expand_eq (s : Snapshot) (maxDepth : Nat) (template : Text) :
    expand s maxDepth template =
      resolveText s maxDepth .square 0 template >>= bracesPassed s maxDepth := rfl

variable {s : Snapshot} {parts : List Part} {prompts : List (Option Text)}

theorem squarePass_foreseen (hs : s.BracketFree) (maxDepth : Nat) (now : Instant)
    (hparts : ∀ part ∈ parts, part.Flat) (hprompts : AnswersBracketFree prompts) :
    ∃ chunks after asked,
      List.Forall₂ (Chunk.Pass (resolvedBy .square) (resolvedTo s)) (parts.map Part.chunk) chunks ∧
      Foreseen now (fun _ => resolveText s maxDepth .square 0 (parts.flatMap Part.text))
        (fun sources => chunks.flatMap (Chunk.text sources)) prompts after asked := by
  have hflat : ∀ chunk ∈ parts.map Part.chunk, chunk.Flat := by
    intro chunk hchunk
    obtain ⟨part, hpart, rfl⟩ := List.mem_map.1 hchunk
    exact Chunk.flat_of_part (hparts part hpart)
  have hnone : ∀ inside c, ([] : List (Text × Contribution)).lookup (written .square inside) =
      some c → resolvedTo s .square inside c := nofun
  obtain ⟨chunks, after, asked, hpass, hrun⟩ := resolvePieces_foreseen hs .square
    (resolveLevels s .square (maxDepth - (0 + 1))) now hflat hnone hprompts
  refine ⟨chunks, after, asked, hpass, hrun.left, fun sources noted => ?_⟩
  rw [← hrun.run sources noted, resolveText, resolveLevels, Part.pieces_square hparts sources,
    resolvePieces_glue]
  rfl

theorem bracesPassed_foreseen (hs : s.BracketFree) (maxDepth : Nat) (now : Instant)
    {chunks : List Chunk} (hchunks : ∀ chunk ∈ chunks, chunk.Fits s.ai)
    (hprompts : AnswersBracketFree prompts) :
    ∃ second third after asked,
      List.Forall₂ (Chunk.Pass (bareResolved s) (bareTo s)) chunks second ∧
      List.Forall₂ (Chunk.Pass (resolvedBy .curly) (resolvedTo s)) second third ∧
      ∀ sources : Sources, Quiet .curly (sources.texts s.ai) → ∀ noted,
        (sources.world now prompts noted).run
          (bracesPassed s maxDepth (chunks.flatMap (Chunk.text sources))) =
        (third.flatMap (Chunk.text sources), sources.world now after (noted ++ asked)) := by
  obtain ⟨second, asked, hbare, hbareRun⟩ := substituteBare_foreseen s now chunks prompts
  have hsecond : ∀ chunk ∈ second, chunk.Fits s.ai :=
    forall_of_forall₂ (fun chunk chunk' => Chunk.fits_of_bare_pass hs) hchunks hbare
  have hnone : ∀ inside c, ([] : List (Text × Contribution)).lookup (written .curly inside) =
      some c → resolvedTo s .curly inside c := nofun
  obtain ⟨third, after, asked', hcurly, hcurlyRun⟩ := resolvePieces_foreseen hs .curly
    (resolveLevels s .curly (maxDepth - (0 + 1))) now
    (fun chunk hchunk => Chunk.flat_of_fits (hsecond chunk hchunk)) hnone hprompts
  refine ⟨second, third, after, asked ++ asked', hbare, hcurly, fun sources hquiet noted => ?_⟩
  rw [bracesPassed, Surroundings.run_bind, Chunk.pieces_curly hchunks hquiet, substituteBare_glue,
    hbareRun.run sources noted, resolveText, resolveLevels, Chunk.pieces_curly hsecond hquiet,
    resolvePieces_glue, ← List.append_assoc]
  exact hcurlyRun.run sources (noted ++ asked)

/-- Whatever quiet texts come from outside, a flat template asks for the same and gives, part by part,
the same contributions. -/
theorem expand_flat (hs : s.BracketFree) (maxDepth : Nat) (now : Instant)
    (hparts : ∀ part ∈ parts, part.Flat) (hprompts : AnswersBracketFree prompts) :
    ∃ contributions after asked, List.Forall₂ (Part.Gives s) parts contributions ∧
      ∀ sources : Sources, Quiet .curly (sources.texts s.ai) → ∀ noted,
        (sources.world now prompts noted).run (expand s maxDepth (parts.flatMap Part.text)) =
          (contributions.flatMap sources.fill, sources.world now after (noted ++ asked)) := by
  obtain ⟨first, between, asked, hsquare, hsquareRun⟩ :=
    squarePass_foreseen hs maxDepth now hparts hprompts
  have hfits : ∀ chunk ∈ first, chunk.Fits s.ai :=
    forall_of_forall₂ (fun part chunk => Chunk.fits_of_square_pass) hparts
      (List.forall₂_map_left_iff.1 hsquare)
  obtain ⟨second, third, after, asked', hbare, hcurly, hcurlyRun⟩ :=
    bracesPassed_foreseen hs maxDepth now hfits (hprompts.suffix hsquareRun.left)
  refine ⟨third.map Chunk.contribution, after, asked ++ asked',
    Part.all_give hsquare hbare hcurly, fun sources hquiet noted => ?_⟩
  rw [expand_eq, Surroundings.run_bind, hsquareRun.run sources noted, ← List.append_assoc,
    List.flatMap_map]
  simp only [Chunk.fill_contribution]
  exact hcurlyRun sources hquiet (noted ++ asked)

end SnippetExpansion
