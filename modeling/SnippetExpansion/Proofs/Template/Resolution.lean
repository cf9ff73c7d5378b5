import SnippetExpansion.Proofs.Dialogue
import SnippetExpansion.Proofs.Template.OutsideText

/-! # Placeholders are resolved one by one
With services that answer alike whenever they are asked, a pass gives the same as resolving every
placeholder afresh: that equal ones are resolved once does not show. As long as no value from anywhere holds
a brace, none comes in by what square brackets are resolved to, however deep their values are nested. -/
namespace SnippetExpansion

open Text (BracketFree)
open Placeholder

/-- Nothing that comes from outside holds a brace. -/
structure Request.Braceless (reply : (r : Request) → r.Answer) : Prop where
  clipboard : ∀ t, reply .clipboard = Except.ok t → Bracket.curly.Absent t
  prompt : ∀ label t, reply (.prompt label) = some t → Bracket.curly.Absent t
  generate : ∀ provider key prompt t, reply (.generate provider key prompt) = Except.ok t →
    Bracket.curly.Absent t

structure Request.SourcesBraceless (reply : (r : Request) → r.Answer) : Prop where
  clipboard : ∀ t, reply .clipboard = Except.ok t → Bracket.curly.Absent t
  generate : ∀ provider key prompt t, reply (.generate provider key prompt) = Except.ok t →
    Bracket.curly.Absent t

def Snapshot.Braceless (s : Snapshot) : Prop :=
  ∀ name value, s.vars.find? name = some value → Bracket.curly.Absent value

variable {reply : (r : Request) → r.Answer} {s : Snapshot}

theorem Request.Braceless.sources (h : Request.Braceless reply) : Request.SourcesBraceless reply :=
  ⟨h.clipboard, h.generate⟩

theorem Request.SourcesBraceless.broughtIn (h : Request.SourcesBraceless reply) (command : Command)
    {t : Text} (ht : command.BringsIn reply t) : Bracket.curly.Absent t := by
  cases command with
  | paste => exact h.clipboard t ht
  | ai =>
    obtain ⟨provider, key, prompt, hgenerated⟩ := ht
    exact h.generate provider key prompt t hgenerated
  | _ => cases ht

theorem Snapshot.runCommand_braceless (hreply : Request.SourcesBraceless reply) (command : Command)
    {argument : Text} (hargument : Bracket.curly.Absent argument) :
    Bracket.curly.Absent ((s.runCommand command argument).outcome reply) := by
  have hnotes : ∀ t ∈ Command.notes, Bracket.curly.Absent t := by decide
  by_cases hliteral : command.outputIsLiteral
  · rcases s.runCommand_literal hliteral with hnote | hbrought
    · exact hnotes _ hnote
    · exact hreply.broughtIn command hbrought
  · exact s.runCommand_absent hliteral hargument

/-- The value of a placeholder has no brace, or it is the placeholder itself. -/
theorem Snapshot.resolve_braceless (hs : s.Braceless) (hreply : Request.Braceless reply)
    (b : Bracket) {inside : Text} (hinside : Text.BracketFree inside) :
    Bracket.curly.Absent ((s.resolve (ofInside b inside)).outcome reply) ∨
      (s.resolve (ofInside b inside)).outcome reply = written b inside := by
  rw [Snapshot.resolve]
  split
  · exact .inl (s.runCommand_braceless hreply.sources _ (argument_absent (a := b) (hinside .curly)))
  · split
    · next value hvalue => exact .inl (hs _ value hvalue)
    · split
      · exact .inr rfl
      · next label _ =>
        rw [Dialogue.outcome_bind]
        cases hprompt : (Expansion.prompt label).outcome reply with
        | none => exact .inr rfl
        | some t => exact .inl (hreply.prompt label t hprompt)

def Piece.resolution (s : Snapshot) (b : Bracket) (again : Text → Expansion Text) :
    Piece Placeholder → Expansion Text
  | .plain t => pure t
  | .found t p =>
    if p.resolvedIn b then do
      let first ← s.resolve p
      if p.rescans b first then again first else pure first
    else pure t

def Piece.IsWritten (b : Bracket) : Piece Placeholder → Prop
  | .plain _ => True
  | .found t p => ∃ inside, t = written b inside ∧ p = ofInside b inside

theorem resolvePieces_outcome {b : Bracket} {again : Text → Expansion Text}
    {pieces : List (Piece Placeholder)} (hpieces : ∀ piece ∈ pieces, piece.IsWritten b)
    {known : List (Text × Text)}
    (hknown : ∀ inside value, known.lookup (written b inside) = some value →
      value = ((Piece.found (written b inside) (ofInside b inside)).resolution s b again).outcome
        reply) :
    (resolvePieces s b again known pieces).outcome reply =
      pieces.flatMap fun piece => (piece.resolution s b again).outcome reply := by
  -- The table holds for a text what it is resolved to afresh. It grows along the pieces, and stays so.
  induction pieces generalizing known with
  | nil => rfl
  | cons piece pieces ih =>
    obtain ⟨hpiece, hrest⟩ := List.forall_mem_cons.1 hpieces
    rw [List.flatMap_cons]
    cases piece with
    | plain t =>
      rw [resolvePieces, Dialogue.outcome_bind, ih hrest hknown]
      rfl
    | found t p =>
      obtain ⟨inside, rfl, rfl⟩ := hpiece
      by_cases hresolved : (ofInside b inside).resolvedIn b
      · cases hlookup : known.lookup (written b inside) with
        | some value =>
          rw [resolvePieces_noted hresolved hlookup, Dialogue.outcome_bind, ih hrest hknown,
            hknown inside value hlookup]
          rfl
        | none =>
          have hitself : (Piece.found (written b inside) (ofInside b inside)).resolution s b again =
              (ofInside b inside).resolution s b again := if_pos hresolved
          have hnoted : ∀ inside' value,
              ((written b inside, ((ofInside b inside).resolution s b again).outcome reply) ::
                known).lookup (written b inside') = some value → value = ((Piece.found
                  (written b inside') (ofInside b inside')).resolution s b again).outcome reply := by
            intro inside' value hfound
            rcases lookup_noted hfound with ⟨rfl, rfl⟩ | hfound
            · rw [hitself]
            · exact hknown inside' value hfound
          rw [resolvePieces_unnoted hresolved hlookup, Dialogue.outcome_bind, Dialogue.outcome_bind,
            ih hrest hnoted, hitself]
          rfl
      · have hkept := eq_false_of_ne_true hresolved
        rw [resolvePieces_passed hkept, Dialogue.outcome_bind, ih hrest hknown, Piece.resolution,
          if_neg hresolved]
        rfl

theorem isWritten_of_mem_pieces {b : Bracket} {t : Text} :
    ∀ piece ∈ pieces b t, piece.IsWritten b := by
  intro piece hpiece
  cases piece with
  | plain t => trivial
  | found t p =>
    obtain ⟨inside, ht, -, -, hp⟩ := found_of_mem_pieces hpiece
    exact ⟨inside, ht, hp⟩

/-- A pass over a text resolves its placeholders one by one. -/
theorem resolveLevels_outcome (b : Bracket) (levels : Nat) (t : Text) :
    (resolveLevels s b (levels + 1) t).outcome reply = (pieces b t).flatMap fun piece =>
      (piece.resolution s b (resolveLevels s b levels)).outcome reply :=
  resolvePieces_outcome isWritten_of_mem_pieces nofun

theorem resolveLevels_braceless (hs : s.Braceless) (hreply : Request.Braceless reply) (levels : Nat)
    {t : Text} (ht : Bracket.curly.Absent t) :
    Bracket.curly.Absent ((resolveLevels s .square levels t).outcome reply) := by
  induction levels generalizing t with
  | zero => exact ht
  | succ levels ih =>
    -- A value is passed over again with a level less, and has no brace by then.
    rw [resolveLevels_outcome]
    refine .flatMap fun piece hpiece => ?_
    have hsubset : piece.text ⊆ t := by
      intro c hc
      rw [← Text.flatMap_text_cut (finder .square) t]
      exact List.mem_flatMap.2 ⟨piece, hpiece, hc⟩
    have habsent : Bracket.curly.Absent piece.text := fun c hc => ht c (hsubset hc)
    cases piece with
    | plain u => exact habsent
    | found u p =>
      obtain ⟨inside, rfl, hinside, -, rfl⟩ := found_of_mem_pieces hpiece
      have hfree : BracketFree inside :=
        Text.BracketFree.iff_absent.2 ⟨hinside, fun c hc => habsent c (by simp [written, Piece.text, hc])⟩
      have hfirst : Bracket.curly.Absent
          ((s.resolve (ofInside .square inside)).outcome reply) := by
        rcases s.resolve_braceless hs hreply .square hfree with hfirst | hfirst
        · exact hfirst
        · rw [hfirst]
          exact habsent
      have hresolved : (ofInside .square inside).resolvedIn .square := rfl
      rw [Piece.resolution, if_pos hresolved, Dialogue.outcome_bind]
      split
      · exact ih hfirst
      · exact hfirst

end SnippetExpansion
