import SnippetExpansion.Proofs.Template.Flat

/-! # Passes that ask for nothing
A pass over braces that asks for nothing brings in no brace: each token becomes a text without braces
or stays as it is. So it leaves fewer braces wherever it has a value for a token. -/
namespace SnippetExpansion

open Placeholder

theorem Dialogue.bind_eq_done {Q : Type} {A : Q → Type} {α β : Type} {d : Dialogue Q A α}
    {f : α → Dialogue Q A β} {b : β} (h : d >>= f = .done b) :
    ∃ a, d = .done a ∧ f a = .done b := by
  cases d with
  | done a => exact ⟨a, rfl, h⟩
  | ask q resume => cases h

theorem Dialogue.append_eq_done {Q : Type} {A : Q → Type} {d : Dialogue Q A Text} {t y : Text}
    (h : (do let more ← d; pure (t ++ more)) = .done y) : ∃ more, d = .done more ∧ t ++ more = y := by
  obtain ⟨more, hmore, hend⟩ := bind_eq_done h
  exact ⟨more, hmore, done.inj hend⟩

def openBraces (t : Text) : Nat := t.count Bracket.curly.opener

theorem openBraces_append (s t : Text) : openBraces (s ++ t) = openBraces s + openBraces t :=
  List.count_append

theorem openBraces_of_absent {t : Text} (h : Bracket.curly.Absent t) : openBraces t = 0 :=
  List.count_eq_zero.2 fun hmem => Bracket.not_isInner_opener .curly (h _ hmem)

theorem openBraces_written_pos (inside : Text) : 0 < openBraces (written .curly inside) :=
  List.count_pos_iff.2 List.mem_cons_self

/-- The value has no more opening braces than the text, and fewer if `strictly`. -/
def Thins (strictly : Prop) (t value : Text) : Prop :=
  openBraces value ≤ openBraces t ∧ (strictly → openBraces value < openBraces t)

namespace Thins

variable {p q : Prop} {s t v w : Text}

theorem refl (h : ¬p) (t : Text) : Thins p t t := ⟨Nat.le_refl _, fun hp => absurd hp h⟩

theorem of_absent (hv : Bracket.curly.Absent v) (inside : Text) :
    Thins p (written .curly inside) v := by
  have hpos := openBraces_written_pos inside
  rw [Thins, openBraces_of_absent hv]
  exact ⟨Nat.zero_le _, fun _ => hpos⟩

theorem append (h : Thins p s v) (h' : Thins q t w) : Thins (p ∨ q) (s ++ t) (v ++ w) := by
  obtain ⟨hle, hlt⟩ := h
  obtain ⟨hle', hlt'⟩ := h'
  rw [Thins, openBraces_append, openBraces_append]
  refine ⟨Nat.add_le_add hle hle', ?_⟩
  rintro (hp | hq)
  · exact Nat.add_lt_add_of_lt_of_le (hlt hp) hle'
  · exact Nat.add_lt_add_of_le_of_lt hle (hlt' hq)

theorem imp (h : Thins p s v) (hqp : q → p) : Thins q s v := ⟨h.1, fun hq => h.2 (hqp hq)⟩

end Thins

theorem Snapshot.runCommand_done {s : Snapshot} {command : Command} {argument t : Text}
    (hargument : Bracket.curly.Absent argument) (h : s.runCommand command argument = .done t) :
    Bracket.curly.Absent t := by
  have hvalue := s.runCommand_unprompted command .curly argument
  rw [h] at hvalue
  rcases hvalue with hliteral | habsent
  · cases command with
    | ai =>
      rw [runCommand_ai, Command.generated] at h
      cases hactive : s.ai.active with
      | none =>
        rw [hactive] at h
        obtain rfl := Dialogue.done.inj h
        decide
      | some chosen =>
        rw [hactive] at h
        cases h
    | paste => cases h
    | _ => cases hliteral
  · exact habsent hargument

/-- A value for a token that was not asked for: without braces, or the token itself where no variable
has its name. -/
def Unasked (s : Snapshot) (p : Placeholder) (value : Text) : Prop :=
  Bracket.curly.Absent value ∨ value = p.text ∧ ¬s.vars.contains p.key

theorem Unasked.thins {s : Snapshot} {inside value : Text} {strictly : Prop}
    (h : Unasked s (ofInside .curly inside) value)
    (hvar : strictly → s.vars.contains (ofInside .curly inside).key) :
    Thins strictly (written .curly inside) value := by
  rcases h with habsent | ⟨rfl, hkey⟩
  · exact .of_absent habsent inside
  · exact .refl (fun hstrict => hkey (hvar hstrict)) _

theorem Snapshot.resolve_done {s : Snapshot} (hs : s.BracketFree) {inside value : Text}
    (hinside : Bracket.curly.Absent inside)
    (h : s.resolve (ofInside .curly inside) = .done value) :
    Unasked s (ofInside .curly inside) value := by
  unfold Snapshot.resolve at h
  split at h
  · exact .inl (s.runCommand_done (argument_absent hinside) h)
  · split at h
    · next var hvar =>
      obtain rfl := Dialogue.done.inj h
      exact .inl (hs _ _ hvar .curly)
    · next hvar =>
      split at h
      · obtain rfl := Dialogue.done.inj h
        exact .inr ⟨rfl, by simp [Dictionary.contains, hvar]⟩
      · cases h

theorem bareValue_done {s : Snapshot} (hs : s.BracketFree) {p : Placeholder} {value : Text}
    (h : bareValue s p = .done value) : Unasked s p value := by
  unfold bareValue at h
  split at h
  · next var hvar =>
    obtain rfl := Dialogue.done.inj h
    exact .inl (hs _ _ hvar .curly)
  · next hvar =>
    split at h
    · exact .inl (s.runCommand_done .nil h)
    · obtain rfl := Dialogue.done.inj h
      exact .inr ⟨rfl, by simp [Dictionary.contains, hvar]⟩

namespace Piece

def Braced : Piece Placeholder → Prop
  | plain _ => True
  | found t p => ∃ inside, t = written .curly inside ∧ Bracket.curly.Absent inside ∧
      p = ofInside .curly inside

def HasValue (s : Snapshot) (bare : Bool) : Piece Placeholder → Prop
  | plain _ => False
  | found _ p => p.argument.isNone = bare ∧ s.vars.contains p.key

theorem braced_of_mem_pieces {t : Text} :
    ∀ piece ∈ Placeholder.pieces .curly t, piece.Braced := by
  intro piece hpiece
  cases piece with
  | plain t => trivial
  | found f p =>
    obtain ⟨inside, hf, habsent, -, hp⟩ := found_of_mem_pieces hpiece
    exact ⟨inside, hf, habsent, hp⟩

end Piece

variable {s : Snapshot} {pieces : List (Piece Placeholder)} {y : Text}

theorem Thins.cons {bare : Bool} {piece : Piece Placeholder} {value rest : Text}
    (hpiece : Thins (piece.HasValue s bare) piece.text value)
    (hrest : Thins (∃ piece ∈ pieces, piece.HasValue s bare) (pieces.flatMap Piece.text) rest) :
    Thins (∃ piece' ∈ piece :: pieces, piece'.HasValue s bare)
      ((piece :: pieces).flatMap Piece.text) (value ++ rest) := by
  rw [List.flatMap_cons]
  refine (hpiece.append hrest).imp ?_
  rintro ⟨piece', hmem, hvalue⟩
  rcases List.mem_cons.1 hmem with rfl | hmem
  · exact .inl hvalue
  · exact .inr ⟨piece', hmem, hvalue⟩

theorem substituteBare_done (hs : s.BracketFree) (hpieces : ∀ piece ∈ pieces, piece.Braced)
    (h : substituteBare s pieces = .done y) :
    Thins (∃ piece ∈ pieces, piece.HasValue s true) (pieces.flatMap Piece.text) y := by
  induction pieces generalizing y with
  | nil =>
    obtain rfl := Dialogue.done.inj h
    exact .refl (by simp) []
  | cons piece pieces ih =>
    obtain ⟨hpiece, hrest⟩ := List.forall_mem_cons.1 hpieces
    cases piece with
    | plain t =>
      obtain ⟨more, hmore, rfl⟩ := Dialogue.append_eq_done h
      exact .cons (.refl id t) (ih hrest hmore)
    | found t p =>
      obtain ⟨inside, rfl, habsent, rfl⟩ := hpiece
      rw [substituteBare] at h
      split at h
      · next hargument =>
        rw [pure_bind] at h
        obtain ⟨more, hmore, rfl⟩ := Dialogue.append_eq_done h
        refine .cons (.refl (fun hstrict => ?_) _) (ih hrest hmore)
        have hbare : (ofInside .curly inside).argument.isNone := hstrict.1
        rw [Option.isNone_iff_eq_none.1 hbare] at hargument
        cases hargument
      · obtain ⟨value, hvalue, hlater⟩ := Dialogue.bind_eq_done h
        obtain ⟨more, hmore, rfl⟩ := Dialogue.append_eq_done hlater
        exact .cons ((bareValue_done hs hvalue).thins fun hstrict => hstrict.2) (ih hrest hmore)

theorem resolvePieces_done (hs : s.BracketFree) (again : Text → Expansion Text)
    {known : List (Text × Text)}
    (hknown : ∀ inside value, known.lookup (written .curly inside) = some value →
      Unasked s (ofInside .curly inside) value)
    (hpieces : ∀ piece ∈ pieces, piece.Braced)
    (h : resolvePieces s .curly again known pieces = .done y) :
    Thins (∃ piece ∈ pieces, piece.HasValue s false) (pieces.flatMap Piece.text) y := by
  induction pieces generalizing known y with
  | nil =>
    obtain rfl := Dialogue.done.inj h
    exact .refl (by simp) []
  | cons piece pieces ih =>
    obtain ⟨hpiece, hrest⟩ := List.forall_mem_cons.1 hpieces
    cases piece with
    | plain t =>
      obtain ⟨more, hmore, rfl⟩ := Dialogue.append_eq_done h
      exact .cons (.refl id t) (ih hknown hrest hmore)
    | found t p =>
      obtain ⟨inside, rfl, habsent, rfl⟩ := hpiece
      rw [resolvePieces] at h
      split at h
      · next hunresolved =>
        obtain ⟨more, hmore, rfl⟩ := Dialogue.append_eq_done h
        refine .cons (.refl (fun hstrict => ?_) _) (ih hknown hrest hmore)
        simp [resolvedIn] at hunresolved
        simp [Piece.HasValue, hunresolved] at hstrict
      · split at h
        · next value hvalue =>
          obtain ⟨more, hmore, rfl⟩ := Dialogue.append_eq_done h
          exact .cons ((hknown inside value hvalue).thins fun hstrict => hstrict.2)
            (ih hknown hrest hmore)
        · obtain ⟨first, hfirst, hlater⟩ := Dialogue.bind_eq_done h
          have hunasked := s.resolve_done hs habsent hfirst
          have hrescans : ¬(ofInside .curly inside).rescans .curly first := by
            rcases hunasked with hclean | ⟨rfl, -⟩
            · simp [rescans, occursIn, all_of_absent hclean]
            · simp [rescans]
          rw [if_neg hrescans, pure_bind] at hlater
          obtain ⟨more, hmore, rfl⟩ := Dialogue.append_eq_done hlater
          refine .cons (hunasked.thins fun hstrict => hstrict.2) (ih ?_ hrest hmore)
          intro inside' value hfound
          rcases lookup_noted hfound with ⟨rfl, rfl⟩ | hfound
          · exact hunasked
          · exact hknown inside' value hfound

end SnippetExpansion
