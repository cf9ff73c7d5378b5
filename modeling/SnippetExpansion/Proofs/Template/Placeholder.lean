import SnippetExpansion.Template.Placeholder
import SnippetExpansion.Proofs.Text.Cut
import Mathlib.Data.List.TakeWhile

/-! # Where placeholders are found
A placeholder is an opening bracket, an inside without brackets of that kind, and a closing bracket. A
text that is put together keeps the placeholders of its parts, and gets no other ones as long as no
stretch from an open bracket in one part to a closing bracket in a later one can hold a key. -/
namespace SnippetExpansion

namespace Bracket

/-- Neither bracket of this kind is in the text. -/
def Absent (b : Bracket) (t : Text) : Prop := ∀ c ∈ t, b.isInner c

instance (b : Bracket) (t : Text) : Decidable (b.Absent t) :=
  decidable_of_iff (t.all b.isInner) List.all_eq_true

def ClosesFirst (b : Bracket) (t : Text) : Prop :=
  ∃ before after, t = before ++ b.closer :: after ∧ b.Absent before

theorem not_isInner_opener (b : Bracket) : ¬b.isInner b.opener := by cases b <;> decide

theorem not_isInner_closer (b : Bracket) : ¬b.isInner b.closer := by cases b <;> decide

theorem opener_ne_closer (b : Bracket) : b.opener ≠ b.closer := by cases b <;> decide

namespace Absent

variable {b : Bracket} {s t : Text}

@[simp] theorem nil : b.Absent [] := nofun

@[simp] theorem cons_iff {c : Char} : b.Absent (c :: t) ↔ b.isInner c ∧ b.Absent t :=
  List.forall_mem_cons

@[simp] theorem append_iff : b.Absent (s ++ t) ↔ b.Absent s ∧ b.Absent t :=
  List.forall_mem_append

theorem flatMap {α : Type} {f : α → Text} {l : List α} (h : ∀ a ∈ l, b.Absent (f a)) :
    b.Absent (l.flatMap f) := by
  intro c hc
  obtain ⟨a, ha, hc⟩ := List.mem_flatMap.1 hc
  exact h a ha c hc

end Absent

theorem first_bracket_unique {b : Bracket} {s t s' t' : Text} {c d : Char}
    (hs : b.Absent s) (ht : b.Absent t) (hc : ¬b.isInner c) (hd : ¬b.isInner d)
    (h : s ++ c :: s' = t ++ d :: t') : s = t ∧ c = d ∧ s' = t' :=
  Text.first_unique hs ht hc hd h

theorem ClosesFirst.of_append {b : Bracket} {s t : Text} (h : b.ClosesFirst (s ++ t)) :
    b.ClosesFirst s ∨ b.Absent s ∧ b.ClosesFirst t := by
  obtain ⟨before, after, hsplit, hbefore⟩ := h
  rcases List.append_eq_append_iff.1 hsplit with ⟨between, rfl, ht⟩ | ⟨between, rfl, hclose⟩
  · rw [Absent.append_iff] at hbefore
    exact .inr ⟨hbefore.1, between, after, ht, hbefore.2⟩
  · cases between with
    | nil =>
      rw [List.append_nil]
      exact .inr ⟨hbefore, [], after, hclose.symm, .nil⟩
    | cons c between =>
      obtain ⟨rfl, -⟩ := List.cons.inj hclose
      exact .inl ⟨before, between, rfl, hbefore⟩

end Bracket

/-- No bracket of either kind is in the text. -/
def Text.BracketFree (t : Text) : Prop := ∀ b : Bracket, b.Absent t

namespace Text.BracketFree

variable {s t : Text}

theorem iff_absent : BracketFree t ↔ Bracket.square.Absent t ∧ Bracket.curly.Absent t :=
  ⟨fun h => ⟨h .square, h .curly⟩, fun h b => by cases b; exacts [h.1, h.2]⟩

instance (t : Text) : Decidable (BracketFree t) := decidable_of_iff _ iff_absent.symm

theorem nil : BracketFree [] := fun _ => .nil

theorem append (hs : BracketFree s) (ht : BracketFree t) : BracketFree (s ++ t) :=
  fun b => Bracket.Absent.append_iff.2 ⟨hs b, ht b⟩

end Text.BracketFree

namespace Placeholder

variable {b : Bracket}

def written (b : Bracket) (inside : Text) : Text := b.opener :: (inside ++ [b.closer])

theorem ofInside_text (b : Bracket) (inside : Text) : (ofInside b inside).text = written b inside :=
  rfl

theorem written_append (b : Bracket) (inside rest : Text) :
    written b inside ++ rest = b.opener :: (inside ++ b.closer :: rest) := by
  rw [written, List.cons_append, List.append_assoc]
  rfl

theorem bracketed_eq_some {allowed : Text → Bool} {t inside : Text} {n : Nat} :
    bracketed b allowed t = some (inside, n) ↔
      ∃ rest, t = written b inside ++ rest ∧ b.Absent inside ∧ allowed inside ∧
        n = inside.length + 1 := by
  constructor
  · intro h
    cases t with
    | nil => cases h
    | cons c t =>
      simp only [bracketed] at h
      split at h
      · next hfound =>
        obtain ⟨rfl, hallowed, hcloser⟩ := hfound
        obtain ⟨rfl, rfl⟩ := Prod.mk.inj (Option.some.inj h)
        obtain ⟨hlt, hget⟩ := List.getElem?_eq_some_iff.1 hcloser
        have hsplit := List.take_append_drop (t.takeWhile b.isInner).length t
        rw [List.drop_eq_getElem_cons hlt, hget,
          List.prefix_iff_eq_take.1 (List.takeWhile_prefix _) |>.symm] at hsplit
        have ht := (written_append b _ _).trans (congrArg (b.opener :: ·) hsplit)
        exact ⟨_, ht.symm, fun c hc => List.mem_takeWhile_imp hc, hallowed, rfl⟩
      · cases h
  · rintro ⟨rest, rfl, habsent, hallowed, rfl⟩
    have hinside : (inside ++ b.closer :: rest).takeWhile b.isInner = inside := by
      rw [List.takeWhile_append_of_pos habsent,
        List.takeWhile_cons_of_neg b.not_isInner_closer, List.append_nil]
    rw [written_append, bracketed, hinside, if_pos ⟨rfl, hallowed, by simp⟩]

theorem bracketed_of_ne {allowed : Text → Bool} {c : Char} {rest : Text} (h : c ≠ b.opener) :
    bracketed b allowed (c :: rest) = none :=
  if_neg fun hfound => h hfound.1

theorem finder_eq_some {t : Text} {p : Placeholder} {n : Nat} :
    finder b t = some (p, n) ↔
      ∃ inside rest, t = written b inside ++ rest ∧ b.Absent inside ∧ hasKey inside ∧
        p = ofInside b inside ∧ n = inside.length + 1 := by
  simp only [finder, Option.map_eq_some_iff, Prod.exists, Prod.mk.injEq, bracketed_eq_some]
  constructor
  · rintro ⟨inside, _, ⟨rest, ht, habsent, hkey, rfl⟩, rfl, rfl⟩
    exact ⟨inside, rest, ht, habsent, hkey, rfl, rfl⟩
  · rintro ⟨inside, rest, ht, habsent, hkey, rfl, rfl⟩
    exact ⟨inside, _, ⟨rest, ht, habsent, hkey, rfl⟩, rfl, rfl⟩

theorem finder_eq_none {t : Text} :
    finder b t = none ↔
      ∀ inside rest, t = written b inside ++ rest → b.Absent inside → ¬hasKey inside := by
  rw [Option.eq_none_iff_forall_ne_some]
  constructor
  · intro h inside rest ht habsent hkey
    exact h _ (finder_eq_some.2 ⟨inside, rest, ht, habsent, hkey, rfl, rfl⟩)
  · rintro h ⟨p, n⟩ hsome
    obtain ⟨inside, rest, ht, habsent, hkey, -, -⟩ := finder_eq_some.1 hsome
    exact h inside rest ht habsent hkey

theorem mem_all_iff_found {t : Text} {p : Placeholder} :
    p ∈ all b t ↔ ∃ found, .found found p ∈ pieces b t := by
  rw [all, List.mem_filterMap]
  constructor
  · rintro ⟨piece, hpiece, hvalue⟩
    cases piece with
    | plain t => cases hvalue
    | found found q =>
      obtain rfl := Option.some.inj hvalue
      exact ⟨found, hpiece⟩
  · rintro ⟨found, hfound⟩
    exact ⟨.found found p, hfound, rfl⟩

theorem found_of_mem_pieces {t found : Text} {p : Placeholder}
    (h : .found found p ∈ pieces b t) :
    ∃ inside, found = written b inside ∧ b.Absent inside ∧ hasKey inside ∧
      p = ofInside b inside := by
  obtain ⟨before, c, rest, more, -, hfind, rfl⟩ := Text.find_of_mem_cut h
  obtain ⟨inside, rest', hsplit, habsent, hkey, rfl, rfl⟩ := finder_eq_some.1 hfind
  rw [written_append] at hsplit
  obtain ⟨rfl, rfl⟩ := List.cons.inj hsplit
  refine ⟨inside, ?_, habsent, hkey, rfl⟩
  rw [written, List.take_append, List.take_of_length_le (Nat.le_succ _)]
  simp

theorem not_hasKey_of_all {t before inside rest : Text} (h : all b t = [])
    (ht : t = before ++ (written b inside ++ rest)) (habsent : b.Absent inside) :
    ¬hasKey inside := by
  rw [written_append] at ht
  have hnone := Text.find_eq_none_of_cut h ht
  rw [← written_append] at hnone
  exact finder_eq_none.1 hnone inside rest rfl habsent

/-- No two of these texts, with something between them, hold a placeholder in these brackets. -/
def Quiet (b : Bracket) (texts : Set Text) : Prop :=
  ∀ s ∈ texts, ∀ t ∈ texts, all b (s ++ 'x' :: t) = []

end Placeholder

open Placeholder

/-- A piece that keeps to itself: a placeholder, or a text without brackets, one that looks like a
placeholder but has no key, or one of `texts`. -/
def Piece.Apart (b : Bracket) (texts : Set Text) : Piece Placeholder → Prop
  | .plain t => b.Absent t ∨ (∃ inside, t = written b inside ∧ b.Absent inside ∧ ¬hasKey inside) ∨
      t ∈ texts
  | .found t p => ∃ inside, t = written b inside ∧ b.Absent inside ∧ hasKey inside ∧
      p = ofInside b inside

namespace Piece

variable {b : Bracket} {texts : Set Text}

theorem not_closesFirst_written (inside rest : Text) :
    ¬b.ClosesFirst (written b inside ++ rest) := by
  rintro ⟨before, after, hsplit, hbefore⟩
  rw [written_append] at hsplit
  exact b.opener_ne_closer (Bracket.first_bracket_unique .nil hbefore b.not_isInner_opener
    b.not_isInner_closer hsplit).2.1

theorem closesFirst_of_apart {pieces : List (Piece Placeholder)}
    (h : ∀ piece ∈ pieces, piece.Apart b texts) (hcloses : b.ClosesFirst (pieces.flatMap text)) :
    ∃ t ∈ texts, b.ClosesFirst t := by
  induction pieces with
  | nil =>
    obtain ⟨before, after, hsplit, -⟩ := hcloses
    simp at hsplit
  | cons piece pieces ih =>
    obtain ⟨hpiece, hpieces⟩ := List.forall_mem_cons.1 h
    rw [List.flatMap_cons] at hcloses
    cases piece with
    | found t p =>
      obtain ⟨inside, rfl, -⟩ := hpiece
      exact absurd hcloses (not_closesFirst_written inside _)
    | plain t =>
      rcases hpiece with habsent | ⟨inside, rfl, -⟩ | hmem
      · rcases hcloses.of_append with ⟨before, after, hsplit, -⟩ | ⟨-, hrest⟩
        · have hmem : b.closer ∈ t := (show t = _ from hsplit) ▸ by simp
          exact absurd (habsent _ hmem) b.not_isInner_closer
        · exact ih hpieces hrest
      · exact absurd hcloses (not_closesFirst_written inside _)
      · rcases hcloses.of_append with ht | ⟨-, hrest⟩
        · exact ⟨t, hmem, ht⟩
        · exact ih hpieces hrest

theorem eq_nil_of_written {inside before after : Text} (habsent : b.Absent inside)
    (h : written b inside = before ++ b.opener :: after) : before = [] := by
  cases before with
  | nil => rfl
  | cons c before =>
    obtain ⟨-, hrest⟩ := List.cons.inj h
    have hmem : b.opener ∈ inside ++ [b.closer] := hrest ▸ by simp
    rcases List.mem_append.1 hmem with hinside | hcloser
    · exact absurd (habsent _ hinside) b.not_isInner_opener
    · exact absurd (List.mem_singleton.1 hcloser) b.opener_ne_closer

theorem not_hasKey_of_quiet (hquiet : Quiet b texts) {before after rest inside rest' : Text}
    (hmem : before ++ b.opener :: after ∈ texts)
    (hrest : b.ClosesFirst rest → ∃ t ∈ texts, b.ClosesFirst t)
    (hsplit : after ++ rest = inside ++ b.closer :: rest') (habsent : b.Absent inside) :
    ¬hasKey inside := by
  -- A bracket that is open at the end of the text is closed in what comes after it.
  have hopen (more : Text) (hinside : inside = after ++ more)
      (hmore : rest = more ++ b.closer :: rest') : ¬hasKey inside := by
    subst hinside
    rw [Bracket.Absent.append_iff] at habsent
    obtain ⟨t, ht, before', after', rfl, hbefore'⟩ := hrest ⟨more, rest', hmore, habsent.2⟩
    have hnone := hquiet _ hmem _ ht
    have hsides : before ++ b.opener :: after ++ 'x' :: (before' ++ b.closer :: after') =
        before ++ (written b (after ++ 'x' :: before') ++ after') := by
      rw [written_append]
      simp
    have hbetween : b.Absent (after ++ 'x' :: before') := by
      refine Bracket.Absent.append_iff.2 ⟨habsent.1, Bracket.Absent.cons_iff.2 ⟨?_, hbefore'⟩⟩
      cases b <;> decide
    have hkey := not_hasKey_of_all hnone hsides hbetween
    cases after with
    | nil => exact absurd rfl hkey
    | cons c after => exact hkey
  rcases List.append_eq_append_iff.1 hsplit with ⟨more, hinside, hmore⟩ | ⟨more, rfl, hmore⟩
  · exact hopen more hinside hmore
  · cases more with
    | nil => exact hopen [] (by simp) hmore.symm
    | cons c more =>
      obtain ⟨rfl, -⟩ := List.cons.inj hmore
      have hsides : ∀ t, before ++ b.opener :: (inside ++ b.closer :: more) ++ t =
          before ++ (written b inside ++ (more ++ t)) := by
        intro t
        rw [written_append]
        simp
      exact not_hasKey_of_all (hquiet _ hmem _ hmem) (hsides _) habsent

/-- Put together, such pieces are found again. -/
theorem pieces_of_apart (hquiet : Quiet b texts) {pieces : List (Piece Placeholder)}
    (h : ∀ piece ∈ pieces, piece.Apart b texts) :
    Placeholder.pieces b (pieces.flatMap text) = glue pieces := by
  induction pieces with
  | nil => rfl
  | cons piece pieces ih =>
    obtain ⟨hpiece, hpieces⟩ := List.forall_mem_cons.1 h
    have hrest := ih hpieces
    rw [List.flatMap_cons]
    cases piece with
    | found t p =>
      obtain ⟨inside, rfl, habsent, hkey, rfl⟩ := hpiece
      have hfind := (finder_eq_some (b := b)).2
        ⟨inside, pieces.flatMap text, rfl, habsent, hkey, rfl, rfl⟩
      simp only [Piece.text]
      rw [written_append] at hfind ⊢
      rw [Placeholder.pieces, Text.cut_of_some hfind, glue, ← hrest]
      congr 2
      · rw [written, List.take_append, List.take_of_length_le (Nat.le_succ _)]
        simp
      · rw [List.drop_append, List.drop_of_length_le (Nat.le_succ _)]
        simp
    | plain t =>
      rw [glue, ← hrest]
      refine Text.cut_append_of_none fun before c after hsplit => finder_eq_none.2 ?_
      intro inside rest' hstart habsent
      rw [written_append] at hstart
      obtain ⟨rfl, hfound⟩ := List.cons.inj hstart
      change t = before ++ b.opener :: after at hsplit
      rcases hpiece with hclean | ⟨inside', rfl, habsent', hkey'⟩ | hmem
      · exact absurd (hclean _ (hsplit ▸ by simp)) b.not_isInner_opener
      · obtain rfl := eq_nil_of_written habsent' hsplit
        obtain ⟨-, rfl⟩ := List.cons.inj hsplit
        rw [List.append_assoc] at hfound
        obtain ⟨rfl, -⟩ := Bracket.first_bracket_unique habsent' habsent b.not_isInner_closer
          b.not_isInner_closer hfound
        exact hkey'
      · rw [hsplit] at hmem
        exact not_hasKey_of_quiet hquiet hmem (closesFirst_of_apart hpieces) hfound habsent

end Piece
end SnippetExpansion
