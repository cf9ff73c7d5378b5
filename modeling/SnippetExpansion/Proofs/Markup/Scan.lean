import SnippetExpansion.Proofs.Markup.Written

/-! # Scanning for tags
A tag begins at the first `<` with a slash or a letter behind it and ends at the next `>`; behind it the scan
begins anew. Closing and crossing of elements decide where a text stands in the tree and never whether it is
there: what is shown are the runs between the tags, each of them decoded by itself. -/
namespace SnippetExpansion.Markup

open Node

/-- Nowhere in the text a tag begins, closed or not. -/
def Openless (t : Text) : Prop :=
  ∀ before c rest, t = before ++ '<' :: c :: rest → ¬(c = '/' ∨ c.isAlpha)

structure FirstTag (t before inside after : Text) : Prop where
  split : t = before ++ '<' :: (inside ++ '>' :: after)
  opens : ∃ c ∈ inside.head?, c = '/' ∨ c.isAlpha
  closed : '>' ∉ inside
  first : Openless before

/-- The runs of text in front of the tags, from left to right, and what is left when no tag is found any more:
all that is behind the last one, with what begins there like a tag and is not closed. -/
inductive Scan : Text → List Text → Text → Prop where
  | done {t : Text} : (∀ before inside after, ¬FirstTag t before inside after) → Scan t [] t
  | tag {t before inside after rest : Text} {runs : List Text} :
      FirstTag t before inside after → Scan after runs rest → Scan t (before :: runs) rest

namespace FirstTag

variable {t before inside after : Text}

theorem length_lt (h : FirstTag t before inside after) : after.length < t.length := by
  rw [h.split]
  simp only [List.length_append, List.length_cons]
  omega

theorem suffix (h : FirstTag t before inside after) : after <:+ t :=
  ⟨before ++ '<' :: (inside ++ ['>']), by simp [h.split]⟩

theorem append (h : FirstTag t before inside after) (more : Text) :
    FirstTag (t ++ more) before inside (after ++ more) := by
  constructor
  · rw [h.split]
    simp only [List.append_assoc, List.cons_append]
  · exact h.opens
  · exact h.closed
  · exact h.first

end FirstTag

theorem exists_scan (t : Text) : ∃ runs rest, Scan t runs rest := by
  suffices h : ∀ n, ∀ t : Text, t.length < n → ∃ runs rest, Scan t runs rest from
    h (t.length + 1) t (Nat.lt_succ_self _)
  intro n
  induction n with
  | zero =>
    intro t ht
    exact absurd ht (Nat.not_lt_zero _)
  | succ n ih =>
    intro t ht
    by_cases hfirst : ∃ before inside after, FirstTag t before inside after
    · obtain ⟨before, inside, after, hfirst⟩ := hfirst
      have hlength := hfirst.length_lt
      obtain ⟨runs, rest, hscan⟩ := ih after (by omega)
      exact ⟨before :: runs, rest, .tag hfirst hscan⟩
    · push Not at hfirst
      exact ⟨[], t, .done hfirst⟩

theorem Openless.tagFinder_eq_none {t rest before after : Text} {c : Char} (h : Openless t)
    (hseam : t.getLast? = some '<' → ∀ d ∈ rest.head?, ¬(d = '/' ∨ d.isAlpha))
    (ht : t = before ++ c :: after) : tagFinder (c :: (after ++ rest)) = none := by
  rw [tagFinder_eq_none_iff]
  intro d more hsplit hopens
  obtain ⟨rfl, hmore⟩ := List.cons.inj hsplit
  cases after with
  | nil =>
    have hlast : t.getLast? = some '<' := by simp [ht]
    have hhead : d ∈ rest.head? := by
      rw [List.nil_append] at hmore
      simp [hmore]
    exact absurd hopens (hseam hlast d hhead)
  | cons e after =>
    obtain ⟨rfl, -⟩ := List.cons.inj hmore
    exact absurd hopens (h before e after ht)

theorem Openless.cut_append {t rest : Text} (h : Openless t)
    (hseam : t.getLast? = some '<' → ∀ d ∈ rest.head?, ¬(d = '/' ∨ d.isAlpha)) :
    Text.cut tagFinder (t ++ rest) = t.foldr Piece.consChar (Text.cut tagFinder rest) := by
  apply Text.cut_append_of_none
  intro before c after ht
  exact h.tagFinder_eq_none hseam ht

theorem FirstTag.cut_eq {t before inside after : Text} (h : FirstTag t before inside after) :
    Text.cut tagFinder t =
      before.foldr Piece.consChar (tagPiece inside :: Text.cut tagFinder after) := by
  obtain ⟨c, hhead, hopens⟩ := h.opens
  obtain ⟨inner, rfl⟩ := List.head?_eq_some_iff.1 hhead
  rw [h.split, h.first.cut_append, cut_tag hopens h.closed]
  intro _ d hd
  obtain rfl := Option.some.inj hd
  decide

theorem FirstTag.of_opening {c : Char} {rest : Text} (hc : c = '/' ∨ c.isAlpha) (hclosed : '>' ∈ c :: rest) :
    ∃ inside after, FirstTag ('<' :: c :: rest) [] inside after := by
  obtain ⟨inside, after, hsplit, hinside⟩ := List.eq_append_cons_of_mem hclosed
  refine ⟨inside, after, ?_⟩
  constructor
  · rw [hsplit]
    rfl
  · cases inside with
    | nil =>
      obtain ⟨rfl, -⟩ := List.cons.inj hsplit
      exact absurd hc (by decide)
    | cons d inside =>
      obtain ⟨rfl, -⟩ := List.cons.inj hsplit
      exact ⟨c, rfl, hc⟩
  · exact hinside
  · intro before d more hnil
    simp at hnil

theorem FirstTag.cons {t before inside after : Text} {d : Char} (h : FirstTag t before inside after)
    (hd : ∀ c rest, d :: t = '<' :: c :: rest → ¬(c = '/' ∨ c.isAlpha)) :
    FirstTag (d :: t) (d :: before) inside after := by
  constructor
  · rw [h.split]
    rfl
  · exact h.opens
  · exact h.closed
  · intro front c rest hsplit
    cases front with
    | nil =>
      obtain ⟨rfl, hbefore⟩ := List.cons.inj hsplit
      apply hd c (rest ++ '<' :: (inside ++ '>' :: after))
      rw [h.split, hbefore]
      rfl
    | cons e front =>
      obtain ⟨-, hbefore⟩ := List.cons.inj hsplit
      exact h.first front c rest hbefore

/-- If the tag that begins first is not closed, none behind it is. -/
theorem tagless_of_no_firstTag {t : Text} (h : ∀ before inside after, ¬FirstTag t before inside after) :
    Tagless t := by
  induction t with
  | nil =>
    intro before c rest ht
    simp at ht
  | cons d t ih =>
    by_cases hopening : ∃ c rest, d :: t = '<' :: c :: rest ∧ (c = '/' ∨ c.isAlpha)
    · obtain ⟨c, rest, ht, hc⟩ := hopening
      intro before e more hsplit _ hmem
      have hclosed : '>' ∈ '<' :: c :: rest := by
        rw [← ht, hsplit]
        simp [hmem]
      have hbehind : '>' ∈ c :: rest := by simpa using hclosed
      obtain ⟨inside, after, hfirst⟩ := FirstTag.of_opening hc hbehind
      rw [← ht] at hfirst
      exact h [] inside after hfirst
    · have hlater : Tagless t := by
        apply ih
        intro before inside after hfirst
        apply h (d :: before) inside after
        apply hfirst.cons
        intro c rest hsplit hc
        exact hopening ⟨c, rest, hsplit, hc⟩
      intro before c rest hsplit hc
      cases before with
      | nil => exact absurd ⟨c, rest, hsplit, hc⟩ hopening
      | cons e before =>
        obtain ⟨-, hrest⟩ := List.cons.inj hsplit
        exact hlater before c rest hrest hc

theorem flatMap_shown_foldr (t : Text) {pieces : List (Piece Text)}
    (hpieces : ∀ s rest, pieces ≠ .plain s :: rest) :
    (t.foldr Piece.consChar pieces).flatMap Building.shown =
      Entity.decode t ++ pieces.flatMap Building.shown := by
  by_cases ht : t = []
  · rw [ht]
    rfl
  · rw [Piece.foldr_consChar ht hpieces, List.flatMap_cons]
    rfl

theorem FirstTag.textContent_eq {t before inside after : Text} (h : FirstTag t before inside after) :
    textContent (parse t) = Entity.decode before ++ textContent (parse after) := by
  rw [Markup.textContent_eq, h.cut_eq, flatMap_shown_foldr, Markup.textContent_eq]
  · rfl
  · intro s rest hpieces
    cases hpieces

theorem Tagless.textContent_eq {t : Text} (h : Tagless t) : textContent (parse t) = Entity.decode t := by
  by_cases ht : t = []
  · rw [ht]
    rfl
  · rw [Markup.textContent_eq, h.cut_eq ht]
    exact List.append_nil _

/-- Every markup can be scanned, and what it shows are its runs, decoded one by one, with what the scan leaves
behind the last tag. -/
theorem textContent_of_scan (markup : Text) :
    (∃ runs rest, Scan markup runs rest) ∧
    ∀ runs rest, Scan markup runs rest →
      textContent (parse markup) = (runs ++ [rest]).flatMap Entity.decode := by
  refine ⟨exists_scan markup, ?_⟩
  intro runs rest hscan
  induction hscan with
  | done hnone =>
    rw [(tagless_of_no_firstTag hnone).textContent_eq]
    exact (List.append_nil _).symm
  | tag hfirst _ ih =>
    rw [hfirst.textContent_eq, ih, List.cons_append, List.flatMap_cons]

example : textContent (parse "<b>1 &lt; <i>2</b> or</p> 3</i>!".toList) = "1 < 2 or 3!".toList := by
  decide +kernel

end SnippetExpansion.Markup
