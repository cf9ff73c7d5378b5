import SnippetExpansion.Markup.Parser
import SnippetExpansion.Proofs.Text.Replace

/-! # What markup shows
However elements are opened and closed, the text content of markup is what stands between its tags, decoded.
The name of a character is longer than the character, so a text is shown as it is exactly if nothing in it
reads as a tag or as such a name. -/
namespace SnippetExpansion

namespace Entity

def decodeWith (names : List (Text × Char)) (t : Text) : Text :=
  names.foldl (fun t e => Text.replaceAll e.1 [e.2] t) t

section Names

variable {names : List (Text × Char)} (hnames : ∀ e ∈ names, 1 < e.1.length) {t : Text}
include hnames

theorem length_decodeWith_le : (decodeWith names t).length ≤ t.length := by
  induction names generalizing t with
  | nil => exact Nat.le_refl _
  | cons e names ih =>
    obtain ⟨hname, hnames⟩ := List.forall_mem_cons.1 hnames
    have hfirst : (Text.replaceAll e.1 [e.2] t).length ≤ t.length :=
      Text.length_replaceAll_le (List.length_pos_iff.1 (by omega)) (Nat.le_of_lt hname)
    exact (ih hnames).trans hfirst

/-- The first name that stands in a text makes it shorter, and none of the later ones makes up for it. -/
theorem decodeWith_eq_self_iff : decodeWith names t = t ↔ ∀ e ∈ names, ¬e.1 <:+: t := by
  induction names generalizing t with
  | nil => simp [decodeWith]
  | cons e names ih =>
    obtain ⟨hname, hnames⟩ := List.forall_mem_cons.1 hnames
    have hpart : e.1 ≠ [] := List.length_pos_iff.1 (by omega)
    have hcons : decodeWith (e :: names) t = decodeWith names (Text.replaceAll e.1 [e.2] t) := rfl
    rw [hcons, List.forall_mem_cons]
    by_cases hstands : e.1 <:+: t
    · have hshorter : (Text.replaceAll e.1 [e.2] t).length < t.length :=
        Text.length_replaceAll_lt hpart hname hstands
      have hrest := length_decodeWith_le hnames (t := Text.replaceAll e.1 [e.2] t)
      refine iff_of_false (fun heq => ?_) fun h => h.1 hstands
      rw [heq] at hrest
      omega
    · rw [Text.replaceAll_of_not_infix hpart hstands, ih hnames]
      exact (and_iff_right hstands).symm

end Names

theorem decodeWith_ne_nil {names : List (Text × Char)} {t : Text} (h : t ≠ []) :
    decodeWith names t ≠ [] := by
  induction names generalizing t with
  | nil => exact h
  | cons e names ih => exact ih (Text.replaceAll_ne_nil (List.cons_ne_nil e.2 []) h)

theorem all_longer : ∀ e ∈ all, 1 < e.1.length := by decide

theorem length_decode_le (t : Text) : (decode t).length ≤ t.length :=
  length_decodeWith_le all_longer

theorem decode_ne_nil {t : Text} (h : t ≠ []) : decode t ≠ [] := decodeWith_ne_nil h

theorem decode_eq_self_iff {t : Text} : decode t = t ↔ ∀ e ∈ all, ¬e.1 <:+: t :=
  decodeWith_eq_self_iff all_longer

theorem decode_of_not_mem {t : Text} (h : '&' ∉ t) : decode t = t := by
  rw [decode_eq_self_iff]
  intro e he hstands
  have hampersand : ∀ e ∈ all, '&' ∈ e.1 := by decide
  exact h (hstands.subset (hampersand e he))

end Entity

namespace Node

theorem textsOfAll_append (nodes nodes' : List Node) :
    textsOfAll (nodes ++ nodes') = textsOfAll nodes ++ textsOfAll nodes' := by
  induction nodes with
  | nil => rfl
  | cons node nodes ih =>
    rw [List.cons_append, textsOfAll, textsOfAll, ih, List.append_assoc]

theorem textContent_append (nodes nodes' : List Node) :
    textContent (nodes ++ nodes') = textContent nodes ++ textContent nodes' := by
  rw [textContent, textsOfAll_append, List.flatten_append]
  rfl

theorem textContent_text (t : Text) : textContent [.text t] = t := by
  simp [textContent, textsOfAll, texts]

theorem textContent_element (tag : Text) (children : List Node) :
    textContent [.element tag children] = textContent children := by
  simp [textContent, textsOfAll, texts]

end Node

namespace Markup

open Node

namespace Building

section Keeps

variable {motive : Building → Prop} (b : Building)
  (hclose : ∀ name inner before outer, motive ⟨inner, (name, before) :: outer⟩ →
    motive ⟨.element name inner.reverse :: before, outer⟩)
include hclose

theorem keeps_closeElement (tag : Text) (h : motive b) : motive (b.closeElement tag) := by
  have huntil : ∀ inner outer, motive ⟨inner, outer⟩ → motive (closeUntil tag inner outer) := by
    intro inner outer hopen
    induction outer generalizing inner with
    | nil => exact hopen
    | cons opened outer ih =>
      obtain ⟨name, before⟩ := opened
      have hclosed := hclose name inner before outer hopen
      rw [closeUntil]
      split
      · exact hclosed
      · exact ih _ hclosed
  unfold closeElement
  split
  · exact huntil b.inner b.outer h
  · exact h

theorem keeps_finish (h : motive b) : motive ⟨b.finish.reverse, []⟩ := by
  obtain ⟨inner, outer⟩ := b
  induction outer generalizing inner with
  | nil =>
    have hsame : (finish ⟨inner, []⟩).reverse = inner := List.reverse_reverse inner
    rw [hsame]
    exact h
  | cons opened outer ih =>
    obtain ⟨name, before⟩ := opened
    exact ih _ (hclose name inner before outer h)

end Keeps

def outerContent : List (Text × List Node) → Text
  | [] => []
  | (_, before) :: outer => outerContent outer ++ textContent before.reverse

def content (b : Building) : Text := outerContent b.outer ++ textContent b.inner.reverse

variable (b : Building)

theorem content_addNode (node : Node) :
    (b.addNode node).content = b.content ++ textContent [node] := by
  rw [content, content, addNode, List.reverse_cons, textContent_append, List.append_assoc]

theorem content_addText (t : Text) : (b.addText t).content = b.content ++ t := by
  rw [addText]
  split
  · next before rest hinner =>
    rw [content, content, hinner, List.reverse_cons, List.reverse_cons, textContent_append,
      textContent_append, textContent_text, textContent_text]
    simp only [List.append_assoc]
  · rw [content_addNode, textContent_text]

theorem content_openElement (tag : Text) : (b.openElement tag).content = b.content :=
  List.append_nil _

theorem content_close (tag : Text) (inner before : List Node) (outer : List (Text × List Node)) :
    content ⟨.element tag inner.reverse :: before, outer⟩ =
      content ⟨inner, (tag, before) :: outer⟩ := by
  rw [content, content, List.reverse_cons, textContent_append, textContent_element, outerContent,
    List.append_assoc]

theorem content_closeElement (tag : Text) : (b.closeElement tag).content = b.content := by
  apply b.keeps_closeElement (motive := fun b' => b'.content = b.content)
  · intro name inner before outer h
    rw [content_close, h]
  · rfl

theorem content_addTag (inside : Text) : (b.addTag inside).content = b.content := by
  unfold addTag
  split
  · exact content_closeElement b _
  · dsimp only
    split
    · rfl
    · split
      · rw [content_addNode, textContent_element]
        exact List.append_nil _
      · exact content_openElement b _

theorem textContent_finish : textContent b.finish = b.content := by
  have hkept : content ⟨b.finish.reverse, []⟩ = b.content := by
    apply b.keeps_finish (motive := fun b' => b'.content = b.content)
    · intro name inner before outer h
      rw [content_close, h]
    · rfl
  rw [content, List.reverse_reverse] at hkept
  exact hkept

def shown : Piece Text → Text
  | .plain t => Entity.decode t
  | .found _ _ => []

theorem content_addPiece (piece : Piece Text) :
    (b.addPiece piece).content = b.content ++ shown piece := by
  cases piece with
  | plain t => exact content_addText b _
  | found _ inside =>
    rw [shown, List.append_nil]
    exact content_addTag b inside

theorem content_foldl_addPiece (pieces : List (Piece Text)) :
    (pieces.foldl addPiece b).content = b.content ++ pieces.flatMap shown := by
  induction pieces generalizing b with
  | nil => exact (List.append_nil _).symm
  | cons piece pieces ih =>
    rw [List.foldl_cons, ih, content_addPiece, List.flatMap_cons, List.append_assoc]

end Building

theorem textContent_eq (markup : Text) :
    textContent (parse markup) = (Text.cut tagFinder markup).flatMap Building.shown := by
  rw [parse, Building.textContent_finish, Building.content_foldl_addPiece]
  rfl

/-- Nowhere in the text is closed what could begin a tag. -/
def Tagless (t : Text) : Prop :=
  ∀ before c rest, t = before ++ '<' :: c :: rest → c = '/' ∨ c.isAlpha → '>' ∉ rest

/-- Nothing in the text is read otherwise than as it stands. -/
structure IsPlain (t : Text) : Prop where
  tagless : Tagless t
  nameless : ∀ e ∈ Entity.all, ¬e.1 <:+: t

theorem splitAtFirst_eq_none_iff {c : Char} {t : Text} : (Text.splitAtFirst c t).2 = none ↔ c ∉ t := by
  induction t with
  | nil => simp [Text.splitAtFirst]
  | cons d t ih =>
    rw [Text.splitAtFirst, List.mem_cons, not_or]
    by_cases hd : d = c
    · rw [if_pos hd]
      exact iff_of_false (Option.some_ne_none t) fun h => h.1 hd.symm
    · rw [if_neg hd, ih]
      exact (and_iff_right (Ne.symm hd)).symm

/-- Only `<` with a slash or a letter behind it begins a tag, and only where a `>` follows. -/
theorem tagFinder_eq_none_iff {t : Text} : tagFinder t = none ↔
    ∀ c rest, t = '<' :: c :: rest → c = '/' ∨ c.isAlpha → '>' ∉ rest := by
  unfold tagFinder
  split
  · next c rest =>
    have hcons : (∀ c' rest', '<' :: c :: rest = '<' :: c' :: rest' →
        c' = '/' ∨ c'.isAlpha → '>' ∉ rest') ↔ (c = '/' ∨ c.isAlpha → '>' ∉ rest) := by
      constructor
      · intro h
        exact h c rest rfl
      · rintro h c' rest' ⟨⟩
        exact h
    rw [hcons]
    by_cases hopens : c = '/' ∨ c.isAlpha
    · rw [if_pos hopens, forall_prop_of_true hopens]
      have hc : c ≠ '>' := by
        rintro rfl
        exact absurd hopens (by decide)
      have hclosed : '>' ∉ c :: rest ↔ '>' ∉ rest := by
        rw [List.mem_cons, not_or]
        exact and_iff_right hc.symm
      rw [← hclosed, ← splitAtFirst_eq_none_iff]
      split
      · next inside after hsplit => simp [hsplit]
      · next inside hsplit => simp [hsplit]
    · rw [if_neg hopens]
      exact iff_of_true rfl fun h => absurd h hopens
  · next hshape =>
    refine iff_of_true rfl fun c rest ht => ?_
    exact absurd ht (hshape c rest)

theorem Tagless.cut_eq {t : Text} (h : Tagless t) (hne : t ≠ []) :
    Text.cut tagFinder t = [.plain t] := by
  apply Text.cut_of_forall_none hne
  intro before c after hsplit
  rw [tagFinder_eq_none_iff]
  intro d rest hrest hopens
  rw [hrest] at hsplit
  exact h before d rest hsplit hopens

theorem length_shown_le (piece : Piece Text) : (Building.shown piece).length ≤ piece.text.length := by
  cases piece with
  | plain t => exact Entity.length_decode_le t
  | found t _ => exact Nat.zero_le _

theorem tagless_of_length {t : Text} (h : t.length ≤ (textContent (parse t)).length) : Tagless t := by
  have hplain : (Text.cut tagFinder t).filterMap Piece.value? = [] := by
    rw [List.filterMap_eq_nil_iff]
    intro piece hpiece
    cases piece with
    | plain _ => rfl
    | found found inside =>
      obtain ⟨_, d, after, more, -, -, rfl⟩ := Text.find_of_mem_cut hpiece
      have hshorter : (Building.shown (.found (d :: after.take more) inside)).length <
          (Piece.found (d :: after.take more) inside).text.length := Nat.zero_lt_succ _
      have hlength := List.sum_lt_sum _ _ (fun piece _ => length_shown_le piece) ⟨_, hpiece, hshorter⟩
      rw [← List.length_flatMap, ← List.length_flatMap, Text.flatMap_text_cut,
        ← textContent_eq] at hlength
      omega
  intro before c rest ht hopens
  have hfind := Text.find_eq_none_of_cut hplain ht
  exact tagFinder_eq_none_iff.1 hfind c rest rfl hopens

/-- A text is shown as it stands exactly if it is plain. -/
theorem textContent_parse_eq_self_iff {t : Text} : textContent (parse t) = t ↔ IsPlain t := by
  have hdecoded (hne : t ≠ []) (htagless : Tagless t) : textContent (parse t) = Entity.decode t := by
    rw [textContent_eq, htagless.cut_eq hne]
    exact List.append_nil _
  constructor
  · intro hshown
    have htagless : Tagless t := tagless_of_length (by rw [hshown])
    refine ⟨htagless, ?_⟩
    rw [← Entity.decode_eq_self_iff]
    by_cases hne : t = []
    · rw [hne]
      exact Entity.decode_of_not_mem List.not_mem_nil
    · rw [← hdecoded hne htagless]
      exact hshown
  · intro hplain
    by_cases hne : t = []
    · rw [hne]
      rfl
    · rw [hdecoded hne hplain.tagless]
      exact Entity.decode_eq_self_iff.2 hplain.nameless

end Markup
end SnippetExpansion
