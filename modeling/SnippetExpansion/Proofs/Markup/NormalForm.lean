import SnippetExpansion.Proofs.Markup.Written

/-! # Markup written anew
However markup is put together, what is read of it is a forest, and its tags are the names in the opening tags,
in their order. Such a forest reads back once it is written, unless one of its tags ends in a slash. A name
does so exactly where a slash stands right before the first white space of an opening tag. Markup written
twice never has such a name. -/
namespace SnippetExpansion.Markup

open Node

/-- A text that is not empty, or a tag that goes on with a slash, or with a letter and up to the next `>`. -/
inductive Scanned : Piece Text → Prop where
  | text {t : Text} : t ≠ [] → Scanned (.plain t)
  | closing (found name : Text) : Scanned (.found found ('/' :: name))
  | opening (found : Text) {c : Char} {rest : Text} : c.isAlpha → '>' ∉ c :: rest →
      Scanned (.found found (c :: rest))

theorem tagFinder_eq_some {t inside : Text} {more : Nat} (h : tagFinder t = some (inside, more)) :
    ∃ c rest, inside = c :: rest ∧ (c = '/' ∨ c.isAlpha) ∧ '>' ∉ inside := by
  unfold tagFinder at h
  split at h
  · next c rest =>
    split at h
    · next hopens =>
      rcases Text.not_mem_or_splits '>' (c :: rest) with hnone | ⟨before, after, hsplit, hbefore⟩
      · rw [Text.splitAtFirst_of_not_mem hnone] at h
        cases h
      · rw [hsplit, Text.splitAtFirst_append hbefore] at h
        obtain ⟨rfl, -⟩ := Prod.mk.inj (Option.some.inj h)
        cases before with
        | nil =>
          obtain ⟨rfl, -⟩ := List.cons.inj hsplit
          exact absurd hopens (by decide)
        | cons d before =>
          obtain ⟨rfl, -⟩ := List.cons.inj hsplit
          exact ⟨c, before, rfl, hopens, hbefore⟩
    · cases h
  · cases h

theorem scanned_of_mem_cut {markup : Text} : ∀ piece ∈ Text.cut tagFinder markup, Scanned piece := by
  intro piece hpiece
  cases piece with
  | plain t => exact .text (Text.text_ne_nil_of_mem_cut tagFinder markup _ hpiece)
  | found found inside =>
    obtain ⟨_, _, _, _, -, hfind, -⟩ := Text.find_of_mem_cut hpiece
    obtain ⟨c, rest, rfl, hopens, hclosed⟩ := tagFinder_eq_some hfind
    rcases hopens with rfl | hletter
    · exact .closing found rest
    · exact .opening found hletter hclosed

def opening? : Piece Text → Option Text
  | .plain _ => none
  | .found _ inside => if inside.head? = some '/' then none else some inside

theorem opening?_of_letter (found : Text) {c : Char} {rest : Text} (hc : c.isAlpha) :
    opening? (.found found (c :: rest)) = some (c :: rest) := by
  rw [opening?, if_neg]
  intro hslash
  obtain rfl := Option.some.inj hslash
  exact absurd hc (by decide)

def openings (markup : Text) : List Text := (Text.cut tagFinder markup).filterMap opening?

theorem opens_of_mem_openings {markup inside : Text} (h : inside ∈ openings markup) :
    ∃ c rest, inside = c :: rest ∧ c.isAlpha ∧ '>' ∉ inside := by
  obtain ⟨piece, hpiece, hopening⟩ := List.mem_filterMap.1 h
  cases scanned_of_mem_cut piece hpiece with
  | text _ => cases hopening
  | closing _ _ => cases hopening
  | opening found hletter hclosed =>
    rw [opening?_of_letter found hletter] at hopening
    obtain rfl := Option.some.inj hopening
    exact ⟨_, _, rfl, hletter, hclosed⟩

theorem openings_writeAll {nodes : List Node} (hforest : Forest nodes)
    (hnames : ∀ tag ∈ tagsOfAll nodes, IsTagName tag) : openings (writeAll nodes) = tagsOfAll nodes := by
  rw [openings, cut_written hforest hnames]
  induction nodes using forest_induction with
  | nil => rfl
  | text content nodes ih =>
    obtain ⟨-, -, hnodes⟩ := Forest.cons_iff.1 hforest
    exact ih hnodes hnames
  | element tag children nodes ihchildren ih =>
    obtain ⟨hregular, -, hnodes⟩ := Forest.cons_iff.1 hforest
    obtain ⟨hchildren, hvoid⟩ := Forest.of_element hregular
    obtain ⟨htag, hinside, hbehind⟩ := forall_tags_element.1 hnames
    obtain ⟨c, rest, rfl, hletter, -⟩ := htag.opens
    have hopening : opening? (tagPiece (c :: rest)) = some (c :: rest) :=
      opening?_of_letter _ hletter
    have hclosing : opening? (tagPiece ('/' :: c :: rest)) = none := rfl
    have hlater := ih hnodes hbehind
    rw [tagsOfAll, tags]
    by_cases hvoids : c :: rest ∈ voidTags
    · rw [piecesOfAll_void hvoids, List.filterMap_cons_some hopening, hlater, hvoid hvoids]
      rfl
    · rw [piecesOfAll_element hvoids, List.filterMap_cons_some hopening, List.filterMap_append,
        List.filterMap_cons_none hclosing, ihchildren hchildren hinside, hlater]
      rfl

namespace Building

/-- All that was read so far are forests, and no open element is of those that are not closed. -/
structure Settled (b : Building) : Prop where
  inner : Forest b.inner
  outer : ∀ frame ∈ b.outer, frame.1 ∉ voidTags ∧ Forest frame.2

namespace Settled

variable {b : Building} (h : b.Settled)
include h

theorem addNode {node : Node} (hnode : node.Regular) (hnext : ∀ last ∈ b.inner.head?, Apart node last) :
    (b.addNode node).Settled := by
  constructor
  · exact Forest.cons_iff.2 ⟨hnode, hnext, h.inner⟩
  · exact h.outer

theorem addText {t : Text} (ht : t ≠ []) : (b.addText t).Settled := by
  unfold Building.addText
  split
  · next before rest hinner =>
    have hforest := h.inner
    rw [hinner] at hforest
    obtain ⟨-, hnext, hrest⟩ := Forest.cons_iff.1 hforest
    constructor
    · exact Forest.cons_iff.2 ⟨.text (List.append_ne_nil_of_right_ne_nil before ht), hnext, hrest⟩
    · exact h.outer
  · next hinner =>
    apply h.addNode (.text ht)
    intro last hlast
    obtain ⟨rest, hrest⟩ := List.head?_eq_some_iff.1 hlast
    cases last with
    | text before => exact absurd hrest (hinner before rest)
    | element _ _ => exact .inr rfl

theorem openElement {tag : Text} (htag : tag ∉ voidTags) : (b.openElement tag).Settled := by
  constructor
  · exact .nil
  · exact List.forall_mem_cons.2 ⟨⟨htag, h.inner⟩, h.outer⟩

omit h in
theorem close (name : Text) (inner before : List Node) (outer : List (Text × List Node))
    (h : Settled ⟨inner, (name, before) :: outer⟩) :
    Settled ⟨.element name inner.reverse :: before, outer⟩ := by
  obtain ⟨hinner, hframes⟩ := h
  obtain ⟨⟨hname, hbefore⟩, houter⟩ := List.forall_mem_cons.1 hframes
  have hchildren := hinner.reverse
  constructor
  · refine Forest.cons_iff.2 ⟨?_, ?_, hbefore⟩
    · exact .element hchildren.regular hchildren.apart fun hvoid => absurd hvoid hname
    · exact fun _ _ => .inl rfl
  · exact houter

theorem addPiece {piece : Piece Text} (hpiece : Scanned piece) : (b.addPiece piece).Settled := by
  cases hpiece with
  | text ht => exact h.addText (Entity.decode_ne_nil ht)
  | closing _ name => exact b.keeps_closeElement close _ h
  | opening _ hletter hclosed =>
    rw [Building.addPiece, addTag_of_letter b hletter hclosed]
    split
    · exact h.addNode (.leaf _) fun _ _ => .inl rfl
    · next hopen => exact h.openElement (not_or.1 hopen).2

theorem foldl_addPiece {pieces : List (Piece Text)} (hpieces : ∀ piece ∈ pieces, Scanned piece) :
    (pieces.foldl Building.addPiece b).Settled := by
  induction pieces generalizing b with
  | nil => exact h
  | cons piece pieces ih =>
    obtain ⟨hpiece, hpieces⟩ := List.forall_mem_cons.1 hpieces
    exact ih (h.addPiece hpiece) hpieces

theorem finish : Forest b.finish := by
  have hclosed := (b.keeps_finish close h).inner.reverse
  rw [List.reverse_reverse] at hclosed
  exact hclosed

end Settled

def outerTags : List (Text × List Node) → List Text
  | [] => []
  | (tag, before) :: outer => outerTags outer ++ (tagsOfAll before.reverse ++ [tag])

def tags (b : Building) : List Text := outerTags b.outer ++ tagsOfAll b.inner.reverse

variable (b : Building)

theorem tags_addNode (node : Node) : (b.addNode node).tags = b.tags ++ node.tags := by
  rw [tags, tags, addNode, List.reverse_cons, tagsOfAll_append, List.append_assoc]
  simp [tagsOfAll]

theorem tags_addText (t : Text) : (b.addText t).tags = b.tags := by
  unfold addText
  split
  · next before rest hinner =>
    simp only [tags, hinner, List.reverse_cons, tagsOfAll_append]
    rfl
  · exact (b.tags_addNode _).trans (List.append_nil _)

theorem tags_openElement (tag : Text) : (b.openElement tag).tags = b.tags ++ [tag] := by
  simp [tags, openElement, outerTags, tagsOfAll]

theorem tags_close (name : Text) (inner before : List Node) (outer : List (Text × List Node)) :
    tags ⟨.element name inner.reverse :: before, outer⟩ = tags ⟨inner, (name, before) :: outer⟩ := by
  simp [tags, outerTags, tagsOfAll_append, tagsOfAll, Node.tags]

theorem tags_closeElement (tag : Text) : (b.closeElement tag).tags = b.tags := by
  apply b.keeps_closeElement (motive := fun b' => b'.tags = b.tags)
  · intro name inner before outer h
    rw [tags_close, h]
  · rfl

theorem tagsOfAll_finish : tagsOfAll b.finish = b.tags := by
  have hkept : tags ⟨b.finish.reverse, []⟩ = b.tags := by
    apply b.keeps_finish (motive := fun b' => b'.tags = b.tags)
    · intro name inner before outer h
      rw [tags_close, h]
    · rfl
  rw [tags, List.reverse_reverse] at hkept
  exact hkept

theorem tags_addPiece {piece : Piece Text} (hpiece : Scanned piece) :
    (b.addPiece piece).tags = b.tags ++ ((opening? piece).map tagName).toList := by
  cases hpiece with
  | text _ => exact (b.tags_addText _).trans (List.append_nil _).symm
  | closing _ _ => exact (b.tags_closeElement _).trans (List.append_nil _).symm
  | opening found hletter hclosed =>
    rw [addPiece, addTag_of_letter b hletter hclosed, opening?_of_letter found hletter]
    split
    · exact b.tags_addNode _
    · exact b.tags_openElement _

theorem tags_foldl_addPiece {pieces : List (Piece Text)} (hpieces : ∀ piece ∈ pieces, Scanned piece) :
    (pieces.foldl addPiece b).tags = b.tags ++ (pieces.filterMap opening?).map tagName := by
  induction pieces generalizing b with
  | nil => exact (List.append_nil _).symm
  | cons piece pieces ih =>
    obtain ⟨hpiece, hpieces⟩ := List.forall_mem_cons.1 hpieces
    rw [List.foldl_cons, ih _ hpieces, tags_addPiece b hpiece, List.append_assoc]
    cases h : opening? piece with
    | none => rw [List.filterMap_cons_none h]; rfl
    | some inside => rw [List.filterMap_cons_some h]; rfl

end Building

theorem forest_parse (markup : Text) : Forest (parse markup) := by
  have hstart : Building.start.Settled := ⟨.nil, List.forall_mem_nil _⟩
  exact (hstart.foldl_addPiece scanned_of_mem_cut).finish

theorem tagsOfAll_parse (markup : Text) :
    tagsOfAll (parse markup) = (openings markup).map Building.tagName := by
  rw [parse, Building.tagsOfAll_finish, Building.tags_foldl_addPiece _ scanned_of_mem_cut]
  rfl

theorem isTagName_of_parse (markup : Text) : ∀ tag ∈ tagsOfAll (parse markup), IsTagName tag := by
  intro tag htag
  rw [tagsOfAll_parse] at htag
  obtain ⟨inside, hinside, rfl⟩ := List.mem_map.1 htag
  obtain ⟨c, rest, rfl, hletter, hclosed⟩ := opens_of_mem_openings hinside
  exact Building.isTagName_tagName hletter hclosed

section Written

variable {nodes : List Node} (hforest : Forest nodes) (hnames : ∀ tag ∈ tagsOfAll nodes, IsTagName tag)
include hforest hnames

/-- A tag has no white space, so it is written into a tag at whose end all slashes are taken off. -/
theorem no_slash_of_parse_writeAll :
    ∀ tag ∈ tagsOfAll (parse (writeAll nodes)), tag.getLast? ≠ some '/' := by
  intro tag htag
  rw [tagsOfAll_parse, openings_writeAll hforest hnames] at htag
  obtain ⟨name, hname, rfl⟩ := List.mem_map.1 htag
  apply Building.getLast?_tagName_of_no_blank
  intro c hc
  exact ((hnames name hname).inner c hc).2.1

theorem parse_writeAll_iff :
    parse (writeAll nodes) = nodes ↔ ∀ tag ∈ tagsOfAll nodes, tag.getLast? ≠ some '/' := by
  constructor
  · intro heq
    have hclean := no_slash_of_parse_writeAll hforest hnames
    rw [heq] at hclean
    exact hclean
  · intro hslash
    rw [parse, foldl_cut_writeAll hforest hnames hslash]
    exact List.reverse_reverse nodes

end Written

def rewritten (markup : Text) : Text := writeAll (parse markup)

/-- In no opening tag a slash stands right before the first white space. -/
def NamesWhole (markup : Text) : Prop := ∀ inside ∈ openings markup, ¬SlashBeforeSpace inside

theorem namesWhole_iff {markup : Text} :
    NamesWhole markup ↔ ∀ tag ∈ tagsOfAll (parse markup), tag.getLast? ≠ some '/' := by
  rw [tagsOfAll_parse, List.forall_mem_map]
  exact forall₂_congr fun inside _ => not_congr (Building.getLast?_tagName_iff inside).symm

theorem openings_rewritten (markup : Text) : openings (rewritten markup) = tagsOfAll (parse markup) :=
  openings_writeAll (forest_parse markup) (isTagName_of_parse markup)

theorem namesWhole_rewritten (markup : Text) : NamesWhole (rewritten markup) :=
  namesWhole_iff.2 (no_slash_of_parse_writeAll (forest_parse markup) (isTagName_of_parse markup))

theorem parse_rewritten_iff (markup : Text) :
    parse (rewritten markup) = parse markup ↔ NamesWhole markup := by
  rw [namesWhole_iff]
  exact parse_writeAll_iff (forest_parse markup) (isTagName_of_parse markup)

/-- Markup that is written anew reads as before, and is written the same once more, exactly if in no opening
tag a slash stands right before the first white space. The second time it always is. -/
theorem rewritten_settles_iff (markup : Text) :
    (rewritten (rewritten markup) = rewritten markup ↔ NamesWhole markup) ∧
    (parse (rewritten markup) = parse markup ↔ NamesWhole markup) ∧
    rewritten (rewritten (rewritten markup)) = rewritten (rewritten markup) := by
  have hread := parse_rewritten_iff markup
  refine ⟨⟨?_, ?_⟩, hread, ?_⟩
  · intro hsame
    -- What is written tells its tags, so those of the second reading are the first ones.
    have htags : tagsOfAll (parse (rewritten markup)) = tagsOfAll (parse markup) := by
      rw [← openings_rewritten, ← openings_rewritten, hsame]
    rw [namesWhole_iff, ← htags, ← namesWhole_iff]
    exact namesWhole_rewritten markup
  · intro hwhole
    exact congrArg writeAll (hread.2 hwhole)
  · have hagain := (parse_rewritten_iff (rewritten markup)).2 (namesWhole_rewritten markup)
    exact congrArg writeAll hagain

/-- A line break with its slash in front of a space is read as an element `br/` that holds what follows.
Written anew it is a line break with a closing tag that closes nothing. -/
theorem counterexample_slash_before_space :
    rewritten "x<br/ >y".toList = "x<br/>y</br/>".toList ∧
    rewritten "x<br/>y</br/>".toList = "x<br>y".toList ∧
    rewritten (rewritten "x<br/ >y".toList) ≠ rewritten "x<br/ >y".toList ∧
    parse (rewritten "x<br/ >y".toList) ≠ parse "x<br/ >y".toList := by
  have hfirst : rewritten "x<br/ >y".toList = "x<br/>y</br/>".toList := by decide +kernel
  have hsecond : rewritten "x<br/>y</br/>".toList = "x<br>y".toList := by decide +kernel
  have hdiffers : rewritten (rewritten "x<br/ >y".toList) ≠ rewritten "x<br/ >y".toList := by
    rw [hfirst, hsecond]
    decide
  refine ⟨hfirst, hsecond, hdiffers, ?_⟩
  intro hread
  exact hdiffers (congrArg writeAll hread)

end SnippetExpansion.Markup
