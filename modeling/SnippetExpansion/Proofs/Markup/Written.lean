import SnippetExpansion.Proofs.Markup.Escape
import SnippetExpansion.Proofs.Markup.TagName

/-! # Written markup reads back
Markup that is written is cut where it was put together: each tag is found again, and what is between two
tags is one text. Reading such pieces opens and closes the elements in the order in which they were written.
So a forest comes back as it was, as long as its texts are not empty and not side by side, its tags are names
that a tag can hold, and elements that are not closed hold nothing. -/
namespace SnippetExpansion

namespace Node

@[elab_as_elim]
theorem forest_induction {motive : List Node → Prop} (nil : motive [])
    (text : ∀ content rest, motive rest → motive (.text content :: rest))
    (element : ∀ tag children rest, motive children → motive rest →
      motive (.element tag children :: rest)) : ∀ nodes, motive nodes
  | [] => nil
  | .text content :: rest => text content rest (forest_induction nil text element rest)
  | .element tag children :: rest =>
    element tag children rest (forest_induction nil text element children)
      (forest_induction nil text element rest)

def isText : Node → Bool
  | text _ => true
  | element _ _ => false

mutual

def tags : Node → List Text
  | .text _ => []
  | .element tag children => tag :: tagsOfAll children

def tagsOfAll : List Node → List Text
  | [] => []
  | node :: rest => tags node ++ tagsOfAll rest

end

theorem tagsOfAll_append (nodes nodes' : List Node) :
    tagsOfAll (nodes ++ nodes') = tagsOfAll nodes ++ tagsOfAll nodes' := by
  induction nodes with
  | nil => rfl
  | cons node nodes ih => rw [List.cons_append, tagsOfAll, tagsOfAll, ih, List.append_assoc]

/-- Of two nodes side by side one is an element. -/
def Apart (m n : Node) : Prop := m.isText = false ∨ n.isText = false

/-- No text in the node is empty or stands next to another one, and elements that are not closed hold
nothing. -/
inductive Regular : Node → Prop where
  | text {content : Text} : content ≠ [] → Regular (.text content)
  | element {tag : Text} {children : List Node} : (∀ child ∈ children, Regular child) →
      children.IsChain Apart → (tag ∈ voidTags → children = []) → Regular (.element tag children)

theorem Regular.leaf (tag : Text) : (Node.element tag []).Regular :=
  .element (List.forall_mem_nil _) .nil fun _ => rfl

structure Forest (nodes : List Node) : Prop where
  regular : ∀ node ∈ nodes, node.Regular
  apart : nodes.IsChain Apart

namespace Forest

theorem nil : Forest [] := ⟨List.forall_mem_nil _, .nil⟩

theorem cons_iff {node : Node} {rest : List Node} :
    Forest (node :: rest) ↔
      node.Regular ∧ (∀ next ∈ rest.head?, Apart node next) ∧ Forest rest := by
  constructor
  · rintro ⟨hregular, hapart⟩
    obtain ⟨hnode, hrest⟩ := List.forall_mem_cons.1 hregular
    obtain ⟨hnext, hchain⟩ := List.isChain_cons.1 hapart
    exact ⟨hnode, hnext, hrest, hchain⟩
  · rintro ⟨hnode, hnext, hrest⟩
    exact ⟨List.forall_mem_cons.2 ⟨hnode, hrest.regular⟩, List.isChain_cons.2 ⟨hnext, hrest.apart⟩⟩

theorem reverse {nodes : List Node} (h : Forest nodes) : Forest nodes.reverse := by
  constructor
  · intro node hnode
    exact h.regular node (List.mem_reverse.1 hnode)
  · rw [List.isChain_reverse]
    exact h.apart.imp fun m n hmn => Or.symm hmn

theorem of_element {tag : Text} {children : List Node} (h : (element tag children).Regular) :
    Forest children ∧ (tag ∈ voidTags → children = []) := by
  cases h with
  | element hchildren hapart hvoid => exact ⟨⟨hchildren, hapart⟩, hvoid⟩

end Forest

def tagPiece (inside : Text) : Piece Text := .found ('<' :: (inside ++ ['>'])) inside

mutual

def pieces : Node → List (Piece Text)
  | .text content => [.plain (escape content)]
  | .element tag children =>
    tagPiece tag ::
      if voidTags.contains tag then [] else piecesOfAll children ++ [tagPiece ('/' :: tag)]

def piecesOfAll : List Node → List (Piece Text)
  | [] => []
  | node :: rest => pieces node ++ piecesOfAll rest

end

section Element

variable {tag : Text} {children nodes : List Node}

theorem writeAll_void (h : tag ∈ voidTags) :
    writeAll (.element tag children :: nodes) = '<' :: (tag ++ '>' :: writeAll nodes) := by
  simp [writeAll, write, h]

theorem writeAll_element (h : tag ∉ voidTags) :
    writeAll (.element tag children :: nodes) =
      '<' :: (tag ++ '>' :: (writeAll children ++ '<' :: ('/' :: tag ++ '>' :: writeAll nodes))) := by
  simp [writeAll, write, h]

theorem piecesOfAll_void (h : tag ∈ voidTags) :
    piecesOfAll (.element tag children :: nodes) = tagPiece tag :: piecesOfAll nodes := by
  simp [piecesOfAll, pieces, h]

theorem piecesOfAll_element (h : tag ∉ voidTags) :
    piecesOfAll (.element tag children :: nodes) =
      tagPiece tag :: (piecesOfAll children ++ tagPiece ('/' :: tag) :: piecesOfAll nodes) := by
  simp [piecesOfAll, pieces, h]

theorem forall_tags_element {P : Text → Prop} :
    (∀ name ∈ tagsOfAll (.element tag children :: nodes), P name) ↔
      P tag ∧ (∀ name ∈ tagsOfAll children, P name) ∧ ∀ name ∈ tagsOfAll nodes, P name := by
  rw [tagsOfAll, tags, List.cons_append, List.forall_mem_cons, List.forall_mem_append]

end Element

theorem not_mem_escape (t : Text) : '<' ∉ escape t := by
  intro h
  obtain ⟨c, -, hc⟩ := List.mem_flatMap.1 h
  unfold escapeChar at hc
  split at hc
  · revert hc
    decide
  · split at hc
    · revert hc
      decide
    · next hless =>
      split at hc
      · revert hc
        decide
      · exact hless (List.mem_singleton.1 hc).symm

theorem escape_ne_nil {t : Text} (h : t ≠ []) : escape t ≠ [] := by
  intro hnil
  apply h
  rw [← Entity.decode_escape t, hnil]
  rfl

end Node

namespace Markup

open Node

theorem tagFinder_tag {c : Char} {inside : Text} (hc : c = '/' ∨ c.isAlpha) (hclosed : '>' ∉ c :: inside)
    (rest : Text) :
    tagFinder ('<' :: (c :: inside ++ '>' :: rest)) = some (c :: inside, (c :: inside).length + 1) := by
  have hsplit := Text.splitAtFirst_append hclosed rest
  rw [List.cons_append] at hsplit ⊢
  rw [tagFinder, if_pos hc, hsplit]

theorem cut_tag {c : Char} {inside : Text} (hc : c = '/' ∨ c.isAlpha) (hclosed : '>' ∉ c :: inside)
    (rest : Text) :
    Text.cut tagFinder ('<' :: (c :: inside ++ '>' :: rest)) =
      tagPiece (c :: inside) :: Text.cut tagFinder rest := by
  have hbehind : c :: inside ++ '>' :: rest = (c :: inside ++ ['>']) ++ rest := by simp
  have hlength : (c :: inside ++ ['>']).length = (c :: inside).length + 1 := List.length_append
  rw [Text.cut_of_some (tagFinder_tag hc hclosed rest), hbehind, ← hlength, List.take_left,
    List.drop_left]
  rfl

theorem cut_opening {tag : Text} (h : IsTagName tag) (rest : Text) :
    Text.cut tagFinder ('<' :: (tag ++ '>' :: rest)) = tagPiece tag :: Text.cut tagFinder rest := by
  obtain ⟨c, inside, rfl, hletter, hclosed⟩ := h.opens
  exact cut_tag (.inr hletter) hclosed rest

theorem cut_closing {tag : Text} (h : IsTagName tag) (rest : Text) :
    Text.cut tagFinder ('<' :: ('/' :: tag ++ '>' :: rest)) =
      tagPiece ('/' :: tag) :: Text.cut tagFinder rest := by
  obtain ⟨c, inside, rfl, -, hclosed⟩ := h.opens
  apply cut_tag (.inl rfl)
  rw [List.mem_cons, not_or]
  exact ⟨by decide, hclosed⟩

theorem cut_escape {content rest : Text} (hne : content ≠ [])
    (hrest : ∀ t pieces, Text.cut tagFinder rest ≠ .plain t :: pieces) :
    Text.cut tagFinder (escape content ++ rest) =
      .plain (escape content) :: Text.cut tagFinder rest := by
  rw [← Piece.foldr_consChar (escape_ne_nil hne) hrest]
  apply Text.cut_append_of_none
  intro before c after hsplit
  rw [tagFinder_eq_none_iff]
  intro d more hopens
  obtain ⟨rfl, -⟩ := List.cons.inj hopens
  apply absurd _ (not_mem_escape content)
  rw [hsplit]
  exact List.mem_append_right before List.mem_cons_self

/-- What is written in front of a tag, or at the end, is cut where it was put together. -/
theorem cut_writeAll {nodes : List Node} (hforest : Forest nodes)
    (hnames : ∀ tag ∈ tagsOfAll nodes, IsTagName tag) {rest : Text}
    (hrest : ∀ t pieces, Text.cut tagFinder rest ≠ .plain t :: pieces) :
    Text.cut tagFinder (writeAll nodes ++ rest) = piecesOfAll nodes ++ Text.cut tagFinder rest := by
  induction nodes using forest_induction generalizing rest with
  | nil => rfl
  | text content nodes ih =>
    obtain ⟨hregular, hnext, hnodes⟩ := Forest.cons_iff.1 hforest
    have hlater := ih hnodes hnames hrest
    have hcontent : content ≠ [] := by
      cases hregular with
      | text hcontent => exact hcontent
    rw [writeAll, write, List.append_assoc, cut_escape hcontent, hlater]
    · rfl
    · intro t pieces
      rw [hlater]
      cases nodes with
      | nil => exact hrest t pieces
      | cons node nodes =>
        cases node with
        | text _ => rcases hnext _ rfl with h | h <;> cases h
        | element _ _ => exact fun h => by cases h
  | element tag children nodes ihchildren ih =>
    obtain ⟨hregular, -, hnodes⟩ := Forest.cons_iff.1 hforest
    obtain ⟨hchildren, hvoid⟩ := Forest.of_element hregular
    obtain ⟨htag, hinside, hbehind⟩ := forall_tags_element.1 hnames
    have hlater := ih hnodes hbehind hrest
    by_cases hvoids : tag ∈ voidTags
    · rw [writeAll_void hvoids, piecesOfAll_void hvoids, List.cons_append, List.append_assoc,
        List.cons_append, cut_opening htag, hlater, List.cons_append]
    · have hclosing := cut_closing htag (writeAll nodes ++ rest)
      have hinner := ihchildren hchildren hinside fun t pieces h => by
        rw [hclosing] at h
        cases h
      rw [writeAll_element hvoids, piecesOfAll_element hvoids]
      simp only [List.cons_append, List.append_assoc] at hclosing hinner ⊢
      rw [cut_opening htag, hinner, hclosing, hlater]

theorem cut_written {nodes : List Node} (hforest : Forest nodes)
    (hnames : ∀ tag ∈ tagsOfAll nodes, IsTagName tag) :
    Text.cut tagFinder (writeAll nodes) = piecesOfAll nodes := by
  have hcut : Text.cut tagFinder (writeAll nodes ++ []) = piecesOfAll nodes ++ Text.cut tagFinder [] :=
    cut_writeAll hforest hnames fun t pieces h => by cases h
  have hnothing : Text.cut tagFinder [] = [] := rfl
  rw [List.append_nil, hnothing, List.append_nil] at hcut
  exact hcut

namespace Building

variable (b : Building)

theorem addTag_opening {tag : Text} (h : IsTagName tag) (hslash : tag.getLast? ≠ some '/') :
    b.addTag tag =
      if tag ∈ voidTags then b.addNode (.element tag []) else b.openElement tag := by
  obtain ⟨c, rest, rfl, hletter, hclosed⟩ := h.opens
  rw [addTag_of_letter b hletter hclosed, tagName_eq_self h hslash]
  simp only [hslash, false_or]

theorem addTag_closing {tag : Text} (h : IsTagName tag) :
    b.addTag ('/' :: tag) = b.closeElement tag := by
  have hblank : ∀ c ∈ tag, ¬Text.isBlankChar c := fun c hc => (h.inner c hc).2.1
  have hsmall : ∀ c ∈ tag, ¬c.isUpper := fun c hc => (h.inner c hc).2.2
  rw [addTag, Text.trim_eq_self hblank, Text.asciiLower_eq_self hsmall]

theorem closeElement_innermost (tag : Text) (inner before : List Node)
    (outer : List (Text × List Node)) :
    closeElement ⟨inner, (tag, before) :: outer⟩ tag =
      ⟨.element tag inner.reverse :: before, outer⟩ := by
  simp [closeElement, closeUntil]

theorem addText_of_element (t : Text) (h : ∀ last ∈ b.inner.head?, last.isText = false) :
    b.addText t = b.addNode (.text t) := by
  unfold addText
  split
  · next before rest hinner =>
    have hlast := h (.text before) (by rw [hinner]; rfl)
    cases hlast
  · rfl

theorem foldl_piecesOfAll {nodes : List Node} (hforest : Forest nodes)
    (hnames : ∀ tag ∈ tagsOfAll nodes, IsTagName tag)
    (hslash : ∀ tag ∈ tagsOfAll nodes, tag.getLast? ≠ some '/')
    (hapart : ∀ last ∈ b.inner.head?, ∀ next ∈ nodes.head?, Apart last next) :
    (piecesOfAll nodes).foldl addPiece b = ⟨nodes.reverse ++ b.inner, b.outer⟩ := by
  induction nodes using forest_induction generalizing b with
  | nil => rfl
  | text content nodes ih =>
    obtain ⟨-, hnext, hnodes⟩ := Forest.cons_iff.1 hforest
    have hlast : ∀ last ∈ b.inner.head?, last.isText = false := by
      intro last hlast
      rcases hapart last hlast _ rfl with h | h
      · exact h
      · cases h
    have hstep : b.addPiece (.plain (escape content)) = b.addNode (.text content) := by
      rw [addPiece, Entity.decode_escape, addText_of_element b content hlast]
    have hrest := ih (b.addNode (.text content)) hnodes hnames hslash fun last h next hn => by
      obtain rfl := Option.some.inj h
      exact hnext next hn
    have hpieces : piecesOfAll (.text content :: nodes) =
        .plain (escape content) :: piecesOfAll nodes := rfl
    rw [hpieces, List.foldl_cons, hstep, hrest]
    simp [addNode]
  | element tag children nodes ihchildren ih =>
    obtain ⟨hregular, -, hnodes⟩ := Forest.cons_iff.1 hforest
    obtain ⟨hchildren, hvoid⟩ := Forest.of_element hregular
    obtain ⟨htag, hinside, hbehind⟩ := forall_tags_element.1 hnames
    obtain ⟨hend, hinsideEnd, hbehindEnd⟩ := forall_tags_element.1 hslash
    have hrest := ih ⟨.element tag children :: b.inner, b.outer⟩ hnodes hbehind hbehindEnd
      fun last h next _ => by
        obtain rfl := Option.some.inj h
        exact .inl rfl
    by_cases hvoids : tag ∈ voidTags
    · have hstep : b.addPiece (tagPiece tag) = ⟨.element tag children :: b.inner, b.outer⟩ := by
        rw [tagPiece, addPiece, addTag_opening b htag hend, if_pos hvoids, hvoid hvoids]
        rfl
      rw [piecesOfAll_void hvoids, List.foldl_cons, hstep, hrest]
      simp
    · have hopened : b.addPiece (tagPiece tag) = ⟨[], (tag, b.inner) :: b.outer⟩ := by
        rw [tagPiece, addPiece, addTag_opening b htag hend, if_neg hvoids]
        rfl
      have hinner := ihchildren ⟨[], (tag, b.inner) :: b.outer⟩ hchildren hinside hinsideEnd
        fun _ hlast => absurd hlast (Option.not_mem_none _)
      have hclosed : addPiece ⟨children.reverse ++ [], (tag, b.inner) :: b.outer⟩
          (tagPiece ('/' :: tag)) = ⟨.element tag children :: b.inner, b.outer⟩ := by
        rw [List.append_nil, tagPiece, addPiece, addTag_closing _ htag, closeElement_innermost,
          List.reverse_reverse]
      rw [piecesOfAll_element hvoids, List.foldl_cons, hopened, List.foldl_append, hinner,
        List.foldl_cons, hclosed, hrest]
      simp

end Building

theorem foldl_cut_writeAll {nodes : List Node} (hforest : Forest nodes)
    (hnames : ∀ tag ∈ tagsOfAll nodes, IsTagName tag)
    (hslash : ∀ tag ∈ tagsOfAll nodes, tag.getLast? ≠ some '/') :
    (Text.cut tagFinder (writeAll nodes)).foldl Building.addPiece Building.start =
      ⟨nodes.reverse, []⟩ := by
  have hread := Building.foldl_piecesOfAll Building.start hforest hnames hslash
    fun _ hlast => absurd hlast (Option.not_mem_none _)
  have hstart : Building.start.inner = [] := rfl
  rw [cut_written hforest hnames, hread, hstart, List.append_nil]
  rfl

/-- What was written of a forest reads as that forest. -/
theorem written_forest_reads_back {nodes : List Node} (hforest : Forest nodes)
    (hnames : ∀ tag ∈ tagsOfAll nodes, IsTagName tag)
    (hslash : ∀ tag ∈ tagsOfAll nodes, tag.getLast? ≠ some '/') : parse (writeAll nodes) = nodes := by
  rw [parse, foldl_cut_writeAll hforest hnames hslash]
  exact List.reverse_reverse nodes

def paragraph : List Node :=
  [.text "<b>&lt;".toList, .element "p".toList [.text "1 < 2 & 3".toList, .element "br".toList []]]

theorem paragraph_forest : Forest paragraph := by
  have hinner : Forest [.text "1 < 2 & 3".toList, .element "br".toList []] := by
    constructor
    · intro node hnode
      simp only [List.mem_cons, List.not_mem_nil, or_false] at hnode
      rcases hnode with rfl | rfl
      · exact .text (by decide)
      · exact .leaf _
    · exact .cons_cons (.inr rfl) (.singleton _)
  constructor
  · intro node hnode
    simp only [paragraph, List.mem_cons, List.not_mem_nil, or_false] at hnode
    rcases hnode with rfl | rfl
    · exact .text (by decide)
    · exact .element hinner.regular hinner.apart fun h => absurd h (by decide)
  · exact .cons_cons (.inr rfl) (.singleton _)

theorem paragraph_reads_back : Forest paragraph ∧
    (∀ tag ∈ tagsOfAll paragraph, IsTagName tag ∧ tag.getLast? ≠ some '/') ∧
    parse (writeAll paragraph) = paragraph := by
  have htags : ∀ tag ∈ tagsOfAll paragraph, IsTagName tag ∧ tag.getLast? ≠ some '/' := by
    decide
  refine ⟨paragraph_forest, htags, ?_⟩
  apply written_forest_reads_back paragraph_forest
  · intro tag htag
    exact (htags tag htag).1
  · intro tag htag
    exact (htags tag htag).2

end Markup
end SnippetExpansion
