import SnippetExpansion.Template.Pattern
import SnippetExpansion.Template.Resolve
import SnippetExpansion.Proofs.Template.Placeholder
import SnippetExpansion.Proofs.Text.Positions

/-! # What scans find
Each form of a placeholder is read on its own, key first. They all agree on the bracket pairs of a text: a
scan finds the pairs without such a bracket inside that begin with a key, each of them once, and the scans
for one form find those of that form. -/
namespace SnippetExpansion

namespace Bracket

theorem isInner_colon (b : Bracket) : b.isInner ':' := by cases b <;> decide

theorem colon_ne_closer (b : Bracket) : ':' ≠ b.closer := by cases b <;> decide

end Bracket

open Placeholder

namespace Pattern

variable {b : Bracket} {pattern : Pattern}

theorem takeWhile_stretch {inClass : Char → Bool} {stretch rest : Text}
    (hstretch : ∀ c ∈ stretch, inClass c) (hend : ∀ c after, rest = c :: after → ¬inClass c) :
    (stretch ++ rest).takeWhile inClass = stretch := by
  rw [List.takeWhile_append_of_pos hstretch]
  cases rest with
  | nil => simp
  | cons c after => rw [List.takeWhile_cons_of_neg (hend c after rfl), List.append_nil]

theorem getElem?_behind (stretch rest : Text) : (stretch ++ rest)[stretch.length]? = rest.head? := by
  rw [List.getElem?_append_right (Nat.le_refl _), Nat.sub_self, List.head?_eq_getElem?]

theorem isKeyChar_of_mem {key : Text} (habsent : b.Absent key) (hcolon : ':' ∉ key) :
    ∀ c ∈ key, isKeyChar b c := by
  intro c hc
  have hne : c ≠ ':' := fun h => hcolon (h ▸ hc)
  simp [isKeyChar, habsent c hc, hne]

theorem not_isKeyChar_colon : ¬isKeyChar b ':' := by simp [isKeyChar]

theorem not_isKeyChar_of_not_isInner {c : Char} (h : ¬b.isInner c) : ¬isKeyChar b c := by
  simp [isKeyChar, h]

theorem hasKey_iff {inside : Text} : hasKey inside ↔ inside ≠ [] ∧ inside.head? ≠ some ':' := by
  cases inside with
  | nil => simp [hasKey]
  | cons c inside => simp [hasKey]

theorem ofInside_of_key {key : Text} (hcolon : ':' ∉ key) :
    ofInside b key = ⟨written b key, key, none⟩ := by
  rw [ofInside, Text.splitAtFirst_of_not_mem hcolon]
  rfl

theorem ofInside_of_argument {key : Text} (hcolon : ':' ∉ key) (argument : Text) :
    ofInside b (key ++ ':' :: argument) =
      ⟨written b (key ++ ':' :: argument), key, some argument⟩ := by
  rw [ofInside, Text.splitAtFirst_append hcolon]
  rfl

theorem finder_of_key {key rest : Text} (habsent : b.Absent key) (hcolon : ':' ∉ key)
    (hend : ∀ c after, rest = c :: after → ¬b.isInner c) :
    pattern.finder b (b.opener :: (key ++ rest)) =
      if hasKey key ∧ rest.head? = some b.closer ∧ pattern.takes none then
        some (ofInside b key, key.length + 1)
      else none := by
  have hread := takeWhile_stretch (isKeyChar_of_mem habsent hcolon)
    fun c after h => not_isKeyChar_of_not_isInner (hend c after h)
  rw [finder, hread, List.drop_left, ofInside_of_key hcolon]
  cases key with
  | nil => simp [hasKey]
  | cons k key =>
    have hk : k ≠ ':' := fun h => hcolon (h ▸ List.mem_cons_self)
    rw [if_pos (by simp)]
    cases rest with
    | nil => simp [afterKey]
    | cons c after =>
      have hc : c ≠ ':' := by
        rintro rfl
        exact hend ':' after rfl b.isInner_colon
      simp [afterKey, hc, hk, hasKey, written]

/-- The first colon ends the key, and the argument runs to the end of what stands between the brackets. -/
theorem finder_of_argument {key argument rest : Text} (hkey : b.Absent key) (hcolon : ':' ∉ key)
    (hargument : b.Absent argument) (hend : ∀ c after, rest = c :: after → ¬b.isInner c) :
    pattern.finder b (b.opener :: (key ++ ':' :: argument ++ rest)) =
      if hasKey (key ++ ':' :: argument) ∧ rest.head? = some b.closer ∧
          pattern.takes (some argument) then
        some (ofInside b (key ++ ':' :: argument), (key ++ ':' :: argument).length + 1)
      else none := by
  have hread : (key ++ ':' :: (argument ++ rest)).takeWhile (isKeyChar b) = key := by
    apply takeWhile_stretch (isKeyChar_of_mem hkey hcolon)
    intro c after h
    obtain ⟨rfl, -⟩ := List.cons.inj h
    exact not_isKeyChar_colon
  rw [List.append_assoc, List.cons_append, finder, hread, List.drop_left,
    ofInside_of_argument hcolon]
  cases key with
  | nil => simp [hasKey]
  | cons k key =>
    have hk : k ≠ ':' := fun h => hcolon (h ▸ List.mem_cons_self)
    have hsize : (k :: key).length + argument.length + 2 =
        ((k :: key) ++ ':' :: argument).length + 1 := by
      simp only [List.length_append, List.length_cons]
      omega
    rw [if_pos (by simp), afterKey, takeWhile_stretch hargument hend, getElem?_behind, hsize]
    simp [b.colon_ne_closer, hk, hasKey, written, and_comm]

theorem placeholder_finder_eq {inside rest : Text} (habsent : b.Absent inside)
    (hend : ∀ c after, rest = c :: after → ¬b.isInner c) :
    Placeholder.finder b (b.opener :: (inside ++ rest)) =
      if hasKey inside ∧ rest.head? = some b.closer then some (ofInside b inside, inside.length + 1)
      else none := by
  rw [Placeholder.finder, bracketed, takeWhile_stretch habsent hend, getElem?_behind]
  by_cases hfound : hasKey inside ∧ rest.head? = some b.closer
  · simp [hfound]
  · simp [hfound]

/-- Reading key, colon and argument one after the other recognises the placeholders of that form. -/
theorem finder_eq (pattern : Pattern) (b : Bracket) (t : Text) :
    pattern.finder b t = (Placeholder.finder b t).filter fun e => pattern.takes e.1.argument := by
  have hread {inside : Text} (rest : Text) (habsent : b.Absent inside)
      (hend : ∀ c after, rest = c :: after → ¬b.isInner c) :
      pattern.finder b (b.opener :: (inside ++ rest)) =
        (Placeholder.finder b (b.opener :: (inside ++ rest))).filter
          fun e => pattern.takes e.1.argument := by
    rw [placeholder_finder_eq habsent hend]
    rcases Text.not_mem_or_splits ':' inside with hcolon | ⟨key, argument, rfl, hcolon⟩
    · rw [finder_of_key habsent hcolon hend, ofInside_of_key hcolon]
      by_cases hfound : hasKey inside ∧ rest.head? = some b.closer
      · simp [hfound, Option.filter]
      · simp [hfound, ← and_assoc]
    · obtain ⟨hkey, hbehind⟩ := Bracket.Absent.append_iff.1 habsent
      rw [finder_of_argument hkey hcolon (Bracket.Absent.cons_iff.1 hbehind).2 hend,
        ofInside_of_argument hcolon]
      by_cases hfound : hasKey (key ++ ':' :: argument) ∧ rest.head? = some b.closer
      · simp [hfound, Option.filter]
      · simp [hfound, ← and_assoc]
  cases t with
  | nil => rfl
  | cons c rest =>
    by_cases hc : c = b.opener
    · subst hc
      rcases Text.stretch_or_splits b.isInner rest with habsent | ⟨inside, d, after, rfl, habsent, hd⟩
      · have hwhole := hread [] habsent fun c after h => by cases h
        rw [List.append_nil] at hwhole
        exact hwhole
      · apply hread _ habsent
        intro c after' h
        obtain ⟨rfl, -⟩ := List.cons.inj h
        exact hd
    · simp [finder, Placeholder.finder, bracketed, hc]

/-- A pair of brackets with this between them opens at this byte of the text. Neither bracket stands between
them. -/
def PairAt (b : Bracket) (t : Text) (position : Nat) (inside : Text) : Prop :=
  ∃ before after, t = before ++ b.opener :: (inside ++ b.closer :: after) ∧
    position = Text.byteLength before ∧ b.Absent inside

/-- What a placeholder says of the text between its brackets: the first colon divides it. -/
structure Reads (b : Bracket) (inside : Text) (p : Placeholder) : Prop where
  whole : p.text = b.opener :: (inside ++ [b.closer])
  colonless : ':' ∉ p.key
  divided : inside = p.key ++ (p.argument.map (':' :: ·)).getD []

theorem reads_iff {inside : Text} {p : Placeholder} : Reads b inside p ↔ p = ofInside b inside := by
  constructor
  · rintro ⟨hwhole, hcolon, hdivided⟩
    obtain ⟨text, key, argument⟩ := p
    cases argument with
    | none =>
      have hkey : inside = key := hdivided.trans (List.append_nil key)
      subst hkey
      rw [ofInside_of_key hcolon]
      congr
    | some argument =>
      have hkey : inside = key ++ ':' :: argument := hdivided
      subst hkey
      rw [ofInside_of_argument hcolon]
      congr
  · rintro rfl
    rcases Text.not_mem_or_splits ':' inside with hcolon | ⟨key, argument, rfl, hcolon⟩
    · rw [ofInside_of_key hcolon]
      exact ⟨rfl, hcolon, (List.append_nil inside).symm⟩
    · rw [ofInside_of_argument hcolon]
      exact ⟨rfl, hcolon, rfl⟩

theorem finder_apart (b : Bracket) : (Placeholder.finder b).Apart := by
  intro c rest p more hfind before d after hsplit hlength
  obtain ⟨inside, behind, ht, habsent, -, -, rfl⟩ := finder_eq_some.1 hfind
  rw [written_append] at ht
  obtain ⟨-, hrest⟩ := List.cons.inj ht
  have hd : d ∈ inside ++ [b.closer] := by
    apply List.mem_of_getElem? (i := before.length)
    have hplace : rest[before.length]? = some d := by simp [hsplit]
    have hsides : inside ++ b.closer :: behind = (inside ++ [b.closer]) ++ behind := by simp
    have hlt : before.length < (inside ++ [b.closer]).length := by simpa using hlength
    rw [← hplace, hrest, hsides, List.getElem?_append_left hlt]
  have hne : d ≠ b.opener := by
    rintro rfl
    rcases List.mem_append.1 hd with hinside | hcloser
    · exact b.not_isInner_opener (habsent _ hinside)
    · exact b.opener_ne_closer (List.mem_singleton.1 hcloser)
  rw [Placeholder.finder, bracketed_of_ne hne]
  rfl

theorem scan_eq_filter (pattern : Pattern) (b : Bracket) (t : Text) :
    scan pattern b t = (located b t).filter fun o => pattern.takes o.2.argument :=
  Text.positions_cut_filter (fun p : Placeholder => pattern.takes p.argument) (finder_apart b)
    (finder_eq pattern b) 0 t

theorem scan_token (b : Bracket) (t : Text) : scan .token b t = located b t := by
  rw [scan_eq_filter, List.filter_eq_self]
  intro o _
  rfl

theorem mem_located {t : Text} {position : Nat} {p : Placeholder} :
    (position, p) ∈ located b t ↔
      ∃ inside, PairAt b t position inside ∧ hasKey inside ∧ p = ofInside b inside := by
  rw [located, pieces, Text.mem_positions_cut (finder_apart b)]
  constructor
  · rintro ⟨before, c, rest, more, rfl, hfind, rfl⟩
    obtain ⟨inside, after, ht, habsent, hkey, rfl, -⟩ := finder_eq_some.1 hfind
    rw [written_append] at ht
    exact ⟨inside, ⟨before, after, by rw [ht], Nat.zero_add _, habsent⟩, hkey, rfl⟩
  · rintro ⟨inside, ⟨before, after, rfl, rfl, habsent⟩, hkey, rfl⟩
    refine ⟨before, b.opener, inside ++ b.closer :: after, inside.length + 1, rfl, ?_,
      (Nat.zero_add _).symm⟩
    rw [← written_append]
    exact finder_eq_some.2 ⟨inside, after, rfl, habsent, hkey, rfl, rfl⟩

theorem mem_all {t : Text} {p : Placeholder} :
    p ∈ all b t ↔
      ∃ inside, written b inside <:+: t ∧ b.Absent inside ∧ hasKey inside ∧ p = ofInside b inside := by
  rw [all, ← Piece.map_snd_positions 0, List.mem_map]
  constructor
  · rintro ⟨⟨position, p⟩, hlocated, rfl⟩
    obtain ⟨inside, ⟨before, after, ht, -, habsent⟩, hkey, hp⟩ := mem_located.1 hlocated
    refine ⟨inside, ⟨before, after, ?_⟩, habsent, hkey, hp⟩
    rw [ht, List.append_assoc, written_append]
  · rintro ⟨inside, ⟨before, after, ht⟩, habsent, hkey, rfl⟩
    refine ⟨(Text.byteLength before, ofInside b inside), ?_, rfl⟩
    refine mem_located.2 ⟨inside, ⟨before, after, ?_, rfl, habsent⟩, hkey, rfl⟩
    rw [← ht, List.append_assoc, written_append]

theorem located_pairwise (b : Bracket) (t : Text) :
    (located b t).Pairwise fun p q => p.1 + Text.byteLength p.2.text ≤ q.1 := by
  apply Piece.positions_pairwise fun p : Placeholder => Text.byteLength p.text
  intro found p hfound
  obtain ⟨inside, rfl, -, -, rfl⟩ := found_of_mem_pieces hfound
  rfl

theorem PairAt.unique {t : Text} {position : Nat} {inside inside' : Text}
    (h : PairAt b t position inside) (h' : PairAt b t position inside') : inside = inside' := by
  obtain ⟨before, after, ht, hposition, habsent⟩ := h
  obtain ⟨before', after', ht', hposition', habsent'⟩ := h'
  have hsame : Text.byteLength before = Text.byteLength before' := hposition.symm.trans hposition'
  have hsplit := ht.symm.trans ht'
  obtain ⟨-, hrest⟩ := Text.append_inj_of_byteLength hsplit hsame
  obtain ⟨-, hrest⟩ := List.cons.inj hrest
  exact (Bracket.first_bracket_unique habsent habsent' b.not_isInner_closer b.not_isInner_closer
    hrest).1

/-- The scans of a text for one kind of bracket, against the pairs of brackets in it. -/
structure ScansExactly (b : Bracket) (t : Text) : Prop where
  ordered : (scan .token b t).Pairwise fun p q =>
    p.1 < q.1 ∧ p.1 + Text.byteLength p.2.text ≤ q.1
  /-- Found are the pairs that begin with a key, and nothing else. -/
  found : ∀ position p, (position, p) ∈ scan .token b t ↔
    ∃ inside, PairAt b t position inside ∧ inside ≠ [] ∧ inside.head? ≠ some ':' ∧ Reads b inside p
  once : ∀ position inside, PairAt b t position inside → inside ≠ [] → inside.head? ≠ some ':' →
    ∃! p, (position, p) ∈ scan .token b t
  commands : scan .command b t = (scan .token b t).filter fun o => o.2.argument.isSome
  bare : scan .bare b t = (scan .token b t).filter fun o => o.2.argument.isNone
  passed : (located b t).filter (fun o => o.2.resolvedIn b) = scan (resolved b) b t
  occurs_iff : occurs (resolved b) b t ↔ scan (resolved b) b t ≠ []
  occursIn_eq : occursIn b t = occurs (resolved b) b t

theorem scans_exactly (b : Bracket) (t : Text) : ScansExactly b t := by
  have hpassed : (located b t).filter (fun o => o.2.resolvedIn b) = scan (resolved b) b t := by
    rw [scan_eq_filter]
    cases b <;> rfl
  have hoccurs : occurs (resolved b) b t ↔ scan (resolved b) b t ≠ [] :=
    Text.recognises_iff_positions 0
  constructor
  case ordered =>
    rw [scan_token]
    refine List.Pairwise.imp_of_mem ?_ (located_pairwise b t)
    intro p q hp _ hends
    refine ⟨?_, hends⟩
    obtain ⟨inside, -, -, hread⟩ := mem_located.1 hp
    have hpos : 0 < Text.byteLength p.2.text := by
      rw [hread]
      exact Text.byteLength_pos (List.cons_ne_nil _ _)
    omega
  case found =>
    intro position p
    simp only [scan_token, mem_located, hasKey_iff, reads_iff, and_assoc]
  case once =>
    intro position inside hpair hne hcolon
    refine ⟨ofInside b inside, ?_, ?_⟩
    · rw [scan_token]
      exact mem_located.2 ⟨inside, hpair, hasKey_iff.2 ⟨hne, hcolon⟩, rfl⟩
    · intro p hp
      rw [scan_token] at hp
      obtain ⟨inside', hpair', -, rfl⟩ := mem_located.1 hp
      rw [hpair.unique hpair']
  case commands =>
    rw [scan_token]
    exact scan_eq_filter .command b t
  case bare =>
    rw [scan_token]
    exact scan_eq_filter .bare b t
  case passed => exact hpassed
  case occurs_iff => exact hoccurs
  case occursIn_eq =>
    rw [Bool.eq_iff_iff, hoccurs, ← hpassed, occursIn, all, ← Piece.map_snd_positions 0]
    simp [located]

end Pattern
end SnippetExpansion
