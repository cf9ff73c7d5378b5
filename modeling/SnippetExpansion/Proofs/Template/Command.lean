import SnippetExpansion.Template.Expand
import SnippetExpansion.Proofs.Template.Placeholder

/-! # Commands keep the signs of their argument
Templates are read by the brackets in them, and by a mask that stands in for a text from outside. No letter is
such a sign: letter case neither makes nor unmakes one, and dates are digits, dashes and what else stands in the
format. So in a text of a command's own there is a sign only if it is in the argument. -/
namespace SnippetExpansion

def maskSign : Char := '\x00'

theorem literalMask_eq : literalMask = [maskSign] := rfl

def Text.signs : Text :=
  [Bracket.square.opener, Bracket.square.closer, Bracket.curly.opener, Bracket.curly.closer, maskSign]

instance (P : Char → Prop) [DecidablePred P] : Decidable (∀ d ∈ Text.signs, P d) :=
  List.decidableBAll P Text.signs

/-- No sign is in the text. -/
def Text.Plain (t : Text) : Prop := ∀ d ∈ signs, d ∉ t

instance (t : Text) : Decidable t.Plain := inferInstanceAs (Decidable (∀ d ∈ Text.signs, d ∉ t))

theorem Bracket.absent_iff_not_mem {b : Bracket} {t : Text} : b.Absent t ↔ b.opener ∉ t ∧ b.closer ∉ t := by
  constructor
  · intro h
    exact ⟨fun hmem => b.not_isInner_opener (h _ hmem), fun hmem => b.not_isInner_closer (h _ hmem)⟩
  · rintro ⟨hopener, hcloser⟩ c hc
    have hne : c ≠ b.opener ∧ c ≠ b.closer :=
      ⟨fun heq => hopener (heq ▸ hc), fun heq => hcloser (heq ▸ hc)⟩
    simp [isInner, hne]

namespace Text

variable {s t : Text}

theorem opener_mem_signs (b : Bracket) : b.opener ∈ signs := by cases b <;> decide

theorem closer_mem_signs (b : Bracket) : b.closer ∈ signs := by cases b <;> decide

theorem plain_iff : Plain t ↔ BracketFree t ∧ maskSign ∉ t := by
  simp only [Plain, signs, BracketFree.iff_absent, Bracket.absent_iff_not_mem, List.forall_mem_cons,
    List.not_mem_nil, false_implies, implies_true, and_true, and_assoc]

theorem Plain.bracketFree (h : Plain t) : BracketFree t := (plain_iff.1 h).1

theorem Plain.nil : Plain [] := fun _ _ => List.not_mem_nil

theorem Plain.append (hs : Plain s) (ht : Plain t) : Plain (s ++ t) := by
  intro d hd hmem
  rcases List.mem_append.1 hmem with hmem | hmem
  · exact hs d hd hmem
  · exact ht d hd hmem

theorem Plain.cons {c : Char} (hc : c ∉ signs) (ht : Plain t) : Plain (c :: t) :=
  .append (s := [c]) (fun _ hd hmem => hc (List.mem_singleton.1 hmem ▸ hd)) ht

theorem absent_of_signs {b : Bracket} (hsigns : ∀ d ∈ signs, d ∈ s → d ∈ t) (ht : b.Absent t) :
    b.Absent s := by
  rw [Bracket.absent_iff_not_mem] at ht ⊢
  exact ⟨mt (hsigns _ (opener_mem_signs b)) ht.1, mt (hsigns _ (closer_mem_signs b)) ht.2⟩

/-- In no case mapping is a sign the image of a character. -/
theorem images_not_signs :
    (∀ r ∈ upperRuns ++ lowerRuns, ∀ d ∈ signs,
      (r.last + r.offset < 0xd800 ∨ 0xdfff < r.first + r.offset ∧ r.last + r.offset < 0x110000) ∧
        0 < r.first + r.offset ∧ (d.toNat < r.first + r.offset ∨ r.last + r.offset < d.toNat)) ∧
    (∀ s ∈ upperSequences ++ lowerSequences, ∀ n ∈ s.2, ∀ d ∈ signs, Char.ofNat n ≠ d) := by
  decide +kernel

theorem ascii_image_sign {n : Nat} (hascii : n < 0x80) :
    ∀ d ∈ signs, (d = (Char.ofNat n).toUpper ↔ d = Char.ofNat n) ∧
      (d = (Char.ofNat n).toLower ↔ d = Char.ofNat n) := by
  revert n
  decide +kernel

theorem toNat_lt_of_mem_signs {d : Char} (hd : d ∈ signs) : d.toNat < 0x80 := by
  revert d
  decide

theorem mapChar_plain {runs : List CaseRun} {sequences : List (Nat × List Nat)} {c : Char}
    (hruns : runs ⊆ upperRuns ++ lowerRuns)
    (hsequences : sequences ⊆ upperSequences ++ lowerSequences) (hc : ¬c.toNat < 0x80) :
    Plain (mapChar runs sequences c) := by
  intro d hd
  unfold mapChar
  split
  · next ns hns =>
    obtain ⟨l, l', rfl, -⟩ := List.lookup_eq_some_iff.1 hns
    have hmem := hsequences (List.mem_append_right l List.mem_cons_self)
    intro himage
    obtain ⟨n, hn, heq⟩ := List.mem_map.1 himage
    exact images_not_signs.2 _ hmem n hn d hd heq
  · split
    · next m hm =>
      obtain ⟨r, hr, himage⟩ := List.exists_of_findSome?_eq_some hm
      obtain ⟨hvalid, hpositive, hapart⟩ := images_not_signs.1 r (hruns hr) d hd
      simp only [CaseRun.image?] at himage
      split at himage
      · next hrange =>
        obtain rfl := Option.some.inj himage
        have hchar : (c.toNat + r.offset).toNat.isValidChar := by
          simp only [Nat.isValidChar]
          omega
        rw [List.mem_singleton, Char.ofNat, dif_pos hchar]
        rintro rfl
        have hcode : (Char.ofNatAux _ hchar).toNat = (c.toNat + r.offset).toNat := rfl
        omega
      · cases himage
    · rw [List.mem_singleton]
      rintro rfl
      exact hc (toNat_lt_of_mem_signs hd)

section Case

variable {d : Char} (hd : d ∈ signs)
include hd

theorem mem_upperChar_iff {c : Char} : d ∈ upperChar c ↔ d = c := by
  unfold upperChar
  split
  · next hascii =>
    have himage := (ascii_image_sign hascii d hd).1
    rwa [Char.ofNat_toNat, ← List.mem_singleton] at himage
  · next hascii =>
    have hplain := mapChar_plain (List.subset_append_left _ _) (List.subset_append_left _ _) hascii d hd
    refine iff_of_false hplain ?_
    rintro rfl
    exact hascii (toNat_lt_of_mem_signs hd)

theorem mem_lowerChar_iff {c : Char} : d ∈ lowerChar c ↔ d = c := by
  unfold lowerChar
  split
  · next hascii =>
    have himage := (ascii_image_sign hascii d hd).2
    rwa [Char.ofNat_toNat, ← List.mem_singleton] at himage
  · next hascii =>
    have hplain := mapChar_plain (List.subset_append_right _ _) (List.subset_append_right _ _) hascii d hd
    refine iff_of_false hplain ?_
    rintro rfl
    exact hascii (toNat_lt_of_mem_signs hd)

theorem mem_upper_iff : d ∈ upper t ↔ d ∈ t := by
  simp [upper, mem_upperChar_iff hd]

theorem mem_lowerAfter_iff (before : Text) : d ∈ lowerAfter before t ↔ d ∈ t := by
  have hsigmas : d ∉ ['Σ', 'σ', 'ς'] := by
    revert d
    decide
  induction t generalizing before with
  | nil => rfl
  | cons c t ih =>
    rw [lowerAfter, List.mem_append, List.mem_cons]
    refine or_congr ?_ (ih (c :: before))
    split
    · next hsigma =>
      subst hsigma
      split <;> simp_all
    · exact mem_lowerChar_iff hd

theorem mem_lower_iff : d ∈ lower t ↔ d ∈ t := mem_lowerAfter_iff hd []

theorem mem_capitalize_iff : d ∈ capitalize t ↔ d ∈ t := by
  cases t with
  | nil => rfl
  | cons c t => simp [capitalize, mem_upperChar_iff hd, mem_lowerChar_iff hd]

end Case

variable {b : Bracket}

theorem upper_absent (h : b.Absent t) : b.Absent (upper t) :=
  absent_of_signs (fun _ hd => (mem_upper_iff hd).1) h

theorem lower_absent (h : b.Absent t) : b.Absent (lower t) :=
  absent_of_signs (fun _ hd => (mem_lower_iff hd).1) h

theorem capitalize_absent (h : b.Absent t) : b.Absent (capitalize t) :=
  absent_of_signs (fun _ hd => (mem_capitalize_iff hd).1) h

theorem ofNat_plain (n : Nat) : Plain (ofNat n) := by
  intro d hd hmem
  have hdigit : d.isDigit := Nat.isDigit_of_mem_toDigits (by decide) (by decide) hmem
  have hsign : ∀ d ∈ signs, ¬d.isDigit := by decide
  exact hsign d hd hdigit

theorem padLeft_plain (width : Nat) (h : Plain t) : Plain (padLeft width '0' t) := by
  refine .append ?_ h
  intro d hd hmem
  obtain rfl := List.eq_of_mem_replicate hmem
  exact absurd hd (by decide)

end Text

open Text (BracketFree Plain)

theorem twoDigits_plain (n : Nat) : Plain (twoDigits n) := Text.padLeft_plain 2 (Text.ofNat_plain n)

theorem DateField.found_plain {format found : Text} {field : DateField}
    (h : .found found field ∈ Text.cut DateField.finder format) : Plain found := by
  have hletters : ∀ field ∈ DateField.all, Plain field.letters ∧ field.letters ≠ [] := by decide
  obtain ⟨before, c, rest, more, -, hfind, rfl⟩ := Text.find_of_mem_cut h
  obtain ⟨field', hfield, hpair⟩ := Option.map_eq_some_iff.1 hfind
  obtain ⟨rfl, rfl⟩ := Prod.mk.inj hpair
  obtain ⟨hplain, hne⟩ := hletters field' (List.mem_of_find?_eq_some hfield)
  have hstarts : field'.letters <+: c :: rest :=
    List.isPrefixOf_iff_prefix.1 (by simpa using List.find?_some hfield)
  have hlength : 0 < field'.letters.length := List.length_pos_iff.2 hne
  have htake : c :: rest.take (field'.letters.length - 1) = field'.letters := by
    rw [← List.take_succ_cons, Nat.sub_add_cancel hlength]
    exact (List.prefix_iff_eq_take.1 hstarts).symm
  rw [htake]
  exact hplain

namespace Instant

theorem shown_plain (i : Instant) (field : DateField) : Plain (i.shown field) := by
  cases field with
  | year =>
    change Plain (yearDigits i.year)
    cases i.year with
    | ofNat n => exact Text.padLeft_plain 4 (Text.ofNat_plain n)
    | negSucc n => exact .cons (by decide) (Text.padLeft_plain 3 (Text.ofNat_plain (n + 1)))
  | _ => exact twoDigits_plain _

theorem mem_formatDate_iff (i : Instant) {format : Text} {d : Char} (hd : d ∈ Text.signs) :
    d ∈ i.formatDate format ↔ d ∈ format := by
  conv_rhs => rw [← Text.flatMap_text_cut DateField.finder format]
  rw [formatDate, List.mem_flatMap, List.mem_flatMap]
  refine exists_congr fun piece => and_congr_right fun hpiece => ?_
  cases piece with
  | plain t => rfl
  | found t field =>
    exact iff_of_false (i.shown_plain field d hd) (DateField.found_plain hpiece d hd)

theorem formatDate_absent (i : Instant) {b : Bracket} {format : Text} (h : b.Absent format) :
    b.Absent (i.formatDate format) :=
  Text.absent_of_signs (fun _ hd => (i.mem_formatDate_iff hd).1) h

theorem formatDate_bracketFree (i : Instant) {format : Text} (h : BracketFree format) :
    BracketFree (i.formatDate format) :=
  fun b => i.formatDate_absent (h b)

theorem formatTime_plain (i : Instant) : Plain i.formatTime := by
  have hcolon : ':' ∉ Text.signs := by decide
  exact .append (.append (twoDigits_plain _) (.cons hcolon (twoDigits_plain _)))
    (.cons hcolon (twoDigits_plain _))

theorem formatTime_bracketFree (i : Instant) : BracketFree i.formatTime := i.formatTime_plain.bracketFree

end Instant

/-- Letter case takes no ASCII character away. -/
theorem Text.mem_lower {c : Char} {t : Text} (hascii : c.toNat < 0x80) (h : c ∈ t) :
    c.toLower ∈ lower t := by
  have hsigma : c ≠ 'Σ' := by
    rintro rfl
    exact absurd hascii (by decide)
  have hafter (before : Text) : c.toLower ∈ lowerAfter before t := by
    induction t generalizing before with
    | nil => cases h
    | cons d t ih =>
      rw [lowerAfter, List.mem_append]
      rcases List.mem_cons.1 h with rfl | hlater
      · rw [if_neg hsigma, lowerChar, if_pos hascii]
        exact .inl List.mem_cons_self
      · exact .inr (ih hlater _)
  exact hafter []

namespace Command

theorem isLower_of_mem_name (command : Command) : ∀ c ∈ command.name, c.isLower := by
  have hall : command.name.all Char.isLower := by cases command <;> decide
  exact List.all_eq_true.1 hall

theorem not_mem_of_lookup? {key : Text} {command : Command} (h : lookup? key = some command) {c : Char}
    (hascii : c.toNat < 0x80) (hletter : c.toLower.isLower = false) : c ∉ key := by
  intro hmem
  have hname : command.name = Text.lower key := by simpa using List.find?_some h
  have hlower := isLower_of_mem_name command _ (hname ▸ Text.mem_lower hascii hmem)
  rw [hletter] at hlower
  cases hlower

theorem colon_not_mem_of_lookup? {key : Text} {command : Command} (h : lookup? key = some command) :
    ':' ∉ key :=
  not_mem_of_lookup? h (by decide) (by decide)

theorem bracketFree_of_lookup? {key : Text} {command : Command} (h : lookup? key = some command) :
    BracketFree key := by
  intro b c hc
  have hopener : b.opener ∉ key := not_mem_of_lookup? h (by cases b <;> decide) (by cases b <;> decide)
  have hcloser : b.closer ∉ key := not_mem_of_lookup? h (by cases b <;> decide) (by cases b <;> decide)
  have hne : c ≠ b.opener ∧ c ≠ b.closer :=
    ⟨fun heq => hopener (heq ▸ hc), fun heq => hcloser (heq ▸ hc)⟩
  simp [Bracket.isInner, hne]

end Command
end SnippetExpansion
