import SnippetExpansion.Text.Utf8
import Mathlib.Data.List.TakeWhile

/-! # Text is read back from its bytes
A character is decoded from its bytes with anything behind them, so a text is decoded from its own. -/
namespace SnippetExpansion.Utf8

variable {first second : UInt8} {more : Bytes}

theorem sizeOfFirst_one (h : first.toNat < 0x80) : sizeOfFirst first = 1 := if_pos h

theorem sizeOfFirst_two (hlow : 0xC2 ≤ first.toNat) (hhigh : first.toNat < 0xE0) :
    sizeOfFirst first = 2 := by
  rw [sizeOfFirst, if_neg (by omega), if_neg (by omega), if_pos hhigh]

theorem sizeOfFirst_three (hlow : 0xE0 ≤ first.toNat) (hhigh : first.toNat < 0xF0) :
    sizeOfFirst first = 3 := by
  rw [sizeOfFirst, if_neg (by omega), if_neg (by omega), if_neg (by omega), if_pos hhigh]

theorem sizeOfFirst_four (hlow : 0xF0 ≤ first.toNat) (hhigh : first.toNat < 0xF5) :
    sizeOfFirst first = 4 := by
  rw [sizeOfFirst, if_neg (by omega), if_neg (by omega), if_neg (by omega), if_neg (by omega),
    if_pos hhigh]

theorem secondRange_eq (first : UInt8) :
    secondRange first =
      if first.toNat = 0xE0 then (0xA0, 0xBF) else if first.toNat = 0xED then (0x80, 0x9F)
      else if first.toNat = 0xF0 then (0x90, 0xBF) else if first.toNat = 0xF4 then (0x80, 0x8F)
      else (0x80, 0xBF) := by
  simp [secondRange, ← UInt8.toNat_inj]

/-- Some first bytes ask for less than every byte that goes on. -/
def MayFollow (first second : UInt8) : Prop :=
  0x80 ≤ second.toNat ∧ second.toNat ≤ 0xBF ∧ (first.toNat = 0xE0 → 0xA0 ≤ second.toNat) ∧
    (first.toNat = 0xED → second.toNat ≤ 0x9F) ∧ (first.toNat = 0xF0 → 0x90 ≤ second.toNat) ∧
    (first.toNat = 0xF4 → second.toNat ≤ 0x8F)

theorem MayFollow.in_range (h : MayFollow first second) :
    ¬(second.toNat < (secondRange first).1 ∨ (secondRange first).2 < second.toNat) := by
  obtain ⟨hlow, hhigh, hE0, hED, hF0, hF4⟩ := h
  rw [secondRange_eq]
  split_ifs <;> dsimp only <;> omega

theorem step_complete (rest : Bytes) (hsize : sizeOfFirst first = more.length + 2)
    (hsecond : MayFollow first second) (hmore : ∀ b ∈ more, isContinuation b = true) :
    step first (second :: more ++ rest) =
      .character (scalar first (more.length + 2) (second :: more)) (more.length + 2) := by
  have htaken : ((more ++ rest).take more.length).takeWhile isContinuation = more := by
    rw [List.take_left, List.takeWhile_eq_self_iff.2 hmore]
  rw [step, hsize]
  simp only [List.cons_append, Nat.add_sub_cancel, if_neg hsecond.in_range, htaken, if_true]

theorem toNat_ofNat {n : Nat} (h : n < 256) : (UInt8.ofNat n).toNat = n := by
  rw [UInt8.toNat_ofNat', Nat.mod_eq_of_lt h]

theorem isContinuation_low (n : Nat) : isContinuation (UInt8.ofNat (n % 0x40 + 0x80)) = true := by
  rw [isContinuation, toNat_ofNat (by omega), decide_eq_true_iff]
  omega

section Character

variable {n : Nat} {char : Char} (hchar : Char.ofNat n = char) (rest : Bytes)
include hchar

theorem step_one (h : n ≤ 0x7F) : step (UInt8.ofNat n) rest = .character char 1 := by
  have hfirst : (UInt8.ofNat n).toNat = n := toNat_ofNat (by omega)
  rw [step, sizeOfFirst_one (by omega)]
  simp only [hfirst, hchar]

theorem step_two (hlow : 0x7F < n) (hhigh : n ≤ 0x7FF) :
    step (UInt8.ofNat (n / 64 % 0x20 + 0xC0)) ([UInt8.ofNat (n % 0x40 + 0x80)] ++ rest) =
      .character char 2 := by
  have hfirst := toNat_ofNat (n := n / 64 % 0x20 + 0xC0) (by omega)
  have hsecond := toNat_ofNat (n := n % 0x40 + 0x80) (by omega)
  generalize UInt8.ofNat (n / 64 % 0x20 + 0xC0) = a at *
  generalize UInt8.ofNat (n % 0x40 + 0x80) = b at *
  have hfollows : MayFollow a b := ⟨by omega, by omega, by omega, by omega, by omega, by omega⟩
  have hscalar : scalar a 2 [b] = char := by
    rw [← hchar]
    change Char.ofNat (a.toNat % 32 * 64 + b.toNat % 64) = _
    congr 1
    omega
  rw [step_complete rest (sizeOfFirst_two (by omega) (by omega)) hfollows (by simp)]
  exact congrArg (Step.character · 2) hscalar

theorem step_three (hlow : 0x7FF < n) (hhigh : n ≤ 0xFFFF) (hvalid : n < 0xD800 ∨ 0xDFFF < n) :
    step (UInt8.ofNat (n / 4096 % 0x10 + 0xE0))
      ([UInt8.ofNat (n / 64 % 0x40 + 0x80), UInt8.ofNat (n % 0x40 + 0x80)] ++ rest) =
      .character char 3 := by
  have hfirst := toNat_ofNat (n := n / 4096 % 0x10 + 0xE0) (by omega)
  have hsecond := toNat_ofNat (n := n / 64 % 0x40 + 0x80) (by omega)
  have hthird := toNat_ofNat (n := n % 0x40 + 0x80) (by omega)
  have hmore := isContinuation_low n
  generalize UInt8.ofNat (n / 4096 % 0x10 + 0xE0) = a at *
  generalize UInt8.ofNat (n / 64 % 0x40 + 0x80) = b at *
  generalize UInt8.ofNat (n % 0x40 + 0x80) = c at *
  have hfollows : MayFollow a b := ⟨by omega, by omega, by omega, by omega, by omega, by omega⟩
  have hscalar : scalar a 3 [b, c] = char := by
    rw [← hchar]
    change Char.ofNat ((a.toNat % 16 * 64 + b.toNat % 64) * 64 + c.toNat % 64) = _
    congr 1
    omega
  have hsize : sizeOfFirst a = 3 := sizeOfFirst_three (by omega) (by omega)
  rw [step_complete rest hsize hfollows (by simpa using hmore)]
  exact congrArg (Step.character · 3) hscalar

theorem step_four (hlow : 0xFFFF < n) (hhigh : n < 0x110000) :
    step (UInt8.ofNat (n / 262144 % 0x08 + 0xF0))
      ([UInt8.ofNat (n / 4096 % 0x40 + 0x80), UInt8.ofNat (n / 64 % 0x40 + 0x80),
        UInt8.ofNat (n % 0x40 + 0x80)] ++ rest) = .character char 4 := by
  have hfirst := toNat_ofNat (n := n / 262144 % 0x08 + 0xF0) (by omega)
  have hsecond := toNat_ofNat (n := n / 4096 % 0x40 + 0x80) (by omega)
  have hthird := toNat_ofNat (n := n / 64 % 0x40 + 0x80) (by omega)
  have hfourth := toNat_ofNat (n := n % 0x40 + 0x80) (by omega)
  have hmore₁ := isContinuation_low (n / 64)
  have hmore₂ := isContinuation_low n
  generalize UInt8.ofNat (n / 262144 % 0x08 + 0xF0) = a at *
  generalize UInt8.ofNat (n / 4096 % 0x40 + 0x80) = b at *
  generalize UInt8.ofNat (n / 64 % 0x40 + 0x80) = c at *
  generalize UInt8.ofNat (n % 0x40 + 0x80) = d at *
  have hfollows : MayFollow a b := ⟨by omega, by omega, by omega, by omega, by omega, by omega⟩
  have hscalar : scalar a 4 [b, c, d] = char := by
    rw [← hchar]
    change Char.ofNat (((a.toNat % 8 * 64 + b.toNat % 64) * 64 + c.toNat % 64) * 64 +
      d.toNat % 64) = _
    congr 1
    omega
  have hsize : sizeOfFirst a = 4 := sizeOfFirst_four (by omega) (by omega)
  rw [step_complete rest hsize hfollows (by simp [hmore₁, hmore₂])]
  exact congrArg (Step.character · 4) hscalar

end Character

theorem step_encode (c : Char) (rest : Bytes) :
    ∃ first more, String.utf8EncodeChar c = first :: more ∧
      step first (more ++ rest) = .character c (more.length + 1) := by
  have hvalid : c.toNat < 0xD800 ∨ 0xDFFF < c.toNat ∧ c.toNat < 0x110000 := c.valid
  have hchar : Char.ofNat c.toNat = c := Char.ofNat_toNat c
  change ∃ first more, (if c.toNat ≤ 0x7F then _ else if c.toNat ≤ 0x7FF then _ else
    if c.toNat ≤ 0xFFFF then _ else _) = first :: more ∧ _
  split_ifs with h₁ h₂ h₃
  · exact ⟨_, _, rfl, step_one hchar rest h₁⟩
  · exact ⟨_, _, rfl, step_two hchar rest (by omega) h₂⟩
  · exact ⟨_, _, rfl, step_three hchar rest (by omega) h₃ (by omega)⟩
  · exact ⟨_, _, rfl, step_four hchar rest (by omega) (by omega)⟩

theorem decodeFrom_skip (index : Nat) (skipped rest : Bytes) :
    decodeFrom index skipped.length (skipped ++ rest) =
      decodeFrom (index + skipped.length) 0 rest := by
  induction skipped generalizing index with
  | nil => rfl
  | cons b skipped ih =>
    rw [List.length_cons, List.cons_append, decodeFrom, ih, Nat.add_assoc, Nat.add_comm 1]

theorem decodeFrom_encode (index : Nat) (t : Text) : decodeFrom index 0 (encode t) = .ok t := by
  induction t generalizing index with
  | nil => rfl
  | cons c t ih =>
    obtain ⟨first, more, hbytes, hstep⟩ := step_encode c (encode t)
    have hencode : encode (c :: t) = first :: (more ++ encode t) := by
      rw [encode, List.flatMap_cons, hbytes]
      rfl
    rw [hencode, decodeFrom, hstep]
    simp only [Nat.add_sub_cancel, decodeFrom_skip, ih]
    rfl

theorem decode_encode (t : Text) : decode (encode t) = .ok t := decodeFrom_encode 0 t

end SnippetExpansion.Utf8
