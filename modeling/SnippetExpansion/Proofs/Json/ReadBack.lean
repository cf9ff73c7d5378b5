import SnippetExpansion.Json.Parser
import SnippetExpansion.Proofs.Text.Cut
import Mathlib.Data.List.Basic

/-! # Written JSON is read back
The machine is fed the written form of a value token by token. Every written value without numbers
brings it from a state that awaits a value to the state after that value. -/
namespace SnippetExpansion.Json

def StringPart.ofChar (c : Char) : StringPart :=
  if c ∈ ['"', '\\', '\n', '\t', '\r', '\x08', '\x0c'] then .char c
  else if c.toNat < 0x20 then .unit c.toNat
  else .char c

theorem hexQuad_control : ∀ n < 32,
    Text.padLeft 4 '0' (Nat.toDigits 16 n) = ['0', '0', (n / 16).digitChar, (n % 16).digitChar] ∧
      hexQuad? '0' '0' (n / 16).digitChar (n % 16).digitChar = some n := by
  decide

theorem stringParts_short_escape {e c : Char} (rest : Text) (hu : e ≠ 'u')
    (hc : unescape? e = some c) :
    stringParts? ('\\' :: e :: rest) =
      (stringParts? rest).map fun r => (StringPart.char c :: r.1, r.2 + 2) := by
  rw [stringParts?.eq_3 e rest (by rintro _ _ _ _ _ rfl; exact absurd rfl hu), hc]
  cases stringParts? rest <;> rfl

theorem stringParts_control {n : Nat} (rest : Text) (hn : n < 32) :
    stringParts? ('\\' :: 'u' :: Text.padLeft 4 '0' (Nat.toDigits 16 n) ++ rest) =
      (stringParts? rest).map fun r => (StringPart.unit n :: r.1, r.2 + 6) := by
  obtain ⟨hdigits, hquad⟩ := hexQuad_control n hn
  rw [hdigits]
  simp only [List.cons_append, List.nil_append]
  rw [stringParts?.eq_2, hquad]
  cases stringParts? rest <;> rfl

theorem stringParts_plain {c : Char} (rest : Text) (hq : c ≠ '"') (hb : c ≠ '\\')
    (hc : ¬c.toNat < 0x20) :
    stringParts? (c :: rest) =
      (stringParts? rest).map fun r => (StringPart.char c :: r.1, r.2 + 1) := by
  rw [stringParts?.eq_4 c rest hq (fun _ _ _ _ _ h => absurd h hb) (fun _ _ h => absurd h hb),
    if_neg hc]
  cases stringParts? rest <;> rfl

theorem stringParts_escapeChar (c : Char) (rest : Text) :
    stringParts? (escapeChar c ++ rest) =
      (stringParts? rest).map fun r => (StringPart.ofChar c :: r.1, r.2 + (escapeChar c).length) := by
  by_cases hs : c ∈ ['"', '\\', '\n', '\t', '\r', '\x08', '\x0c']
  · simp only [List.mem_cons, List.not_mem_nil, or_false] at hs
    rcases hs with rfl | rfl | rfl | rfl | rfl | rfl | rfl
    all_goals exact stringParts_short_escape rest (by decide) (by decide)
  · have hpart : StringPart.ofChar c = if c.toNat < 0x20 then .unit c.toNat else .char c := by
      rw [StringPart.ofChar, if_neg hs]
    simp only [List.mem_cons, List.not_mem_nil, or_false, not_or] at hs
    obtain ⟨hq, hb, hn, ht, hr, h8, hc⟩ := hs
    by_cases hcontrol : c.toNat < 0x20
    · have hesc : escapeChar c = '\\' :: 'u' :: Text.padLeft 4 '0' (Nat.toDigits 16 c.toNat) := by
        simp [escapeChar, *]
      have hlen : (escapeChar c).length = 6 := by
        rw [hesc, (hexQuad_control _ hcontrol).1]
        rfl
      rw [hlen, hpart, if_pos hcontrol, hesc]
      exact stringParts_control rest hcontrol
    · have hesc : escapeChar c = [c] := by simp [escapeChar, *]
      rw [hpart, if_neg hcontrol, hesc]
      exact stringParts_plain rest hq hb hcontrol

theorem stringParts_escaped (t rest : Text) :
    stringParts? (t.flatMap escapeChar ++ '"' :: rest) =
      some (t.map StringPart.ofChar, (t.flatMap escapeChar).length + 1) := by
  induction t with
  | nil => rfl
  | cons c t ih =>
    rw [List.flatMap_cons, List.append_assoc, stringParts_escapeChar, ih]
    simp only [Option.map_some, List.map_cons, List.length_append, Option.some.injEq,
      Prod.mk.injEq, true_and]
    omega

theorem joinParts_unit {n : Nat} (parts : List StringPart) (hn : n < 0x20) :
    joinParts? (.unit n :: parts) = (Char.ofNat n :: ·) <$> joinParts? parts := by
  have hhigh : isHighSurrogate n = false := by
    simp only [isHighSurrogate, Bool.and_eq_false_iff, decide_eq_false_iff_not]
    omega
  have hlow : isLowSurrogate n = false := by
    simp only [isLowSurrogate, Bool.and_eq_false_iff, decide_eq_false_iff_not]
    omega
  cases parts with
  | nil => simp [joinParts?, hhigh, hlow]
  | cons p parts =>
    cases p with
    | char d => simp [joinParts?, hhigh, hlow]
    | unit m => simp [joinParts?, hhigh, hlow]

theorem joinParts_ofChar (t : Text) : joinParts? (t.map StringPart.ofChar) = some t := by
  induction t with
  | nil => rfl
  | cons c t ih =>
    rw [List.map_cons, StringPart.ofChar]
    split
    · simp [joinParts?, ih]
    · split
      · next hc =>
        rw [joinParts_unit _ hc, ih]
        simp
      · simp [joinParts?, ih]

theorem token_writeString (t rest : Text) :
    token (writeString t ++ rest) =
      some (.scalar (.string t), (t.flatMap escapeChar).length + 1) := by
  have h := stringParts_escaped t rest
  simp [writeString, token, h, joinParts_ofChar]

def feed (s : State) (t : Text) : State := (tokens t).foldl step s

theorem feed_nil (s : State) : feed s [] = s := rfl

theorem feed_found {c : Char} {rest : Text} {found : Token} {n : Nat} (s : State)
    (h : token (c :: rest) = some (found, n)) :
    feed s (c :: rest) = feed (step s found) (rest.drop n) := by
  simp [feed, tokens, Text.cut_of_some h, Token.ofPiece?]

theorem ofPiece_consChar_space {c : Char} (pieces : List (Piece Token)) (h : isSpace c = true) :
    (Piece.consChar c pieces).filterMap Token.ofPiece? = pieces.filterMap Token.ofPiece? := by
  cases pieces with
  | nil => simp [Piece.consChar, Token.ofPiece?, h]
  | cons p pieces =>
    cases p with
    | plain t => simp [Piece.consChar, Token.ofPiece?, h, List.filterMap_cons]
    | found t v => simp [Piece.consChar, Token.ofPiece?, h]

theorem feed_space {c : Char} (s : State) (rest : Text) (h : isSpace c = true)
    (hnone : token (c :: rest) = none) : feed s (c :: rest) = feed s rest := by
  simp only [feed, tokens]
  rw [Text.cut_of_none hnone, ofPiece_consChar_space _ h]

theorem feed_newline (s : State) (n : Nat) (rest : Text) :
    feed s (newline n ++ rest) = feed s rest := by
  rw [newline, List.cons_append, feed_space s _ (by decide) (by simp [token])]
  induction 2 * n with
  | zero => rfl
  | succ n ih =>
    rw [List.replicate_succ, List.cons_append, feed_space s _ (by decide) (by simp [token])]
    exact ih

theorem feed_string (s : State) (t rest : Text) :
    feed s (writeString t ++ rest) = feed (step s (.scalar (.string t))) rest := by
  have h := token_writeString t rest
  rw [writeString, List.cons_append, List.cons_append] at h ⊢
  have hlen : (t.flatMap escapeChar).length + 1 = (t.flatMap escapeChar ++ ['"']).length := by
    rw [List.length_append, List.length_singleton]
  rw [feed_found s h, hlen, List.drop_left]

mutual

/-- Whether there is no number in the value. -/
def textual : Json → Bool
  | .number _ => false
  | .array items => allTextual items
  | .object fields => fieldsTextual fields
  | _ => true

def allTextual : List Json → Bool
  | [] => true
  | item :: items => textual item && allTextual items

def fieldsTextual : List (Text × Json) → Bool
  | [] => true
  | (_, value) :: fields => textual value && fieldsTextual fields

end

def Awaits (s : State) (stack : List Frame) : Prop := s = .value stack ∨ s = .firstItem stack

theorem Awaits.step_scalar {s : State} {stack : List Frame} (h : Awaits s stack) (r : Reading) :
    step s (.scalar r) = .after stack r := by
  rcases h with rfl | rfl <;> rfl

theorem Awaits.step_openArray {s : State} {stack : List Frame} (h : Awaits s stack) :
    step s .openArray = .firstItem (.items [] :: stack) := by
  rcases h with rfl | rfl <;> rfl

theorem Awaits.step_openObject {s : State} {stack : List Frame} (h : Awaits s stack) :
    step s .openObject = .field stack [] true := by
  rcases h with rfl | rfl <;> rfl

theorem feed_field (stack : List Frame) (before : List (Option Text × Reading)) (first : Bool)
    (name rest : Text) :
    feed (.field stack before first) (writeString name ++ ':' :: ' ' :: rest) =
      feed (.value (.member before (some name) :: stack)) rest := by
  rw [feed_string, feed_found _ (by simp [token] : token (':' :: ' ' :: rest) = some (.colon, 0)),
    List.drop_zero, feed_space _ _ (by decide) (by simp [token])]
  rfl

mutual

/-- The written form of a value is one value to the machine. -/
theorem feed_write {s : State} {stack : List Frame} (h : Awaits s stack) (n : Nat) (rest : Text) :
    (j : Json) → textual j = true →
      feed s (write n j ++ rest) = feed (.after stack (Reading.ofJson j)) rest
  | .null, _ => by
    change feed s ('n' :: 'u' :: 'l' :: 'l' :: rest) = _
    rw [feed_found s (n := 3) rfl, h.step_scalar]
    rfl
  | .bool true, _ => by
    change feed s ('t' :: 'r' :: 'u' :: 'e' :: rest) = _
    rw [feed_found s (n := 3) rfl, h.step_scalar]
    rfl
  | .bool false, _ => by
    change feed s ('f' :: 'a' :: 'l' :: 's' :: 'e' :: rest) = _
    rw [feed_found s (n := 4) rfl, h.step_scalar]
    rfl
  | .string t, _ => by
    rw [write, feed_string, h.step_scalar]
    rfl
  | .array [], _ => by
    rw [write, List.cons_append, feed_found s (n := 0) (by simp [token]; rfl), h.step_openArray]
    rw [List.drop_zero, List.cons_append, feed_found _ (n := 0) (by simp [token]; rfl)]
    rfl
  | .array (item :: items), hj => by
    simp only [textual, allTextual, Bool.and_eq_true] at hj
    simp only [write, List.cons_append, List.append_assoc]
    rw [feed_found s (n := 0) (by simp [token]; rfl), h.step_openArray, List.drop_zero,
      feed_newline, feed_write (.inr rfl) _ _ item hj.1]
    exact feed_writeItems _ _ stack [] _ rest items hj.2
  | .object [], _ => by
    rw [write, List.cons_append, feed_found s (n := 0) (by simp [token]; rfl), h.step_openObject]
    rw [List.drop_zero, List.cons_append, feed_found _ (n := 0) (by simp [token]; rfl)]
    rfl
  | .object ((name, value) :: fields), hj => by
    simp only [textual, fieldsTextual, Bool.and_eq_true] at hj
    simp only [write, List.cons_append, List.append_assoc]
    rw [feed_found s (n := 0) (by simp [token]; rfl), h.step_openObject, List.drop_zero,
      feed_newline, feed_field, feed_write (.inl rfl) _ _ value hj.1]
    exact feed_writeFields _ _ stack [] _ _ rest fields hj.2

theorem feed_writeItems (n m : Nat) (stack : List Frame) (before : List Reading) (v : Reading)
    (rest : Text) : (items : List Json) → allTextual items = true →
      feed (.after (.items before :: stack) v) (writeItems n items ++ (newline m ++ ']' :: rest)) =
        feed (.after stack (.array (before.reverse ++ v :: Reading.ofItems items) true)) rest
  | [], _ => by
    rw [writeItems, List.nil_append, feed_newline, feed_found _ (n := 0) (by simp [token]; rfl)]
    simp [step, Reading.ofItems]
  | item :: items, h => by
    simp only [allTextual, Bool.and_eq_true] at h
    simp only [writeItems, List.cons_append, List.append_assoc]
    rw [feed_found _ (n := 0) (by simp [token]; rfl), List.drop_zero, feed_newline]
    rw [step, feed_write (.inl rfl) _ _ item h.1, feed_writeItems _ _ _ _ _ _ items h.2]
    simp [Reading.ofItems]

theorem feed_writeFields (n m : Nat) (stack : List Frame) (before : List (Option Text × Reading))
    (name : Option Text) (v : Reading) (rest : Text) :
    (fields : List (Text × Json)) → fieldsTextual fields = true →
      feed (.after (.member before name :: stack) v)
          (writeFields n fields ++ (newline m ++ '\x7d' :: rest)) =
        feed (.after stack
          (.object (before.reverse ++ (name, v) :: Reading.ofFields fields) true)) rest
  | [], _ => by
    rw [writeFields, List.nil_append, feed_newline, feed_found _ (n := 0) (by simp [token]; rfl)]
    simp [step, Reading.ofFields]
  | (next, value) :: fields, h => by
    simp only [fieldsTextual, Bool.and_eq_true] at h
    simp only [writeFields, List.cons_append, List.append_assoc]
    rw [feed_found _ (n := 0) (by simp [token]; rfl), List.drop_zero, feed_newline]
    rw [step, feed_field, feed_write (.inl rfl) _ _ value h.1,
      feed_writeFields _ _ _ _ _ _ _ fields h.2]
    simp [Reading.ofFields]

end

theorem read_pretty {j : Json} (h : textual j = true) :
    read j.pretty = ⟨Reading.ofJson j, false⟩ := by
  have hfeed : feed (.value []) j.pretty = .after [] (Reading.ofJson j) := by
    simpa [pretty, feed_nil] using feed_write (.inl rfl) 0 [] j h
  rw [read, ← feed, hfeed]
  rfl

end SnippetExpansion.Json
