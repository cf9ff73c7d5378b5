import SnippetExpansion.Proofs.Template.Contribution

/-! # Flat templates
A flat template is literal text and tokens, with no bracket inside either. Each pass of an expansion
settles the tokens that it resolves and leaves the other ones open. -/
namespace SnippetExpansion

open Text (BracketFree)
open Placeholder

theorem Text.splitAtFirst_snd_subset (c : Char) (t : Text) :
    (splitAtFirst c t).2.getD [] ⊆ t := by
  induction t with
  | nil => exact List.Subset.refl _
  | cons d t ih =>
    rw [splitAtFirst]
    split
    · exact List.subset_cons_self d t
    · exact List.subset_cons_of_subset d ih

theorem Placeholder.argument_absent {a b : Bracket} {inside : Text} (h : b.Absent inside) :
    b.Absent (ofInside a inside).argumentOrEmpty :=
  fun c hc => h c (Text.splitAtFirst_snd_subset ':' inside hc)

theorem Placeholder.argument_bracketFree {b : Bracket} {inside : Text} (h : BracketFree inside) :
    BracketFree (ofInside b inside).argumentOrEmpty :=
  fun b => argument_absent (h b)

def Snapshot.BracketFree (s : Snapshot) : Prop :=
  ∀ name value, s.vars.find? name = some value → Text.BracketFree value

def AnswersBracketFree (prompts : List (Option Text)) : Prop :=
  ∀ t, some t ∈ prompts → BracketFree t

theorem AnswersBracketFree.suffix {prompts prompts' : List (Option Text)}
    (h : AnswersBracketFree prompts) (hsuffix : prompts' <:+ prompts) :
    AnswersBracketFree prompts' :=
  fun t ht => h t (hsuffix.subset ht)

def Placeholder.source? (ai : AiConfig) (p : Placeholder) : Option Contribution :=
  (Command.lookup? p.key).bind (Command.source? ai p.argumentOrEmpty)

theorem Placeholder.isLiteral_eq (ai : AiConfig) (p : Placeholder) :
    p.isLiteral = (p.source? ai).isSome := by
  rw [isLiteral, source?]
  cases Command.lookup? p.key with
  | none => rfl
  | some command => exact (command.source?_isSome ai p.argumentOrEmpty).symm

theorem Snapshot.resolve_contributes (s : Snapshot) (p : Placeholder) (now : Instant)
    (prompts : List (Option Text)) :
    ∃ c after asked,
      c.Is (p.source? s.ai) (fun t => Text.BracketFree p.argumentOrEmpty → s.BracketFree →
        AnswersBracketFree prompts → Text.BracketFree t ∨ t = p.text) ∧
      c.AskedIn asked ∧ Foreseen now (fun _ => s.resolve p) (·.fill c) prompts after asked := by
  unfold Snapshot.resolve Placeholder.source?
  cases Command.lookup? p.key with
  | some command =>
    obtain ⟨c, asked, hc, hasked, hrun⟩ :=
      s.runCommand_contributes command p.argumentOrEmpty now prompts
    exact ⟨c, prompts, asked, hc.imp fun t ht hargument _ _ => .inl (ht hargument), hasked, hrun⟩
  | none =>
    cases hvalue : s.vars.find? p.key with
    | some value =>
      exact ⟨.text value, prompts, [], ⟨value, rfl, fun _ hs _ => .inl (hs _ value hvalue)⟩, trivial,
        .pure now _ prompts⟩
    | none =>
      cases p.argument with
      | none =>
        exact ⟨.text p.text, prompts, [], ⟨_, rfl, fun _ _ _ => .inr rfl⟩, trivial, .pure now _ prompts⟩
      | some label =>
        refine ⟨.text (prompts.head?.join.getD p.text), prompts.tail, [.prompt label],
          ⟨_, rfl, fun _ _ hprompts => ?_⟩, trivial, List.tail_suffix prompts, fun sources noted => rfl⟩
        cases prompts with
        | nil => exact .inr rfl
        | cons reply prompts =>
          cases reply with
          | none => exact .inr rfl
          | some t => exact .inl (hprompts t List.mem_cons_self)

theorem Snapshot.resolve_foreseen {s : Snapshot} (hs : s.BracketFree) (b : Bracket) {inside : Text}
    (hinside : Text.BracketFree inside) (now : Instant) {prompts : List (Option Text)}
    (hprompts : AnswersBracketFree prompts) :
    ∃ c after asked,
      c.Is ((ofInside b inside).source? s.ai) (fun t => Text.BracketFree t ∨ t = written b inside) ∧
      Foreseen now (fun _ => s.resolve (ofInside b inside)) (·.fill c) prompts after asked := by
  obtain ⟨c, after, asked, hc, -, hrun⟩ := s.resolve_contributes (ofInside b inside) now prompts
  exact ⟨c, after, asked, hc.imp fun t ht => ht (argument_bracketFree hinside) hs hprompts, hrun⟩

theorem Placeholder.all_of_absent {b : Bracket} {t : Text} (h : b.Absent t) : all b t = [] := by
  refine List.filterMap_eq_nil_iff.2 fun piece hpiece => ?_
  cases piece with
  | plain t => rfl
  | found f p =>
    obtain ⟨before, c, rest, more, rfl, hfind, -⟩ := Text.find_of_mem_cut hpiece
    obtain ⟨inside, rest', hsplit, -⟩ := finder_eq_some.1 hfind
    rw [written_append] at hsplit
    obtain ⟨rfl, -⟩ := List.cons.inj hsplit
    exact absurd (h b.opener (by simp)) b.not_isInner_opener

theorem Placeholder.not_rescans {ai : AiConfig} {b : Bracket} {inside : Text} {c : Contribution}
    (hc : c.Is ((ofInside b inside).source? ai) (fun t => BracketFree t ∨ t = written b inside))
    (sources : Sources) : ¬(ofInside b inside).rescans b (sources.fill c) := by
  rw [rescans, isLiteral_eq ai]
  cases hsource : (ofInside b inside).source? ai with
  | some source => simp
  | none =>
    rw [hsource] at hc
    obtain ⟨t, rfl, ht | rfl⟩ := hc
    · simp [Sources.fill, occursIn, all_of_absent (ht b)]
    · simp [Sources.fill, ofInside_text]

/-- What has become of a part of a template. -/
inductive Chunk where
  | settled (c : Contribution)
  | token (b : Bracket) (inside : Text)

namespace Chunk

def text (sources : Sources) : Chunk → Text
  | settled c => sources.fill c
  | token b inside => written b inside

def piece (b : Bracket) (sources : Sources) : Chunk → Piece Placeholder
  | settled c => .plain (sources.fill c)
  | token b' inside =>
    if b' = b ∧ hasKey inside then .found (written b' inside) (ofInside b' inside)
    else .plain (written b' inside)

theorem text_piece (b : Bracket) (sources : Sources) (chunk : Chunk) :
    (chunk.piece b sources).text = chunk.text sources := by
  cases chunk with
  | settled c => rfl
  | token b' inside =>
    rw [piece]
    split <;> rfl

/-- What one pass makes of a chunk: a token that it resolves is settled, all else stays. -/
inductive Pass (resolves : Bracket → Text → Bool) (gives : Bracket → Text → Contribution → Prop) :
    Chunk → Chunk → Prop where
  | settled (c : Contribution) : Pass resolves gives (settled c) (settled c)
  | kept (b : Bracket) (inside : Text) : resolves b inside = false →
      Pass resolves gives (token b inside) (token b inside)
  | done (b : Bracket) (inside : Text) (c : Contribution) : resolves b inside → gives b inside c →
      Pass resolves gives (token b inside) (settled c)

/-- Neither bracket is inside an open token. -/
def Flat : Chunk → Prop
  | settled _ => True
  | token _ inside => BracketFree inside

end Chunk

def resolvedBy (b b' : Bracket) (inside : Text) : Bool :=
  decide (b' = b) && hasKey inside && (ofInside b inside).resolvedIn b

def resolvedTo (s : Snapshot) (b : Bracket) (inside : Text) (c : Contribution) : Prop :=
  c.Is ((ofInside b inside).source? s.ai) fun t => BracketFree t ∨ t = written b inside

def Sources.values (sources : Sources) (known : List (Text × Contribution)) : List (Text × Text) :=
  known.map fun e => (e.1, sources.fill e.2)

theorem lookup_map_snd {α β γ : Type} [BEq α] (f : β → γ) (key : α) (entries : List (α × β)) :
    (entries.map fun e => (e.1, f e.2)).lookup key = (entries.lookup key).map f := by
  induction entries with
  | nil => rfl
  | cons e entries ih =>
    rw [List.map_cons, List.lookup_cons, List.lookup_cons]
    split
    · rfl
    · exact ih

theorem written_injective {b : Bracket} {inside inside' : Text}
    (h : written b inside = written b inside') : inside = inside' :=
  List.append_cancel_right (List.cons.inj h).2

theorem lookup_noted {α : Type} {b : Bracket} {inside inside' : Text} {value value' : α}
    {known : List (Text × α)}
    (h : ((written b inside, value) :: known).lookup (written b inside') = some value') :
    (inside' = inside ∧ value' = value) ∨ known.lookup (written b inside') = some value' := by
  rw [List.lookup_cons] at h
  split at h
  · next hsame =>
    exact .inl ⟨written_injective (beq_iff_eq.1 hsame), (Option.some.inj h).symm⟩
  · exact .inr h

/-- What a placeholder comes to: its value, passed over again where that is due. -/
def Placeholder.resolution (s : Snapshot) (b : Bracket) (again : Text → Expansion Text)
    (p : Placeholder) : Expansion Text := do
  let first ← s.resolve p
  if p.rescans b first then again first else pure first

section Steps

variable {s : Snapshot} {b : Bracket} {again : Text → Expansion Text} {known : List (Text × Text)}
  {pieces : List (Piece Placeholder)}

theorem resolvePieces_passed {p : Placeholder} (h : p.resolvedIn b = false) (t : Text) :
    resolvePieces s b again known (.found t p :: pieces) =
      (do let more ← resolvePieces s b again known pieces; pure (t ++ more)) := by
  rw [resolvePieces, h, Bool.not_false, if_pos rfl]

theorem resolvePieces_noted {p : Placeholder} {t value : Text} (h : p.resolvedIn b)
    (hknown : known.lookup t = some value) :
    resolvePieces s b again known (.found t p :: pieces) =
      (do let more ← resolvePieces s b again known pieces; pure (value ++ more)) := by
  rw [resolvePieces, h, Bool.not_true, if_neg Bool.false_ne_true, hknown]

theorem resolvePieces_unnoted {p : Placeholder} {t : Text} (h : p.resolvedIn b)
    (hknown : known.lookup t = none) :
    resolvePieces s b again known (.found t p :: pieces) = (do
      let value ← p.resolution s b again
      let more ← resolvePieces s b again ((t, value) :: known) pieces
      pure (value ++ more)) := by
  rw [resolvePieces, h, Bool.not_true, if_neg Bool.false_ne_true, hknown, resolution, bind_assoc]
  refine bind_congr fun first => ?_
  split
  · rfl
  · rfl

end Steps

section ChunkSteps

variable (s : Snapshot) (again : Text → Expansion Text) (known : List (Text × Text))
  (rest : List (Piece Placeholder))

theorem resolvePieces_kept {b b' : Bracket} {inside : Text} (h : resolvedBy b b' inside = false)
    (sources : Sources) :
    resolvePieces s b again known ((Chunk.token b' inside).piece b sources :: rest) =
      (do let more ← resolvePieces s b again known rest; pure (written b' inside ++ more)) := by
  rw [Chunk.piece]
  split
  · next hfound =>
    obtain ⟨rfl, hkey⟩ := hfound
    have hunresolved : (ofInside b' inside).resolvedIn b' = false := by
      simpa [resolvedBy, hkey] using h
    exact resolvePieces_passed hunresolved _
  · rfl

theorem resolvePieces_known {b b' : Bracket} {inside value : Text}
    (h : resolvedBy b b' inside = true) (hknown : known.lookup (written b' inside) = some value)
    (sources : Sources) :
    resolvePieces s b again known ((Chunk.token b' inside).piece b sources :: rest) =
      (do let more ← resolvePieces s b again known rest; pure (value ++ more)) := by
  simp only [resolvedBy, Bool.and_eq_true, decide_eq_true_eq] at h
  obtain ⟨⟨rfl, hkey⟩, hresolved⟩ := h
  rw [Chunk.piece, if_pos ⟨rfl, hkey⟩]
  exact resolvePieces_noted hresolved hknown

theorem resolvePieces_new {b b' : Bracket} {inside : Text} (h : resolvedBy b b' inside = true)
    (hknown : known.lookup (written b' inside) = none) (sources : Sources) :
    resolvePieces s b again known ((Chunk.token b' inside).piece b sources :: rest) =
      (do
        let value ← (ofInside b' inside).resolution s b again
        let more ← resolvePieces s b again ((written b' inside, value) :: known) rest
        pure (value ++ more)) := by
  simp only [resolvedBy, Bool.and_eq_true, decide_eq_true_eq] at h
  obtain ⟨⟨rfl, hkey⟩, hresolved⟩ := h
  rw [Chunk.piece, if_pos ⟨rfl, hkey⟩]
  exact resolvePieces_unnoted hresolved hknown

end ChunkSteps

theorem resolvePieces_foreseen {s : Snapshot} (hs : s.BracketFree) (b : Bracket)
    (again : Text → Expansion Text) (now : Instant) {chunks : List Chunk}
    (hchunks : ∀ chunk ∈ chunks, chunk.Flat) {known : List (Text × Contribution)}
    (hknown : ∀ inside c, known.lookup (written b inside) = some c → resolvedTo s b inside c)
    {prompts : List (Option Text)} (hprompts : AnswersBracketFree prompts) :
    ∃ chunks' after asked,
      List.Forall₂ (Chunk.Pass (resolvedBy b) (resolvedTo s)) chunks chunks' ∧
      Foreseen now
        (fun sources => resolvePieces s b again (sources.values known)
          (chunks.map (Chunk.piece b sources)))
        (fun sources => chunks'.flatMap (Chunk.text sources)) prompts after asked := by
  induction chunks generalizing known prompts with
  | nil => exact ⟨[], prompts, [], .nil, .pure now _ prompts⟩
  | cons chunk chunks ih =>
    obtain ⟨hchunk, hrest⟩ := List.forall_mem_cons.1 hchunks
    cases chunk with
    | settled c =>
      obtain ⟨chunks', after, asked, hpass, hrun⟩ := ih hrest hknown hprompts
      exact ⟨.settled c :: chunks', after, asked, .cons (.settled c) hpass,
        hrun.map fun sources more => sources.fill c ++ more⟩
    | token b' inside =>
      by_cases hresolves : resolvedBy b b' inside
      · obtain rfl : b' = b := by
          simp only [resolvedBy, Bool.and_eq_true, decide_eq_true_eq] at hresolves
          exact hresolves.1.1
        cases hlookup : known.lookup (written b' inside) with
        | some c =>
          obtain ⟨chunks', after, asked, hpass, hrun⟩ := ih hrest hknown hprompts
          refine ⟨.settled c :: chunks', after, asked,
            .cons (.done b' inside c hresolves (hknown inside c hlookup)) hpass, ?_⟩
          have hsteps := fun sources : Sources => resolvePieces_known s again
            (sources.values known) (chunks.map (Chunk.piece b' sources)) hresolves
            (by rw [Sources.values, lookup_map_snd, hlookup]; rfl) sources
          simp only [List.map_cons, hsteps]
          exact hrun.map fun sources more => sources.fill c ++ more
        | none =>
          obtain ⟨c, between, asked, hc, hresolve⟩ :=
            s.resolve_foreseen hs b' hchunk now hprompts
          have hknown' : ∀ inside' c',
              ((written b' inside, c) :: known).lookup (written b' inside') = some c' →
                resolvedTo s b' inside' c' := by
            intro inside' c' hfound
            rcases lookup_noted hfound with ⟨rfl, rfl⟩ | hfound
            · exact hc
            · exact hknown inside' c' hfound
          obtain ⟨chunks', after, asked', hpass, hrun⟩ :=
            ih hrest hknown' (hprompts.suffix hresolve.left)
          refine ⟨.settled c :: chunks', after, asked ++ asked',
            .cons (.done b' inside c hresolves hc) hpass, ?_⟩
          have hsteps := fun sources : Sources => resolvePieces_new s again
            (sources.values known) (chunks.map (Chunk.piece b' sources)) hresolves
            (by rw [Sources.values, lookup_map_snd, hlookup]; rfl) sources
          simp only [List.map_cons, hsteps, resolution, bind_assoc]
          refine hresolve.bind ?_
          simp only [not_rescans hc]
          exact hrun.map fun sources more => sources.fill c ++ more
      · obtain ⟨chunks', after, asked, hpass, hrun⟩ := ih hrest hknown hprompts
        have hkept := eq_false_of_ne_true hresolves
        refine ⟨.token b' inside :: chunks', after, asked, .cons (.kept b' inside hkept) hpass, ?_⟩
        simp only [List.map_cons, resolvePieces_kept s again _ _ hkept]
        exact hrun.map fun sources more => written b' inside ++ more

def bareResolved (s : Snapshot) (b : Bracket) (inside : Text) : Bool :=
  decide (b = .curly) && hasKey inside && (ofInside b inside).argument.isNone &&
    (s.vars.contains (ofInside b inside).key || (Command.lookup? (ofInside b inside).key).isSome)

def bareTo (s : Snapshot) (b : Bracket) (inside : Text) (c : Contribution) : Prop :=
  match s.vars.find? (ofInside b inside).key with
  | some value => c = .text value
  | none => c.Is ((ofInside b inside).source? s.ai) BracketFree

theorem bareValue_foreseen {s : Snapshot} {inside : Text}
    (h : bareResolved s .curly inside) (now : Instant) (prompts : List (Option Text)) :
    ∃ c asked, bareTo s .curly inside c ∧
      Foreseen now (fun _ => bareValue s (ofInside .curly inside)) (·.fill c) prompts prompts
        asked := by
  simp only [bareResolved, decide_true, Bool.true_and, Bool.and_eq_true, Bool.or_eq_true] at h
  obtain ⟨⟨-, hbare⟩, hvalue⟩ := h
  unfold bareValue bareTo Placeholder.source?
  rw [Dictionary.contains] at hvalue
  cases hfind : s.vars.find? (ofInside .curly inside).key with
  | some value => exact ⟨.text value, [], rfl, .pure now _ prompts⟩
  | none =>
    rw [hfind] at hvalue
    obtain ⟨command, hcommand⟩ := Option.isSome_iff_exists.1 (hvalue.resolve_left nofun)
    have hargument : (ofInside .curly inside).argumentOrEmpty = [] := by
      rw [argumentOrEmpty, Option.isNone_iff_eq_none.1 hbare]
      rfl
    rw [hcommand, hargument]
    exact s.runCommand_foreseen command .nil now prompts

theorem substituteBare_kept {s : Snapshot} {b : Bracket} {inside : Text}
    (h : bareResolved s b inside = false) (rest : List (Piece Placeholder)) (sources : Sources) :
    substituteBare s ((Chunk.token b inside).piece .curly sources :: rest) =
      (do let more ← substituteBare s rest; pure (written b inside ++ more)) := by
  rw [Chunk.piece]
  split
  · next hfound =>
    obtain ⟨rfl, hkey⟩ := hfound
    simp only [substituteBare]
    split
    · rw [pure_bind]
    · next hargument =>
      have hbare : (ofInside .curly inside).argument = none := by simpa using hargument
      have hnone : s.vars.find? (ofInside .curly inside).key = none ∧
          Command.lookup? (ofInside .curly inside).key = none := by
        simpa [bareResolved, hkey, hbare, Dictionary.contains] using h
      rw [bareValue, hnone.1, hnone.2, pure_bind]
      rfl
  · rfl

theorem substituteBare_resolved {s : Snapshot} {inside : Text}
    (h : bareResolved s .curly inside) (rest : List (Piece Placeholder)) (sources : Sources) :
    substituteBare s ((Chunk.token .curly inside).piece .curly sources :: rest) =
      (do
        let value ← bareValue s (ofInside .curly inside)
        let more ← substituteBare s rest
        pure (value ++ more)) := by
  simp only [bareResolved, decide_true, Bool.true_and, Bool.and_eq_true] at h
  obtain ⟨⟨hkey, hbare⟩, -⟩ := h
  rw [Chunk.piece, if_pos ⟨rfl, hkey⟩, substituteBare, Option.isNone_iff_eq_none.1 hbare]
  rfl

theorem substituteBare_foreseen (s : Snapshot) (now : Instant) (chunks : List Chunk)
    (prompts : List (Option Text)) :
    ∃ chunks' asked, List.Forall₂ (Chunk.Pass (bareResolved s) (bareTo s)) chunks chunks' ∧
      Foreseen now (fun sources => substituteBare s (chunks.map (Chunk.piece .curly sources)))
        (fun sources => chunks'.flatMap (Chunk.text sources)) prompts prompts asked := by
  induction chunks with
  | nil => exact ⟨[], [], .nil, .pure now _ prompts⟩
  | cons chunk chunks ih =>
    obtain ⟨chunks', asked, hpass, hrun⟩ := ih
    cases chunk with
    | settled c =>
      exact ⟨.settled c :: chunks', asked, .cons (.settled c) hpass,
        hrun.map fun sources more => sources.fill c ++ more⟩
    | token b inside =>
      by_cases hresolves : bareResolved s b inside
      · obtain rfl : b = .curly := by
          simp only [bareResolved, Bool.and_eq_true, decide_eq_true_eq] at hresolves
          exact hresolves.1.1.1
        obtain ⟨c, asked', hc, hvalue⟩ := bareValue_foreseen hresolves now prompts
        refine ⟨.settled c :: chunks', asked' ++ asked,
          .cons (.done .curly inside c hresolves hc) hpass, ?_⟩
        simp only [List.map_cons, substituteBare_resolved hresolves]
        exact hvalue.bind (hrun.map fun sources more => sources.fill c ++ more)
      · have hkept := eq_false_of_ne_true hresolves
        refine ⟨.token b inside :: chunks', asked, .cons (.kept b inside hkept) hpass, ?_⟩
        simp only [List.map_cons, substituteBare_kept hkept]
        exact hrun.map fun sources more => written b inside ++ more

end SnippetExpansion
