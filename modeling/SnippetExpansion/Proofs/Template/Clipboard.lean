import SnippetExpansion.Proofs.Template.OutsideText
import SnippetExpansion.Proofs.Template.Unasked

/-! # The clipboard as data
The texts of the sources are taken as data by every flat template exactly if they are quiet. A text that
is not quiet is betrayed by the template that puts it side by side with another one: a variable of the
name that then stands in braces takes braces away, or something more is asked for. -/
namespace SnippetExpansion

open Text (BracketFree)
open Placeholder

/-- With either of these sources a template asks for the same, uses up the same answers and gives the
same contributions part by part; what is contributed by a source is its text as it is. -/
def SameButForSources (s : Snapshot) (maxDepth : Nat) (now : Instant)
    (prompts : List (Option Text)) (parts : List Part) (sources sources' : Sources) : Prop :=
  ∃ contributions after asked, List.Forall₂ (Part.Gives s) parts contributions ∧
    ∀ either ∈ [sources, sources'], ∀ noted,
      (either.world now prompts noted).run (expand s maxDepth (parts.flatMap Part.text)) =
        (contributions.flatMap either.fill, either.world now after (noted ++ asked))

def Sources.blank : Sources := ⟨.ok [], fun _ _ _ => .ok []⟩

theorem Sources.blank_quiet (ai : AiConfig) : Quiet .curly (Sources.blank.texts ai) := by
  have hempty : ∀ t ∈ Sources.blank.texts ai, t = [] := by
    rintro t (h | ⟨_, _, _, -, -, h⟩) <;> exact (Except.ok.inj h).symm
  intro s hs t ht
  rw [hempty s hs, hempty t ht]
  rfl

/-- The token in square brackets with this inside brings in what a source gives. -/
structure Contribution.BroughtBy (c : Contribution) (ai : AiConfig) (inside : Text) : Prop where
  flat : BracketFree inside
  key : hasKey inside
  source : (ofInside .square inside).source? ai = some c

theorem Sources.exists_token {sources : Sources} {ai : AiConfig} {t : Text}
    (h : t ∈ sources.texts ai) :
    ∃ inside c, c.BroughtBy ai inside ∧ sources.fill c = t ∧ Sources.blank.fill c = [] := by
  rcases h with h | ⟨provider, key, prompt, hactive, hprompt, h⟩
  · refine ⟨"paste".toList, .clipboard, ⟨by decide, rfl, rfl⟩, ?_, rfl⟩
    rw [Sources.fill, h]
  · refine ⟨"ai:".toList ++ prompt, .generated provider key prompt,
      ⟨.append (by decide) hprompt, rfl, ?_⟩, ?_, rfl⟩
    · have hsource : (ofInside .square ("ai:".toList ++ prompt)).source? ai =
          Command.source? ai prompt .ai := rfl
      rw [hsource, Command.source?, hactive]
    · rw [Sources.fill, h]

namespace Contribution.BroughtBy

variable {s : Snapshot} {inside : Text} {c : Contribution}

theorem eq_of_gives (h : c.BroughtBy s.ai inside) {c' : Contribution}
    (hgives : (Part.token .square inside).Gives s c') : c' = c := by
  have hpart : (Part.token .square inside).source? s = some c := by
    simpa [Part.source?, h.key] using h.source
  rw [Part.Gives, hpart] at hgives
  exact hgives

theorem eq_settled (h : c.BroughtBy s.ai inside) {chunk : Chunk}
    (hpass : Chunk.Pass (resolvedBy .square) (resolvedTo s) (.token .square inside) chunk) :
    chunk = .settled c := by
  cases hpass with
  | kept _ _ hkept => simp [resolvedBy, h.key, resolvedIn] at hkept
  | done _ _ c' _ hc =>
    rw [resolvedTo, h.source] at hc
    rw [show c' = c from hc]

end Contribution.BroughtBy

theorem substituteBare_of_arguments (s : Snapshot) {pieces : List (Piece Placeholder)}
    (h : ∀ t p, .found t p ∈ pieces → p.argument.isSome) :
    substituteBare s pieces = pure (pieces.flatMap Piece.text) := by
  induction pieces with
  | nil => rfl
  | cons piece pieces ih =>
    have hrest := ih fun t p hmem => h t p (List.mem_cons_of_mem _ hmem)
    cases piece with
    | plain t => rw [substituteBare, hrest]; rfl
    | found t p =>
      rw [substituteBare, if_pos (h t p List.mem_cons_self), pure_bind, hrest]
      rfl

theorem no_value_of_unchanged {s : Snapshot} (hs : s.BracketFree) {maxDepth : Nat} {t : Text}
    (h : bracesPassed s maxDepth t = .done t) :
    (∀ piece ∈ pieces .curly t, ¬piece.HasValue s true) ∧
      ((∀ f p, .found f p ∈ pieces .curly t → p.argument.isSome) →
        ∀ piece ∈ pieces .curly t, ¬piece.HasValue s false) := by
  obtain ⟨mid, hbare, hcurly⟩ := Dialogue.bind_eq_done h
  have hbareThins := substituteBare_done hs Piece.braced_of_mem_pieces hbare
  rw [resolveText, resolveLevels] at hcurly
  have hnone : ∀ inside value, ([] : List (Text × Text)).lookup (written .curly inside) =
      some value → Unasked s (ofInside .curly inside) value := by
    intro inside value hfound
    cases hfound
  have hcurlyThins := resolvePieces_done hs _ hnone Piece.braced_of_mem_pieces hcurly
  rw [pieces, Text.flatMap_text_cut] at hbareThins hcurlyThins
  constructor
  · intro piece hpiece hvalue
    exact absurd (hbareThins.2 ⟨piece, hpiece, hvalue⟩) (Nat.not_lt.2 hcurlyThins.1)
  · intro harguments piece hpiece hvalue
    rw [substituteBare_of_arguments s harguments, pieces, Text.flatMap_text_cut] at hbare
    obtain rfl := Dialogue.done.inj hbare
    exact absurd (hcurlyThins.2 ⟨piece, hpiece, hvalue⟩) (Nat.lt_irrefl _)

namespace Snapshot

def erasing (name : Text) (ai : AiConfig) : Snapshot := ⟨[], Dictionary.empty.insert name [], ai⟩

variable (name : Text) (ai : AiConfig)

theorem erasing_find? (other : Text) :
    (erasing name ai).vars.find? other = if other = name then some [] else none := by
  change List.lookup other [(name, ([] : Text))] = _
  rw [List.lookup_cons]
  by_cases h : other = name
  · rw [h, beq_self_eq_true, if_pos rfl]
  · rw [beq_false_of_ne h, if_neg h]
    rfl

theorem erasing_contains : (erasing name ai).vars.contains name := by
  rw [Dictionary.contains, erasing_find?, if_pos rfl]
  rfl

theorem erasing_bracketFree : (erasing name ai).BracketFree := by
  intro other value hvalue
  rw [erasing_find?] at hvalue
  split at hvalue
  · obtain rfl := Option.some.inj hvalue
    exact .nil
  · cases hvalue

end Snapshot

theorem exists_bare_or_all_arguments {t : Text} (h : all .curly t ≠ []) :
    ∃ f p, .found f p ∈ pieces .curly t ∧
      (p.argument.isNone ∨ ∀ f p, .found f p ∈ pieces .curly t → p.argument.isSome) := by
  by_cases hbare : ∃ f p, .found f p ∈ pieces .curly t ∧ p.argument.isNone
  · obtain ⟨f, p, hmem, hp⟩ := hbare
    exact ⟨f, p, hmem, .inl hp⟩
  · have harguments : ∀ f p, .found f p ∈ pieces .curly t → p.argument.isSome := by
      intro f p hmem
      rw [← Option.isNone_eq_false_iff]
      exact eq_false_of_ne_true fun hp => hbare ⟨f, p, hmem, hp⟩
    obtain ⟨p, hp⟩ := List.exists_mem_of_ne_nil _ h
    obtain ⟨f, hmem⟩ := mem_all_iff_found.1 hp
    exact ⟨f, p, hmem, .inr harguments⟩

/-- Where a text holds a token, there is a variable that takes it away, or something is asked for. -/
theorem exists_name_of_all_ne_nil {t : Text} (h : all .curly t ≠ []) :
    ∃ name, ∀ ai maxDepth, bracesPassed (.erasing name ai) maxDepth t ≠ .done t := by
  -- A bare token is preferred, as the pass over bare names may change the tokens with arguments.
  obtain ⟨f, p, hmem, hchoice⟩ := exists_bare_or_all_arguments h
  refine ⟨p.key, fun ai maxDepth hdone => ?_⟩
  have hvar := Snapshot.erasing_contains p.key ai
  obtain ⟨hbare, hcurly⟩ := no_value_of_unchanged (Snapshot.erasing_bracketFree p.key ai) hdone
  rcases hchoice with hnone | harguments
  · exact hbare _ hmem ⟨hnone, hvar⟩
  · refine hcurly harguments _ hmem ⟨?_, hvar⟩
    rw [Option.isNone_eq_false_iff]
    exact harguments f p hmem

def Part.sideBySide (inside inside' : Text) : List Part :=
  [.token .square inside, .literal ['x'], .token .square inside']

theorem Part.sideBySide_flat {inside inside' : Text} (h : BracketFree inside)
    (h' : BracketFree inside') : ∀ part ∈ sideBySide inside inside', part.Flat := by
  simp [sideBySide, Flat, h, h']
  decide

/-- Where two texts are brought in side by side and nothing more is made of them, the later passes leave
them as they are, and ask for the same whatever the texts are. -/
theorem unchanged_of_same {s : Snapshot} (hs : s.BracketFree) {sources sources' : Sources}
    {inside inside' : Text} {c c' : Contribution} (hc : c.BroughtBy s.ai inside)
    (hc' : c'.BroughtBy s.ai inside')
    (h : SameButForSources s 10 default [] (Part.sideBySide inside inside') sources sources') :
    ∃ between after asked asked', ∀ either ∈ [sources, sources'],
      (either.world default between asked).run
        (bracesPassed s 10 (either.fill c ++ 'x' :: either.fill c')) =
      (either.fill c ++ 'x' :: either.fill c', either.world default after asked') := by
  have hanswers : AnswersBracketFree [] := nofun
  obtain ⟨contributions, after, asked', hgives, hrun⟩ := h
  obtain ⟨first, between, asked, hpass, hsquare⟩ :=
    squarePass_foreseen hs 10 default (Part.sideBySide_flat hc.flat hc'.flat) hanswers
  obtain rfl : contributions = [c, .text ['x'], c'] := by
    rcases hgives with _ | ⟨h₁, _ | ⟨h₂, _ | ⟨h₃, _ | _⟩⟩⟩
    rw [hc.eq_of_gives h₁, hc'.eq_of_gives h₃, show _ = Contribution.text ['x'] from h₂]
  obtain rfl : first = [.settled c, .settled (.text ['x']), .settled c'] := by
    rcases hpass with _ | ⟨h₁, _ | ⟨h₂, _ | ⟨h₃, _ | _⟩⟩⟩
    rw [hc.eq_settled h₁, hc'.eq_settled h₃]
    cases h₂
    rfl
  refine ⟨between, after, asked, asked', fun either hmem => ?_⟩
  have hexpand := hrun either hmem []
  rw [expand_eq, Surroundings.run_bind, hsquare.run either []] at hexpand
  simpa [Chunk.text, Sources.fill] using hexpand

theorem quiet_of_same {sources : Sources} {ai : AiConfig}
    (h : ∀ s : Snapshot, s.ai = ai → s.BracketFree → ∀ parts, (∀ part ∈ parts, part.Flat) →
      SameButForSources s 10 default [] parts sources .blank) :
    Quiet .curly (sources.texts ai) := by
  intro t ht t' ht'
  by_contra htoken
  obtain ⟨name, hchanged⟩ := exists_name_of_all_ne_nil htoken
  have hs := Snapshot.erasing_bracketFree name ai
  obtain ⟨inside, c, hc, rfl, hblank⟩ := Sources.exists_token ht
  obtain ⟨inside', c', hc', rfl, hblank'⟩ := Sources.exists_token ht'
  obtain ⟨between, after, asked, asked', hlater⟩ :=
    unchanged_of_same hs hc hc'
      (h (.erasing name ai) rfl hs _ (Part.sideBySide_flat hc.flat hc'.flat))
  -- Blank sources ask for nothing after the first pass, so these sources do not either.
  have hasked : asked = asked' := by
    have hblanks := hlater .blank (by simp)
    rw [hblank, hblank'] at hblanks
    exact congrArg (·.2.asked) hblanks
  have hunchanged := hlater sources (by simp)
  have hdone := Surroundings.eq_done_of_run_asked
    ((congrArg (·.2.asked) hunchanged).trans hasked.symm)
  rw [hunchanged] at hdone
  exact hchanged ai 10 hdone

/-- The texts of the sources, the clipboard's among them, are taken as data by every flat template exactly
if no two of them, with something between them, hold a placeholder in braces. -/
theorem clipboard_is_data_iff (sources : Sources) (ai : AiConfig) :
    Quiet .curly (sources.texts ai) ↔
      ∀ sources' : Sources, Quiet .curly (sources'.texts ai) →
      ∀ s : Snapshot, s.ai = ai → s.BracketFree →
      ∀ maxDepth now prompts, AnswersBracketFree prompts →
      ∀ parts : List Part, (∀ part ∈ parts, part.Flat) →
        SameButForSources s maxDepth now prompts parts sources sources' := by
  constructor
  · rintro hquiet sources' hquiet' s rfl hs maxDepth now prompts hprompts parts hparts
    obtain ⟨contributions, after, asked, hgives, hrun⟩ :=
      expand_flat hs maxDepth now hparts hprompts
    refine ⟨contributions, after, asked, hgives, fun either hmem noted => ?_⟩
    rcases List.mem_pair.1 hmem with rfl | rfl
    · exact hrun _ hquiet noted
    · exact hrun _ hquiet' noted
  · intro h
    exact quiet_of_same fun s hai hs parts hparts =>
      h .blank (Sources.blank_quiet ai) s hai hs 10 default [] nofun parts hparts

def Sources.copied (t : Text) : Sources := ⟨.ok t, fun _ _ _ => .error (.other [])⟩

/-- A clipboard may hold braces that are not closed behind it. -/
theorem clipboard_is_data_open_brace :
    SameButForSources .empty 10 default [] [.token .square "paste".toList, .literal ['x'],
      .token .curly "paste".toList] (.copied "f() \x7b".toList) (.copied "name".toList) := by
  have hquiet : ∀ t : Text, all .curly (t ++ 'x' :: t) = [] →
      Quiet .curly ((Sources.copied t).texts .empty) := by
    intro t ht
    have htexts : ∀ u ∈ (Sources.copied t).texts .empty, u = t := by
      rintro u (h | ⟨_, _, _, -, -, h⟩)
      · exact (Except.ok.inj h).symm
      · cases h
    intro u hu v hv
    rw [htexts u hu, htexts v hv]
    exact ht
  refine (clipboard_is_data_iff _ .empty).1 (hquiet _ rfl) _ (hquiet _ rfl) .empty rfl nofun 10 default
    [] nofun _ ?_
  simp [Part.Flat]
  decide

/-- A variable's name in braces on the clipboard is taken for the variable. -/
theorem counterexample_clipboard_with_name :
    ((Sources.copied "\x7bname\x7d".toList).world default [] []).run
      (expand ⟨[], Dictionary.empty.insert "name".toList "Bob".toList, .empty⟩ 10 "[paste]".toList) =
    ("Bob".toList, (Sources.copied "\x7bname\x7d".toList).world default [] [.clipboard]) := by
  rfl

end SnippetExpansion
