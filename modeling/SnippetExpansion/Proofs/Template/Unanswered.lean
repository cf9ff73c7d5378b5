import SnippetExpansion.Proofs.Template.Consulting

/-! # Templates that nothing is known about
A placeholder whose key is neither a command's nor a variable's can only be put to the user. While no question
is answered such placeholders stand for themselves, so each pass gives back the text it was given, and asks
about a placeholder when it comes to it for the first time. -/
namespace SnippetExpansion

open Placeholder

def Snapshot.Lacks (s : Snapshot) (p : Placeholder) : Prop :=
  Command.lookup? p.key = none ∧ s.vars.find? p.key = none

instance (s : Snapshot) (p : Placeholder) : Decidable (s.Lacks p) :=
  inferInstanceAs (Decidable (_ ∧ _))

namespace Placeholder

/-- What the user is asked: once about every placeholder that has an argument, by that argument, in the order in
which they first appear. -/
def questions (placeholders : List Placeholder) : List Request :=
  (placeholders.filter (·.argument.isSome)).eraseDups.map fun p => .prompt p.argumentOrEmpty

variable {p : Placeholder} {placeholders : List Placeholder}

theorem questions_filter_bare (h : p.argument = none) :
    questions (placeholders.filter (· != p)) = questions placeholders := by
  have hsame : (placeholders.filter (· != p)).filter (·.argument.isSome) =
      placeholders.filter (·.argument.isSome) := by
    rw [List.filter_filter]
    refine List.filter_congr fun q _ => ?_
    by_cases hq : q = p
    · simp [hq, h]
    · simp [hq]
  rw [questions, hsame, questions]

theorem questions_cons (p : Placeholder) (placeholders : List Placeholder) :
    questions (p :: placeholders) = questions [p] ++ questions (placeholders.filter (· != p)) := by
  cases hargument : p.argument with
  | none =>
    rw [questions_filter_bare hargument]
    simp [questions, hargument]
  | some label =>
    have hcomm : (placeholders.filter (·.argument.isSome)).filter (fun q => !q == p) =
        (placeholders.filter (· != p)).filter (·.argument.isSome) := by
      rw [List.filter_filter, List.filter_filter]
      exact List.filter_congr fun q _ => Bool.and_comm _ _
    simp [questions, hargument, List.eraseDups_cons, hcomm]

end Placeholder

namespace Surroundings

def Silent (world : Surroundings) : Prop := ∀ reply ∈ world.prompts, reply = none

def prompted (world : Surroundings) (questions : List Request) : Surroundings :=
  { world with prompts := world.prompts.drop questions.length, asked := world.asked ++ questions }

variable {world : Surroundings}

theorem prompted_nil (world : Surroundings) : world.prompted [] = world := by
  rw [prompted, List.append_nil]
  rfl

theorem prompted_append (world : Surroundings) (first second : List Request) :
    (world.prompted first).prompted second = world.prompted (first ++ second) := by
  simp only [prompted, List.drop_drop, List.append_assoc, List.length_append]

theorem Silent.prompted (h : world.Silent) (questions : List Request) :
    (world.prompted questions).Silent :=
  fun reply hreply => h reply (List.mem_of_mem_drop hreply)

/-- What the user is asked about stands for itself, and so does what he is not asked about. -/
theorem Silent.run_resolve (h : world.Silent) {s : Snapshot} {p : Placeholder} (hp : s.Lacks p) :
    world.run (s.resolve p) = (p.text, world.prompted (questions [p])) := by
  obtain ⟨hcommand, hvar⟩ := hp
  rw [Snapshot.resolve, hcommand, hvar]
  cases hargument : p.argument with
  | none =>
    have hnothing : questions [p] = [] := by simp [questions, hargument]
    rw [hnothing, prompted_nil]
    rfl
  | some label =>
    have hreply : world.prompts.head?.join = none := by
      cases hprompts : world.prompts with
      | nil => rfl
      | cons reply prompts => exact h reply (hprompts ▸ List.mem_cons_self)
    have hasked : questions [p] = [.prompt label] := by
      simp [questions, hargument, argumentOrEmpty, List.eraseDups_cons]
    change (world.prompts.head?.join.getD p.text, _) = _
    rw [hasked, hreply]
    simp [Surroundings.prompted, promptsAfter]

end Surroundings

section Passes

variable {s : Snapshot} {b : Bracket} {again : Text → Expansion Text}
  {pieces : List (Piece Placeholder)}

def Placeholder.unknown (known : List (Text × Text)) (placeholders : List Placeholder) :
    List Placeholder :=
  placeholders.filter fun p => (known.lookup p.text).isNone

theorem unknown_noted {known : List (Text × Text)} {inside : Text} (value : Text)
    (hpieces : ∀ piece ∈ pieces, piece.IsWritten b) :
    unknown ((written b inside, value) :: known) (pieces.filterMap Piece.value?) =
      (unknown known (pieces.filterMap Piece.value?)).filter (· != ofInside b inside) := by
  rw [unknown, unknown, List.filter_filter]
  refine List.filter_congr fun p hp => ?_
  obtain ⟨piece, hpiece, hvalue⟩ := List.mem_filterMap.1 hp
  cases piece with
  | plain t => cases hvalue
  | found t q =>
    obtain rfl := Option.some.inj hvalue
    obtain ⟨inside', rfl, rfl⟩ := hpieces _ hpiece
    by_cases hsame : inside' = inside
    · simp [hsame, ofInside_text]
    · have hother : (written b inside' == written b inside) = false :=
        beq_false_of_ne fun heq => hsame (written_injective heq)
      have hapart : (ofInside b inside' != ofInside b inside) = true :=
        bne_iff_ne.2 fun heq => hsame (written_injective (congrArg Placeholder.text heq))
      simp [ofInside_text, List.lookup_cons, hother, hapart]

/-- The table holds nothing but placeholders that stand for themselves, and they are not asked about again. -/
theorem resolvePieces_unanswered (hpieces : ∀ piece ∈ pieces, piece.IsWritten b)
    (hlacks : ∀ t p, .found t p ∈ pieces → s.Lacks p) {known : List (Text × Text)}
    (hknown : ∀ t value, known.lookup t = some value → value = t) {world : Surroundings}
    (hsilent : world.Silent) :
    world.run (resolvePieces s b again known pieces) =
      (pieces.flatMap Piece.text,
        world.prompted (questions (unknown known (pieces.filterMap Piece.value?)))) := by
  induction pieces generalizing known world with
  | nil => exact congrArg (([] : Text), ·) world.prompted_nil.symm
  | cons piece pieces ih =>
    obtain ⟨hpiece, hwritten⟩ := List.forall_mem_cons.1 hpieces
    have hlater : ∀ t p, .found t p ∈ pieces → s.Lacks p := fun t p hmem =>
      hlacks t p (List.mem_cons_of_mem piece hmem)
    cases piece with
    | plain t =>
      rw [resolvePieces, Surroundings.run_bind, ih hwritten hlater hknown hsilent]
      rfl
    | found t p =>
      obtain ⟨inside, rfl, rfl⟩ := hpiece
      have hlack : s.Lacks (ofInside b inside) := hlacks _ _ List.mem_cons_self
      have hvalues : (Piece.found (written b inside) (ofInside b inside) :: pieces).filterMap
          Piece.value? = ofInside b inside :: pieces.filterMap Piece.value? := rfl
      rw [hvalues, List.flatMap_cons]
      by_cases hresolved : (ofInside b inside).resolvedIn b
      · cases hlookup : known.lookup (written b inside) with
        | some value =>
          obtain rfl := hknown _ value hlookup
          have hold : unknown known (ofInside b inside :: pieces.filterMap Piece.value?) =
              unknown known (pieces.filterMap Piece.value?) :=
            List.filter_cons_of_neg (by simp [ofInside_text, hlookup])
          rw [hold, resolvePieces_noted hresolved hlookup, Surroundings.run_bind,
            ih hwritten hlater hknown hsilent]
          rfl
        | none =>
          have hnoted : ∀ t value,
              ((written b inside, written b inside) :: known).lookup t = some value → value = t := by
            intro t value hfound
            rw [List.lookup_cons] at hfound
            split at hfound
            · next hsame => rw [beq_iff_eq.1 hsame, Option.some.inj hfound]
            · exact hknown t value hfound
          have hnew : unknown known (ofInside b inside :: pieces.filterMap Piece.value?) =
              ofInside b inside :: unknown known (pieces.filterMap Piece.value?) :=
            List.filter_cons_of_pos (by simp [ofInside_text, hlookup])
          have hitself : (ofInside b inside).rescans b (written b inside) = false := by
            simp [rescans, ofInside_text]
          have hresolution : world.run ((ofInside b inside).resolution s b again) =
              (written b inside, world.prompted (questions [ofInside b inside])) := by
            rw [resolution, Surroundings.run_bind, hsilent.run_resolve hlack, ofInside_text, hitself]
            rfl
          rw [hnew, questions_cons, ← unknown_noted (written b inside) hwritten,
            ← Surroundings.prompted_append, resolvePieces_unnoted hresolved hlookup,
            Surroundings.run_bind, hresolution, Surroundings.run_bind,
            ih hwritten hlater hnoted (hsilent.prompted _)]
          rfl
      · -- in braces a placeholder without argument is passed over
        have hbare : (ofInside b inside).argument = none := by
          cases b with
          | square => exact absurd rfl hresolved
          | curly => simpa [resolvedIn] using hresolved
        have hskipped : questions (unknown known (ofInside b inside :: pieces.filterMap Piece.value?)) =
            questions (unknown known (pieces.filterMap Piece.value?)) := by
          rw [unknown, List.filter_cons]
          split
          · rw [questions_cons, questions_filter_bare hbare]
            simp [questions, hbare, unknown]
          · rfl
        rw [resolvePieces_passed (eq_false_of_ne_true hresolved), hskipped, Surroundings.run_bind,
          ih hwritten hlater hknown hsilent]
        rfl

theorem resolveText_unanswered {t : Text} (hlacks : ∀ p ∈ all b t, s.Lacks p) (maxDepth depth : Nat)
    {world : Surroundings} (hsilent : world.Silent) :
    world.run (resolveText s maxDepth b depth t) = (t, world.prompted (questions (all b t))) := by
  have hall : unknown [] (all b t) = all b t := List.filter_eq_self.2 fun p _ => rfl
  have hfound : ∀ f p, .found f p ∈ Placeholder.pieces b t → s.Lacks p := fun f p hmem =>
    hlacks p (mem_all_iff_found.2 ⟨f, hmem⟩)
  have hnone : ∀ f value, ([] : List (Text × Text)).lookup f = some value → value = f := nofun
  rw [resolveText, resolveLevels,
    resolvePieces_unanswered isWritten_of_mem_pieces hfound hnone hsilent, ← all, hall,
    Placeholder.pieces, Text.flatMap_text_cut]

theorem substituteBare_unanswered {t : Text} (hlacks : ∀ p ∈ all .curly t, s.Lacks p) :
    substituteBare s (Placeholder.pieces .curly t) = pure t := by
  have hkept : ∀ pieces ⊆ Placeholder.pieces .curly t,
      substituteBare s pieces = pure (pieces.flatMap Piece.text) := by
    intro pieces hpieces
    induction pieces with
    | nil => rfl
    | cons piece pieces ih =>
      obtain ⟨hpiece, hrest⟩ := List.cons_subset.1 hpieces
      rw [substituteBare_cons, ih hrest]
      cases piece with
      | plain t => rfl
      | found f p =>
        obtain ⟨hcommand, hvar⟩ := hlacks p (mem_all_iff_found.2 ⟨f, hpiece⟩)
        obtain ⟨inside, rfl, -, -, rfl⟩ := found_of_mem_pieces hpiece
        rw [Piece.bareResolution, bareValue, hvar, hcommand]
        split <;> rfl
  rw [hkept _ (List.Subset.refl _), Placeholder.pieces, Text.flatMap_text_cut]

end Passes

/-- If no key in a template is that of a command or a variable, and no prompt is answered, the template stays as
it is. The user is asked once about every placeholder with an argument, those in square brackets first, and
nothing else is asked for; without placeholders nothing at all is. -/
theorem expand_unanswered {s : Snapshot} {template : Text}
    (hlacks : ∀ b, ∀ p ∈ all b template, s.Lacks p) (maxDepth : Nat) {world : Surroundings}
    (hsilent : world.Silent) :
    (world.run (expand s maxDepth template)).1 = template ∧
    (world.run (expand s maxDepth template)).2.asked =
      world.asked ++ questions (all .square template) ++ questions (all .curly template) ∧
    ((∀ b, all b template = []) →
      (world.run (expand s maxDepth template)).2.asked = world.asked) := by
  have hrun : world.run (expand s maxDepth template) = (template,
      world.prompted (questions (all .square template) ++ questions (all .curly template))) := by
    rw [expand_eq, Surroundings.run_bind, resolveText_unanswered (hlacks .square) maxDepth 0 hsilent,
      bracesPassed, substituteBare_unanswered (hlacks .curly), pure_bind,
      resolveText_unanswered (hlacks .curly) maxDepth 0 (hsilent.prompted _),
      Surroundings.prompted_append]
  rw [hrun]
  refine ⟨rfl, (List.append_assoc _ _ _).symm, ?_⟩
  intro hnone
  rw [hnone .square, hnone .curly]
  exact List.append_nil world.asked

def form : Text := "[who:Name], \x7bwho:Name\x7d [who:Name] [date of birth] \x7b \x7bwhere:Place\x7d".toList

theorem expand_unanswered_form :
    (∀ b, ∀ p ∈ all b form, Snapshot.empty.Lacks p) ∧
    (Surroundings.alone default (.ok [])).Silent ∧
    ((Surroundings.alone default (.ok [])).run (expand .empty 10 form)).1 = form ∧
    ((Surroundings.alone default (.ok [])).run (expand .empty 10 form)).2.asked =
      [.prompt "Name".toList, .prompt "Name".toList, .prompt "Place".toList] := by
  have hlacks : ∀ b, ∀ p ∈ all b form, Snapshot.empty.Lacks p := by
    intro b
    cases b <;> decide +kernel
  have hsilent : (Surroundings.alone default (.ok [])).Silent := nofun
  obtain ⟨hsame, hasked, -⟩ := expand_unanswered hlacks 10 hsilent
  refine ⟨hlacks, hsilent, hsame, hasked.trans ?_⟩
  decide +kernel

end SnippetExpansion
