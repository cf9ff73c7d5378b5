import SnippetExpansion.Proofs.Template.Consulting

/-! # Names alone in braces
In a template a name in braces stands for a variable, else for a command without argument, else for itself.
Typed as a token it is looked up among the commands first. So the two part ways where a variable has the name of
a command, unless that command happens to give the variable's value and presses no key. -/
namespace SnippetExpansion

open Text (BracketFree)
open Placeholder

section Passes

variable {s : Snapshot} {b : Bracket}

theorem resolvePieces_unresolved (again : Text → Expansion Text) {pieces : List (Piece Placeholder)}
    (h : ∀ t p, .found t p ∈ pieces → p.resolvedIn b = false) (known : List (Text × Text)) :
    resolvePieces s b again known pieces = pure (pieces.flatMap Piece.text) := by
  induction pieces with
  | nil => rfl
  | cons piece pieces ih =>
    have hrest := ih fun t p hmem => h t p (List.mem_cons_of_mem piece hmem)
    cases piece with
    | plain t =>
      rw [resolvePieces, hrest]
      rfl
    | found t p =>
      rw [resolvePieces_passed (h t p List.mem_cons_self), hrest]
      rfl

theorem resolveLevels_unresolved {t : Text} (h : ∀ p ∈ all b t, p.resolvedIn b = false) (levels : Nat) :
    resolveLevels s b levels t = pure t := by
  cases levels with
  | zero => rfl
  | succ levels =>
    have hfound : ∀ f p, .found f p ∈ pieces b t → p.resolvedIn b = false := fun f p hmem =>
      h p (mem_all_iff_found.2 ⟨f, hmem⟩)
    rw [resolveLevels, resolvePieces_unresolved _ hfound, pieces, Text.flatMap_text_cut]

theorem resolveText_unresolved {t : Text} (h : ∀ p ∈ all b t, p.resolvedIn b = false)
    (maxDepth depth : Nat) : resolveText s maxDepth b depth t = pure t :=
  resolveLevels_unresolved h _

end Passes

theorem nameless_braces (s : Snapshot) (maxDepth : Nat) :
    expand s maxDepth (written .curly []) = pure (written .curly []) ∧
    execute s maxDepth (written .curly []) = pure (written .curly []) := by
  have hall (b : Bracket) : all b (written .curly []) = [] := by cases b <;> decide
  have hnothing (b : Bracket) : ∀ p ∈ all b (written .curly []), p.resolvedIn b = false := by
    rw [hall]
    exact nofun
  have hbare : substituteBare s (pieces .curly (written .curly [])) = pure (written .curly []) := rfl
  constructor
  · rw [expand_eq, resolveText_unresolved (hnothing .square), pure_bind, bracesPassed, hbare, pure_bind,
      resolveText_unresolved (hnothing .curly)]
  · rw [execute, first?, hall, hall]
    rfl

/-- What there is to see of an expansion: its text, and all keys pressed so far. -/
def Surroundings.seen (world : Surroundings) (e : Expansion Text) : Text × List Key :=
  ((world.run e).1, Request.keys (world.run e).2.asked)

section Name

theorem hasKey_of_name {name : Text} (hcolon : ':' ∉ name) (hne : name ≠ []) : hasKey name := by
  rw [Pattern.hasKey_iff]
  refine ⟨hne, ?_⟩
  intro hhead
  exact hcolon (List.mem_of_head? hhead)

theorem expand_name {s : Snapshot} {name : Text} (hcurly : Bracket.curly.Absent name)
    (hsquare : all .square (written .curly name) = []) (hcolon : ':' ∉ name) (hne : name ≠ [])
    (maxDepth : Nat) :
    expand s maxDepth (written .curly name) =
      bareValue s ⟨written .curly name, name, none⟩ >>= resolveText s maxDepth .curly 0 := by
  have hunresolved : ∀ p ∈ all .square (written .curly name), p.resolvedIn .square = false := by
    rw [hsquare]
    exact nofun
  rw [expand_eq, resolveText_unresolved hunresolved, pure_bind, bracesPassed,
    pieces_written hcurly (hasKey_of_name hcolon hne), Pattern.ofInside_of_key hcolon]
  simp only [substituteBare, Option.isSome_none, Bool.false_eq_true, if_false, pure_bind,
    List.append_nil, bind_pure]

variable {s : Snapshot} {name : Text} (hname : BracketFree name) (hcolon : ':' ∉ name)
include hname hcolon

theorem expand_bare (hne : name ≠ []) (maxDepth : Nat) :
    expand s maxDepth (written .curly name) =
      bareValue s ⟨written .curly name, name, none⟩ >>= resolveText s maxDepth .curly 0 :=
  expand_name (hname .curly) (all_of_absent (Chunk.square_absent_written_curly hname)) hcolon hne
    maxDepth

/-- In a template a name in braces comes to the variable, else to the command, else to itself, and what it comes
to is not read again. -/
theorem run_expand_bare (hs : s.Braceless) {world : Surroundings}
    (hworld : Request.SourcesBraceless world.reply) (hne : name ≠ []) (maxDepth : Nat) :
    world.run (expand s maxDepth (written .curly name)) =
      world.run (bareValue s ⟨written .curly name, name, none⟩) := by
  have hread : ofInside .curly name = ⟨written .curly name, name, none⟩ := Pattern.ofInside_of_key hcolon
  obtain ⟨asked, -, hrun⟩ := world.run_unprompted
    (bareValue_unprompted s ⟨written .curly name, name, none⟩) fun _ hprompt => hprompt trivial
  have hvalue := bareValue_braceless hs hworld name
  rw [hread] at hvalue
  have hsettled : ∀ p ∈ all .curly
      ((bareValue s ⟨written .curly name, name, none⟩).outcome world.reply),
      p.resolvedIn .curly = false := by
    rcases hvalue with habsent | hitself
    · rw [all_of_absent habsent]
      exact nofun
    · rw [hitself, all_written (hname .curly) (hasKey_of_name hcolon hne), hread]
      exact List.forall_mem_singleton.2 rfl
  rw [expand_bare hname hcolon hne, Surroundings.run_bind, hrun, resolveText_unresolved hsettled]
  rfl

/-- Typed as a token, a name in braces comes to the same text as in a template, with the same keys, exactly if no
variable has the name of a command, or the command gives the variable's value and presses no key. In a template
it comes to the variable, else to the command, else to itself. -/
theorem bare_name_agrees_iff (hs : s.Braceless) {world : Surroundings}
    (hworld : Request.SourcesBraceless world.reply) (maxDepth : Nat) :
    (name ≠ [] → world.run (expand s maxDepth (written .curly name)) =
      world.run (bareValue s ⟨written .curly name, name, none⟩)) ∧
    (world.seen (execute s maxDepth (written .curly name)) =
        world.seen (expand s maxDepth (written .curly name)) ↔
      ∀ command value, Command.lookup? name = some command → s.vars.find? name = some value →
        world.seen (s.runCommand command []) = world.seen (pure value)) := by
  refine ⟨fun hne => run_expand_bare hname hcolon hs hworld hne maxDepth, ?_⟩
  by_cases hne : name = []
  · subst hne
    obtain ⟨hexpand, hexecute⟩ := nameless_braces s maxDepth
    rw [hexpand, hexecute]
    have hnone : Command.lookup? [] = none := by decide
    simp [hnone]
  · have hfirst := first?_written .curly hname (hasKey_of_name hcolon hne)
    rw [Pattern.ofInside_of_key hcolon] at hfirst
    rw [execute, hfirst]
    cases hcommand : Command.lookup? name with
    | none => simp [hcommand]
    | some command =>
      have hargument : (⟨written .curly name, name, none⟩ : Placeholder).argumentOrEmpty = [] := rfl
      have hrun := run_expand_bare hname hcolon hs hworld hne maxDepth
      simp only [hcommand, hargument, if_true, bind_pure]
      rw [Surroundings.seen, Surroundings.seen, hrun, bareValue, hcommand]
      cases hvar : s.vars.find? name with
      | none => simp
      | some value => simp [Surroundings.seen]

end Name

def pauses : Snapshot := { Snapshot.empty with vars := Dictionary.empty.insert "wait".toList [] }

theorem bare_name_agrees_pauses :
    BracketFree "wait".toList ∧ ':' ∉ "wait".toList ∧ pauses.Braceless ∧
    Request.SourcesBraceless (Surroundings.alone default (.ok [])).reply ∧
    (Surroundings.alone default (.ok [])).seen (execute pauses 10 (written .curly "wait".toList)) =
      (Surroundings.alone default (.ok [])).seen (expand pauses 10 (written .curly "wait".toList)) := by
  have hname : BracketFree "wait".toList := by decide
  have hcolon : ':' ∉ "wait".toList := by decide
  have hs : pauses.Braceless := by
    intro name value hvalue
    rw [pauses, Dictionary.find?_insert] at hvalue
    obtain ⟨-, hsame⟩ := Option.ite_none_right_eq_some.1 hvalue
    obtain rfl := Option.some.inj hsame
    exact .nil
  have hworld : Request.SourcesBraceless (Surroundings.alone default (.ok [])).reply := by
    constructor
    · intro t ht
      obtain rfl := Except.ok.inj ht
      exact .nil
    · intro provider key prompt t ht
      cases ht
  refine ⟨hname, hcolon, hs, hworld, (bare_name_agrees_iff hname hcolon hs hworld 10).2.2 ?_⟩
  intro command value hcommand hvalue
  obtain rfl : command = .wait := Option.some.inj (hcommand.symm.trans (by decide +kernel))
  obtain rfl : value = [] := Option.some.inj (hvalue.symm.trans (by decide +kernel))
  decide +kernel

def teatime : Snapshot :=
  { Snapshot.empty with vars := Dictionary.empty.insert "time".toList "teatime".toList }

/-- The command hides the variable from those who type. -/
theorem counterexample_variable_hidden :
    (Surroundings.alone ⟨2024, 3, 5, 14, 30, 9, 0⟩ (.ok [])).seen
        (execute teatime 10 (written .curly "time".toList)) = ("14:30:09".toList, []) ∧
    (Surroundings.alone ⟨2024, 3, 5, 14, 30, 9, 0⟩ (.ok [])).seen
        (expand teatime 10 (written .curly "time".toList)) = ("teatime".toList, []) := by
  decide +kernel

end SnippetExpansion
