import SnippetExpansion.Outside

/-! # Running an expansion in a known world
Parts of an expansion run one after another, and whatever is asked is noted behind what was asked
before. An expansion that asks for nothing is done already. -/
namespace SnippetExpansion.Surroundings

variable {α β : Type}

@[simp] theorem run_pure (world : Surroundings) (a : α) :
    world.run (pure a : Expansion α) = (a, world) := rfl

@[simp] theorem run_bind (world : Surroundings) (e : Expansion α) (f : α → Expansion β) :
    world.run (e >>= f) = (world.run e).2.run (f (world.run e).1) := by
  rw [run, Dialogue.interpret_bind]
  rfl

theorem run_ask (world : Surroundings) (r : Request) (resume : r.Answer → Expansion α) :
    world.run (.ask r resume) =
      { world with prompts := world.promptsAfter r, asked := world.asked ++ [r] }.run
        (resume (world.reply r)) := rfl

theorem asked_grows (world : Surroundings) (e : Expansion α) :
    world.asked <+: (world.run e).2.asked := by
  induction e generalizing world with
  | done a => exact List.prefix_rfl
  | ask r resume ih =>
    rw [run_ask]
    exact (List.prefix_append world.asked [r]).trans
      (ih (world.reply r) { world with prompts := world.promptsAfter r, asked := world.asked ++ [r] })

theorem eq_done_of_run_asked {world : Surroundings} {e : Expansion α}
    (h : (world.run e).2.asked = world.asked) : e = .done (world.run e).1 := by
  cases e with
  | done a => rfl
  | ask r resume =>
    rw [run_ask] at h
    have hlength := (asked_grows
      { world with prompts := world.promptsAfter r, asked := world.asked ++ [r] }
      (resume (world.reply r))).length_le
    rw [h, List.length_append] at hlength
    exact absurd hlength (Nat.not_succ_le_self _)

end SnippetExpansion.Surroundings
