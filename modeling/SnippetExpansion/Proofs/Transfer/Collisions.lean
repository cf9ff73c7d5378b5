import SnippetExpansion.Proofs.Transfer.Merge
import SnippetExpansion.Proofs.Transfer.Variables

/-! # What a conflict is
Entries come in one after another, and each is held against all that is there by then, numbered names of
earlier ones included. So with one policy throughout, the conflicts are the collisions with entries that were
there before, unless keeping both gives an entry a name that one behind it comes with. -/
namespace SnippetExpansion

/-- The names that are taken when one more has come in. -/
def takenAfter (policy : ConflictPolicy) (taken : List Text) (name : Text) : List Text :=
  if name ∈ taken then
    if policy = .keepBoth then taken ++ [unusedSuffix name taken] else taken
  else taken ++ [name]

/-- How many of these names are taken when they come in, one after another. -/
def collisions (policy : ConflictPolicy) : List Text → List Text → Nat
  | _, [] => 0
  | taken, name :: names =>
    collisions policy (takenAfter policy taken name) names + if name ∈ taken then 1 else 0

/-- Keeping both never gives a name that one behind it comes with; those in `before` are in already. -/
def LeavesFree (existing : List Text) : List Text → List Text → Prop
  | _, [] => True
  | before, name :: names =>
    (name ∈ existing → unusedSuffix name (existing ++ before) ∉ names) ∧
      LeavesFree existing (before ++ [name]) names

instance LeavesFree.decidable (existing : List Text) :
    (before names : List Text) → Decidable (LeavesFree existing before names)
  | _, [] => inferInstanceAs (Decidable True)
  | before, name :: names =>
    have := decidable existing (before ++ [name]) names
    inferInstanceAs (Decidable (_ ∧ _))

section Names

variable {policy : ConflictPolicy} {existing before taken taken' names : List Text} {name : Text}

theorem subset_takenAfter : taken ⊆ takenAfter policy taken name := by
  intro x hx
  unfold takenAfter
  split
  · split
    · exact List.mem_append_left _ hx
    · exact hx
  · exact List.mem_append_left _ hx

theorem mem_takenAfter : name ∈ takenAfter policy taken name := by
  by_cases hname : name ∈ taken
  · exact subset_takenAfter hname
  · rw [takenAfter, if_neg hname]
    exact List.mem_append_right _ List.mem_cons_self

theorem takenAfter_congr (h : ∀ x, x ∈ taken ↔ x ∈ taken') (x : Text) :
    x ∈ takenAfter policy taken name ↔ x ∈ takenAfter policy taken' name := by
  have hsuffix : unusedSuffix name taken = unusedSuffix name taken' :=
    unusedSuffix_congr fun n => h (numbered name n)
  by_cases hname : name ∈ taken
  · rw [takenAfter, takenAfter, if_pos hname, if_pos ((h name).1 hname), hsuffix]
    split
    · rw [List.mem_append, List.mem_append, h]
    · exact h x
  · rw [takenAfter, takenAfter, if_neg hname, if_neg fun hmem => hname ((h name).2 hmem),
      List.mem_append, List.mem_append, h]

theorem collisions_congr (h : ∀ x, x ∈ taken ↔ x ∈ taken') :
    collisions policy taken names = collisions policy taken' names := by
  induction names generalizing taken taken' with
  | nil => rfl
  | cons name names ih =>
    rw [collisions, collisions, ih (takenAfter_congr h)]
    simp only [h name]

theorem countP_le_collisions (h : existing ⊆ taken) :
    names.countP (· ∈ existing) ≤ collisions policy taken names := by
  induction names generalizing taken with
  | nil => exact Nat.le_refl 0
  | cons name names ih =>
    have hrest : names.countP (· ∈ existing) ≤
        collisions policy (takenAfter policy taken name) names := ih (List.Subset.trans h subset_takenAfter)
    rw [collisions, List.countP_cons]
    by_cases hname : name ∈ existing
    · simpa [hname, h hname] using hrest
    · simp only [hname, decide_false, Bool.false_eq_true, if_false]
      omega

theorem collisions_cons_eq_iff (h : existing ⊆ taken) :
    collisions policy taken (name :: names) = (name :: names).countP (· ∈ existing) ↔
      (name ∈ taken → name ∈ existing) ∧
      collisions policy (takenAfter policy taken name) names = names.countP (· ∈ existing) := by
  have hrest : names.countP (· ∈ existing) ≤
      collisions policy (takenAfter policy taken name) names :=
    countP_le_collisions (List.Subset.trans h subset_takenAfter)
  rw [collisions, List.countP_cons]
  by_cases hname : name ∈ existing
  · simp [hname, h hname]
  · by_cases htaken : name ∈ taken
    · simp only [hname, htaken, decide_false, Bool.false_eq_true, if_true, if_false]
      constructor
      · intro heq
        omega
      · rintro ⟨hfalse, -⟩
        exact (hfalse trivial).elim
    · simp [hname, htaken]

/-- What is taken when these names have come in: what existed, the names, and numbered ones of theirs. -/
structure Tracks (existing before taken : List Text) : Prop where
  kept : existing ⊆ taken
  came : before ⊆ taken
  no_others : ∀ x ∈ taken, x ∈ existing ++ before ∨ ∃ y ∈ before, ∃ n, x = numbered y n

theorem Tracks.start : Tracks existing [] existing :=
  ⟨List.Subset.refl _, List.nil_subset _, fun _ hx => .inl (List.mem_append_left _ hx)⟩

theorem Tracks.unusedSuffix_eq (h : Tracks existing before taken) (hname : name ∉ before) :
    unusedSuffix name taken = unusedSuffix name (existing ++ before) := by
  apply unusedSuffix_congr
  intro n
  constructor
  · intro hmem
    rcases h.no_others _ hmem with hmem | ⟨y, hy, k, heq⟩
    · exact hmem
    · obtain ⟨rfl, -⟩ := numbered_inj.1 heq
      exact absurd hy hname
  · intro hmem
    rcases List.mem_append.1 hmem with hmem | hmem
    · exact h.kept hmem
    · exact h.came hmem

theorem Tracks.next (h : Tracks existing before taken) :
    Tracks existing (before ++ [name]) (takenAfter policy taken name) := by
  constructor
  · exact List.Subset.trans h.kept subset_takenAfter
  · intro x hx
    rcases List.mem_append.1 hx with hx | hx
    · exact subset_takenAfter (h.came hx)
    · obtain rfl := List.mem_singleton.1 hx
      exact mem_takenAfter
  · intro x hx
    rw [← List.append_assoc]
    have hold (hx : x ∈ taken) : x ∈ existing ++ before ++ [name] ∨
        ∃ y ∈ before ++ [name], ∃ n, x = numbered y n := by
      rcases h.no_others x hx with hx | ⟨y, hy, n, heq⟩
      · exact .inl (List.mem_append_left _ hx)
      · exact .inr ⟨y, List.mem_append_left _ hy, n, heq⟩
    unfold takenAfter at hx
    split at hx
    · split at hx
      · rcases List.mem_append.1 hx with hx | hx
        · exact hold hx
        · obtain ⟨n, -, -, heq, -⟩ := SnippetExpansion.unusedSuffix_eq name taken
          obtain rfl := List.mem_singleton.1 hx
          exact .inr ⟨name, List.mem_append_right _ List.mem_cons_self, n, heq⟩
      · exact hold hx
    · rcases List.mem_append.1 hx with hx | hx
      · exact hold hx
      · exact .inl (List.mem_append_right _ hx)

/-- One more name that came in is no new reason for a collision, unless keeping both gave it the name of
one behind it. -/
theorem Tracks.unhit_next_iff (h : Tracks existing before taken) (hbefore : name ∉ before)
    (hnames : name ∉ names) (hname : name ∈ taken → name ∈ existing) :
    (∀ x ∈ names, x ∈ takenAfter policy taken name → x ∈ existing) ↔
      (∀ x ∈ names, x ∈ taken → x ∈ existing) ∧
      (policy = .keepBoth → name ∈ existing → unusedSuffix name (existing ++ before) ∉ names) := by
  have hsuffix := h.unusedSuffix_eq hbefore
  have hfree : unusedSuffix name taken ∉ existing := fun hmem =>
    unusedSuffix_not_mem name taken (h.kept hmem)
  constructor
  · intro hunhit
    constructor
    · intro x hx htaken
      exact hunhit x hx (subset_takenAfter htaken)
    · intro hboth hexisting hmem
      rw [← hsuffix] at hmem
      refine hfree (hunhit _ hmem ?_)
      rw [takenAfter, if_pos (h.kept hexisting), if_pos hboth]
      exact List.mem_append_right _ List.mem_cons_self
  · rintro ⟨hunhit, hgiven⟩ x hx hmem
    unfold takenAfter at hmem
    split at hmem
    · next htaken =>
      split at hmem
      · next hboth =>
        rcases List.mem_append.1 hmem with hmem | hmem
        · exact hunhit x hx hmem
        · obtain rfl := List.mem_singleton.1 hmem
          rw [hsuffix] at hx
          exact absurd hx (hgiven hboth (hname htaken))
      · exact hunhit x hx hmem
    · rcases List.mem_append.1 hmem with hmem | hmem
      · exact hunhit x hx hmem
      · obtain rfl := List.mem_singleton.1 hmem
        exact absurd hx hnames

theorem Tracks.collisions_eq_iff (h : Tracks existing before taken)
    (hnodup : (before ++ names).Nodup) :
    collisions policy taken names = names.countP (· ∈ existing) ↔
      (∀ x ∈ names, x ∈ taken → x ∈ existing) ∧
      (policy = .keepBoth → LeavesFree existing before names) := by
  induction names generalizing before taken with
  | nil => simp [collisions, LeavesFree]
  | cons name names ih =>
    rw [List.append_cons] at hnodup
    have hname : name ∉ before ++ names := by
      rw [List.append_assoc, List.singleton_append, List.nodup_middle, List.nodup_cons] at hnodup
      exact hnodup.1
    rw [List.mem_append, not_or] at hname
    rw [collisions_cons_eq_iff h.kept, ih h.next hnodup, List.forall_mem_cons, LeavesFree]
    constructor
    · rintro ⟨hfirst, hrest, hlater⟩
      obtain ⟨hunhit, hgiven⟩ := (h.unhit_next_iff hname.1 hname.2 hfirst).1 hrest
      exact ⟨⟨hfirst, hunhit⟩, fun hboth => ⟨hgiven hboth, hlater hboth⟩⟩
    · rintro ⟨⟨hfirst, hunhit⟩, hleaves⟩
      refine ⟨hfirst, ?_, fun hboth => (hleaves hboth).2⟩
      exact (h.unhit_next_iff hname.1 hname.2 hfirst).2 ⟨hunhit, fun hboth => (hleaves hboth).1⟩

theorem collisions_eq_iff (hnodup : names.Nodup) :
    collisions policy existing names = names.countP (· ∈ existing) ↔
      (policy = .keepBoth → LeavesFree existing [] names) := by
  rw [Tracks.start.collisions_eq_iff hnodup]
  exact and_iff_right fun x _ hx => hx

theorem leavesFree_iff_of_rising (hrising : (before ++ names).Pairwise (· < ·)) :
    LeavesFree existing before names ↔
      ∀ name ∈ names, name ∈ existing → unusedSuffix name existing ∉ before ++ names := by
  induction names generalizing before with
  | nil => simp [LeavesFree]
  | cons name names ih =>
    have hbefore {x : Text} (hx : x ∈ before ++ [name]) (n : Nat) : x < numbered name n := by
      rcases List.mem_append.1 hx with hx | hx
      · have hlt : x < name := (List.pairwise_append.1 hrising).2.2 x hx name List.mem_cons_self
        exact List.lt_trans hlt (lt_numbered name n)
      · obtain rfl := List.mem_singleton.1 hx
        exact lt_numbered x n
    have hsuffix : unusedSuffix name (existing ++ before) = unusedSuffix name existing := by
      apply unusedSuffix_congr
      intro n
      rw [List.mem_append]
      refine or_iff_left fun hmem => ?_
      exact List.lt_irrefl _ (hbefore (List.mem_append_left _ hmem) n)
    have hgiven : unusedSuffix name existing ∉ before ++ name :: names ↔
        unusedSuffix name existing ∉ names := by
      obtain ⟨n, -, -, heq, -⟩ := unusedSuffix_eq name existing
      rw [heq, List.append_cons, List.mem_append, not_or]
      refine and_iff_right fun hmem => ?_
      exact List.lt_irrefl _ (hbefore hmem n)
    rw [List.append_cons] at hrising
    rw [LeavesFree, hsuffix, List.forall_mem_cons, hgiven, ih hrising, ← List.append_cons]

end Names

/-- A merge in which names alone decide what collides and which names there are next. -/
structure ByNames (policy : ConflictPolicy) {M E : Type} (add : M → E → M) (conflicts : M → Nat)
    (names : M → List Text) (name : E → Text) : Prop where
  names_add (m : M) (e : E) (x : Text) :
    x ∈ names (add m e) ↔ x ∈ takenAfter policy (names m) (name e)
  conflicts_add (m : M) (e : E) :
    conflicts (add m e) = conflicts m + if name e ∈ names m then 1 else 0

namespace ByNames

variable {policy : ConflictPolicy} {M E : Type} {add : M → E → M} {conflicts : M → Nat}
  {names : M → List Text} {name : E → Text} {m : M} {entries : List E}

theorem conflicts_foldl (h : ByNames policy add conflicts names name) :
    conflicts (entries.foldl add m) =
      conflicts m + collisions policy (names m) (entries.map name) := by
  induction entries generalizing m with
  | nil => rfl
  | cons e entries ih =>
    rw [List.foldl_cons, ih, collisions_congr (h.names_add m e), h.conflicts_add, List.map_cons,
      collisions]
    omega

theorem holds_foldl_of_ne {Holds : M → E → Prop}
    (hstays : ∀ m e e', Holds m e → name e' ≠ name e → Holds (add m e') e)
    {e : E} (he : Holds m e) (hne : name e ∉ entries.map name) : Holds (entries.foldl add m) e := by
  induction entries generalizing m with
  | nil => exact he
  | cons first entries ih =>
    rw [List.map_cons, List.mem_cons, not_or] at hne
    exact ih (hstays m e first he (Ne.symm hne.1)) hne.2

/-- Where only what existed is collided with, all else comes in under its own name. -/
theorem holds_foldl (h : ByNames policy add conflicts names name) (Holds : M → E → Prop)
    (hfresh : ∀ m e, name e ∉ names m → Holds (add m e) e)
    (hstays : ∀ m e e', Holds m e → name e' ≠ name e → Holds (add m e') e)
    {existing : List Text} (hnodup : (entries.map name).Nodup) (hexisting : existing ⊆ names m)
    (hcount : collisions policy (names m) (entries.map name) =
      (entries.map name).countP (· ∈ existing)) {e : E} (he : e ∈ entries)
    (hnew : name e ∉ existing) : Holds (entries.foldl add m) e := by
  induction entries generalizing m with
  | nil => cases he
  | cons first entries ih =>
    rw [List.map_cons] at hnodup hcount
    obtain ⟨hfirst, hnodup⟩ := List.nodup_cons.1 hnodup
    obtain ⟨hcollides, hcount⟩ := (collisions_cons_eq_iff hexisting).1 hcount
    have hnext := h.names_add m first
    rcases List.mem_cons.1 he with rfl | he
    · have hown : Holds (add m e) e := hfresh m e fun hmem => hnew (hcollides hmem)
      exact holds_foldl_of_ne (m := add m e) hstays hown hfirst
    · refine ih hnodup ?_ ?_ he
      · exact fun x hx => (hnext x).2 (subset_takenAfter (hexisting hx))
      · rw [collisions_congr hnext]
        exact hcount

end ByNames

namespace SnippetMerge

open Snippet

section Step

variable {ids : IdSource} {policy : ConflictPolicy} {m : SnippetMerge} {s : Snippet}

theorem add_shortcuts :
    shortcuts (m.add ids (fun _ _ _ => policy) s).snippets =
        takenAfter policy (shortcuts m.snippets) s.shortcut ∧
      (m.add ids (fun _ _ _ => policy) s).conflicts.length =
        m.conflicts.length + if s.shortcut ∈ shortcuts m.snippets then 1 else 0 := by
  have hknown {i : Nat} (hi : i < m.snippets.length)
      (hshortcut : m.snippets[i].shortcut = s.shortcut) : s.shortcut ∈ shortcuts m.snippets :=
    List.mem_map.2 ⟨m.snippets[i], List.getElem_mem hi, hshortcut⟩
  have hstep := add_step ids m (fun _ _ _ => policy) s
  generalize m.add ids (fun _ _ _ => policy) s = m' at hstep ⊢
  cases hstep with
  | added hfree =>
    obtain ⟨id, issued, happend⟩ := append_eq ids m s
    rw [happend, takenAfter, if_neg hfree, if_neg hfree]
    exact ⟨List.map_append, rfl⟩
  | refused hi hshortcut hdecide =>
    have htaken := hknown hi hshortcut
    obtain rfl : policy = .keepExisting := hdecide
    rw [takenAfter, if_pos htaken, if_pos htaken]
    exact ⟨rfl, List.length_append⟩
  | @replaced i hi hshortcut hdecide =>
    have htaken := hknown hi hshortcut
    obtain rfl : policy = .keepNew := hdecide
    obtain ⟨id, issued, hreplace⟩ := replace_eq ids (m.asked m.snippets[i] s) i s
    rw [hreplace, takenAfter, if_pos htaken, if_pos htaken]
    refine ⟨?_, List.length_append⟩
    -- The new snippet has the shortcut of the one in whose place it comes.
    have hsame : (shortcuts m.snippets).set i s.shortcut = shortcuts m.snippets := by
      have hi' : i < (shortcuts m.snippets).length := by rwa [shortcuts, List.length_map]
      have hold : (shortcuts m.snippets)[i] = s.shortcut := by rw [← hshortcut]; exact List.getElem_map _
      rw [← hold]
      exact List.set_getElem_self hi'
    exact List.map_set.trans hsame
  | @renamed i hi hshortcut hdecide =>
    have htaken := hknown hi hshortcut
    obtain rfl : policy = .keepBoth := hdecide
    obtain ⟨id, issued, happend⟩ := append_eq ids (m.asked m.snippets[i] s)
      { s with shortcut := unusedShortcut s.shortcut m.snippets }
    rw [happend, takenAfter, if_pos htaken, if_pos htaken, if_pos rfl]
    exact ⟨List.map_append, List.length_append⟩

theorem mem_add_of_ne {decide : SnippetDecision} {x : Snippet} (hx : x ∈ m.snippets)
    (hne : s.shortcut ≠ x.shortcut) : x ∈ (m.add ids decide s).snippets := by
  have hstep := add_step ids m decide s
  generalize m.add ids decide s = m' at hstep ⊢
  cases hstep with
  | added _ =>
    obtain ⟨id, issued, happend⟩ := append_eq ids m s
    rw [happend]
    exact List.mem_append_left _ hx
  | refused _ _ _ => exact hx
  | @replaced i hi hshortcut _ =>
    obtain ⟨id, issued, hreplace⟩ := replace_eq ids (m.asked m.snippets[i] s) i s
    rw [hreplace]
    obtain ⟨j, hj, rfl⟩ := List.mem_iff_getElem.1 hx
    have hij : i ≠ j := by
      rintro rfl
      exact hne hshortcut.symm
    refine List.mem_iff_getElem?.2 ⟨j, ?_⟩
    exact (List.getElem?_set_ne hij).trans (List.getElem?_eq_getElem hj)
  | @renamed i _ _ _ =>
    obtain ⟨id, issued, happend⟩ := append_eq ids (m.asked m.snippets[i] s)
      { s with shortcut := unusedShortcut s.shortcut m.snippets }
    rw [happend]
    exact List.mem_append_left _ hx

theorem exists_mem_add {decide : SnippetDecision} (hfree : s.shortcut ∉ shortcuts m.snippets) :
    ∃ id, { s with id } ∈ (m.add ids decide s).snippets := by
  have hstep := add_step ids m decide s
  generalize m.add ids decide s = m' at hstep ⊢
  have hknown {i : Nat} (hi : i < m.snippets.length) : m.snippets[i].shortcut ≠ s.shortcut :=
    fun hshortcut => hfree (List.mem_map.2 ⟨m.snippets[i], List.getElem_mem hi, hshortcut⟩)
  cases hstep with
  | added _ =>
    obtain ⟨id, issued, happend⟩ := append_eq ids m s
    refine ⟨id, ?_⟩
    rw [happend]
    exact List.mem_append_right _ List.mem_cons_self
  | refused hi hshortcut _ => exact absurd hshortcut (hknown hi)
  | replaced hi hshortcut _ => exact absurd hshortcut (hknown hi)
  | renamed hi hshortcut _ => exact absurd hshortcut (hknown hi)

end Step

theorem byNames (ids : IdSource) (policy : ConflictPolicy) :
    ByNames policy (add ids fun _ _ _ => policy) (·.conflicts.length) (shortcuts ·.snippets)
      (·.shortcut) where
  names_add m s x := by
    have hnames : shortcuts (m.add ids (fun _ _ _ => policy) s).snippets =
        takenAfter policy (shortcuts m.snippets) s.shortcut := add_shortcuts.1
    rw [hnames]
  conflicts_add m s := add_shortcuts.2

/-- The conflicts are those with snippets that existed, and all others are in under their own shortcuts. -/
structure MeetsOnly (existing incoming : List Snippet) (merged : SnippetMerge) : Prop where
  conflicts : merged.report.conflicts = (shortcuts incoming).countP (· ∈ shortcuts existing)
  new : ∀ s ∈ incoming, s.shortcut ∉ shortcuts existing → ∃ id, { s with id } ∈ merged.snippets

end SnippetMerge

namespace VariableMerge

section Step

variable (policy : ConflictPolicy) (m : VariableMerge) (name value : Text)

theorem add_names :
    (∀ x, x ∈ (m.add (fun _ _ _ _ => policy) name value).vars.names ↔
        x ∈ takenAfter policy m.vars.names name) ∧
      (m.add (fun _ _ _ _ => policy) name value).conflicts.length =
        m.conflicts.length + if name ∈ m.vars.names then 1 else 0 := by
  have hstep := add_step (fun _ _ _ _ => policy) m name value
  generalize m.add (fun _ _ _ _ => policy) name value = m' at hstep ⊢
  have hset (x free : Text) : x ∈ (m.vars.insert free value).names ↔ x ∈ m.vars.names ++ [free] := by
    rw [Dictionary.mem_names_insert, List.mem_append, List.mem_singleton, or_comm]
  cases hstep with
  | added hfree =>
    rw [takenAfter, if_neg hfree, if_neg hfree]
    exact ⟨fun x => hset x name, rfl⟩
  | refused hold hdecide =>
    have htaken := Dictionary.mem_names_of_find? hold
    obtain rfl : policy = .keepExisting := hdecide
    rw [takenAfter, if_pos htaken, if_pos htaken]
    exact ⟨fun _ => Iff.rfl, List.length_append⟩
  | replaced hold hdecide =>
    have htaken := Dictionary.mem_names_of_find? hold
    obtain rfl : policy = .keepNew := hdecide
    rw [takenAfter, if_pos htaken, if_pos htaken]
    refine ⟨fun x => Dictionary.mem_names_insert.trans (or_iff_right_of_imp ?_), List.length_append⟩
    rintro rfl
    exact htaken
  | renamed hold hdecide =>
    have htaken := Dictionary.mem_names_of_find? hold
    obtain rfl : policy = .keepBoth := hdecide
    rw [takenAfter, if_pos htaken, if_pos htaken, if_pos rfl]
    exact ⟨fun x => hset x _, List.length_append⟩

variable {m name value}

theorem find?_add_of_ne {decide : VariableDecision} {x v : Text} (hx : m.vars.find? x = some v)
    (hne : name ≠ x) : (m.add decide name value).vars.find? x = some v := by
  have hset (free : Text) (hfree : x ≠ free) : (m.vars.insert free value).find? x = some v := by
    rw [Dictionary.find?_insert, if_neg hfree]
    exact hx
  have hstep := add_step decide m name value
  generalize m.add decide name value = m' at hstep ⊢
  cases hstep with
  | added _ => exact hset name hne.symm
  | refused _ _ => exact hx
  | replaced _ _ => exact hset name hne.symm
  | renamed _ _ =>
    refine hset _ ?_
    rintro rfl
    exact unusedSuffix_not_mem name m.vars.names (Dictionary.mem_names_of_find? hx)

theorem find?_add {decide : VariableDecision} (hfree : name ∉ m.vars.names) :
    (m.add decide name value).vars.find? name = some value := by
  have hstep := add_step decide m name value
  generalize m.add decide name value = m' at hstep ⊢
  cases hstep with
  | added _ => exact Dictionary.find?_insert.trans (if_pos rfl)
  | refused hold _ => exact absurd (Dictionary.mem_names_of_find? hold) hfree
  | replaced hold _ => exact absurd (Dictionary.mem_names_of_find? hold) hfree
  | renamed hold _ => exact absurd (Dictionary.mem_names_of_find? hold) hfree

end Step

theorem byNames (policy : ConflictPolicy) :
    ByNames policy
      (fun (m : VariableMerge) (e : Text × Text) => m.add (fun _ _ _ _ => policy) e.1 e.2)
      (·.conflicts.length) (·.vars.names) (·.1) where
  names_add m e := (add_names policy m e.1 e.2).1
  conflicts_add m e := (add_names policy m e.1 e.2).2

/-- The conflicts are those with names that existed, and all others are in under their own names. -/
structure MeetsOnly (existing incoming : Variables) (merged : VariableMerge) : Prop where
  conflicts : merged.report.conflicts = incoming.names.countP (· ∈ existing.names)
  new : ∀ name value, (name, value) ∈ incoming.entries → name ∉ existing.names →
    merged.vars.find? name = some value

end VariableMerge

/-- With one policy throughout, conflicts are the collisions with entries that existed unless keeping both
gives one a name that another one behind it comes with. Variables come in by their names, where what is
given is the first free number among those that existed. -/
theorem conflicts_are_collisions_iff (ids : IdSource) (issued : List Text) (policy : ConflictPolicy) :
    (∀ existing incoming : List Snippet, (Snippet.shortcuts incoming).Nodup →
      (SnippetMerge.MeetsOnly existing incoming
          (mergeSnippets ids issued (fun _ _ _ => policy) existing incoming) ↔
        (policy = .keepBoth →
          LeavesFree (Snippet.shortcuts existing) [] (Snippet.shortcuts incoming)))) ∧
    ∀ existing incoming : Variables,
      (VariableMerge.MeetsOnly existing incoming
          (mergeVariables (fun _ _ _ _ => policy) existing incoming) ↔
        (policy = .keepBoth → ∀ name ∈ incoming.names, name ∈ existing.names →
          unusedSuffix name existing.names ∉ incoming.names)) := by
  constructor
  · intro existing incoming hnodup
    rw [← collisions_eq_iff hnodup]
    have hconflicts : (mergeSnippets ids issued (fun _ _ _ => policy) existing incoming).report.conflicts =
        collisions policy (Snippet.shortcuts existing) (Snippet.shortcuts incoming) :=
      (SnippetMerge.byNames ids policy).conflicts_foldl.trans (Nat.zero_add _)
    constructor
    · intro hmeets
      exact hconflicts.symm.trans hmeets.conflicts
    · intro hcount
      constructor
      · exact hconflicts.trans hcount
      · intro s hs hnew
        refine (SnippetMerge.byNames ids policy).holds_foldl
          (fun m s => ∃ id, { s with id } ∈ m.snippets) (m := ⟨existing, 0, [], issued⟩)
          (fun m s hfree => SnippetMerge.exists_mem_add hfree) (fun m s s' hs hne => ?_) hnodup
          (List.Subset.refl _) hcount hs hnew
        obtain ⟨id, hid⟩ := hs
        exact ⟨id, SnippetMerge.mem_add_of_ne hid hne⟩
  · intro existing incoming
    have hrising : ([] ++ incoming.names).Pairwise (· < ·) := List.pairwise_map.2 incoming.rising
    have hfree : LeavesFree existing.names [] incoming.names ↔ ∀ name ∈ incoming.names,
        name ∈ existing.names → unusedSuffix name existing.names ∉ incoming.names :=
      leavesFree_iff_of_rising hrising
    rw [← hfree, ← collisions_eq_iff Dictionary.names_nodup]
    have hconflicts : (mergeVariables (fun _ _ _ _ => policy) existing incoming).report.conflicts =
        collisions policy existing.names incoming.names :=
      (VariableMerge.byNames policy).conflicts_foldl.trans (Nat.zero_add _)
    constructor
    · intro hmeets
      exact hconflicts.symm.trans hmeets.conflicts
    · intro hcount
      constructor
      · exact hconflicts.trans hcount
      · intro name value he hnew
        exact (VariableMerge.byNames policy).holds_foldl
          (fun m e => m.vars.find? e.1 = some e.2) (m := ⟨existing, 0, []⟩)
          (fun m e hfree => VariableMerge.find?_add hfree)
          (fun m e e' he hne => VariableMerge.find?_add_of_ne he hne) Dictionary.names_nodup
          (List.Subset.refl _) hcount he hnew

namespace NumberedName

def ids : IdSource := .guessing Text.ofNat

def snippet (shortcut text : Text) : Snippet := ⟨shortcut, shortcut, text, none⟩

def incoming : List Snippet := [snippet ['a', '_', '1'] ['2'], snippet ['a'] ['1']]

/-- What keeping both calls the second `a` is what another entry is called. -/
theorem number_first_meets_only : (Snippet.shortcuts incoming).Nodup ∧
    SnippetMerge.MeetsOnly [snippet ['a'] ['0']] incoming
      (mergeSnippets ids [] (fun _ _ _ => .keepBoth) [snippet ['a'] ['0']] incoming) := by
  have hnodup : (Snippet.shortcuts incoming).Nodup := by decide
  refine ⟨hnodup, ?_⟩
  rw [(conflicts_are_collisions_iff ids [] .keepBoth).1 _ _ hnodup]
  decide

def existing : Variables := .ofList [(['a'], ['0'])]

def brought : Variables := .ofList [(['a'], ['1']), (['a', '_', '1'], ['2'])]

def merged : VariableMerge := mergeVariables (fun _ _ _ _ => .keepBoth) existing brought

/-- One name existed, and there are two conflicts: the second is with the name that the first led to. -/
theorem counterexample_number_taken :
    ¬VariableMerge.MeetsOnly existing brought merged ∧
    brought.names.countP (· ∈ existing.names) = 1 ∧ merged.report = ⟨2, 2⟩ ∧
    merged.vars.entries = [(['a'], ['0']), (['a', '_', '1'], ['1']),
      (['a', '_', '1', '_', '1'], ['2'])] := by
  refine ⟨fun hmeets => ?_, by decide, by decide, by decide⟩
  have hconflicts : 2 = 1 := hmeets.conflicts
  exact absurd hconflicts (by decide)

end NumberedName
end SnippetExpansion
