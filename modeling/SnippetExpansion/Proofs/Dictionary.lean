import SnippetExpansion.Dictionary

/-! # What a dictionary holds
A dictionary is known by the value it gives for each name. Setting or dropping a name changes what it
gives for that name and for no other. -/
namespace SnippetExpansion

variable {α : Type}

namespace Entries

theorem lookup_cons (name key : Text) (value : α) (rest : List (Text × α)) :
    ((key, value) :: rest).lookup name = if name = key then some value else rest.lookup name := by
  rw [List.lookup_cons]
  by_cases hname : name = key
  · rw [if_pos hname, beq_iff_eq.2 hname]
  · rw [if_neg hname, beq_eq_false_iff_ne.2 hname]

theorem lookup_insert (name other : Text) (value : α) (entries : List (Text × α)) :
    (insert name value entries).lookup other =
      if other = name then some value else entries.lookup other := by
  induction entries with
  | nil => exact lookup_cons other name value []
  | cons head rest ih =>
    obtain ⟨key, old⟩ := head
    rw [insert]
    split
    · exact lookup_cons other name value _
    · split
      · next heq =>
        simp only [lookup_cons, ← heq]
        split <;> rfl
      · next hne =>
        rw [lookup_cons, lookup_cons, ih]
        by_cases hother : other = name
        · have hkey : other ≠ key := hother ▸ hne
          simp only [if_pos hother, if_neg hkey]
        · simp only [if_neg hother]

theorem lookup_filter (name other : Text) (entries : List (Text × α)) :
    (entries.filter fun e => e.1 ≠ name).lookup other =
      if other = name then none else entries.lookup other := by
  induction entries with
  | nil => exact (ite_self none).symm
  | cons head rest ih =>
    obtain ⟨key, old⟩ := head
    by_cases hkey : key = name
    · rw [List.filter_cons_of_neg (by simpa using hkey), ih, lookup_cons, hkey]
      split <;> rfl
    · rw [List.filter_cons_of_pos (by simpa using hkey), lookup_cons, lookup_cons, ih]
      by_cases hother : other = key
      · have hname : other ≠ name := hother ▸ hkey
        simp only [if_pos hother, if_neg hname]
      · simp only [if_neg hother]

theorem mem_keys_iff {name : Text} {entries : List (Text × α)} :
    name ∈ entries.map (·.1) ↔ (entries.lookup name).isSome := by
  induction entries with
  | nil => exact iff_of_false List.not_mem_nil Bool.false_ne_true
  | cons head rest ih =>
    obtain ⟨key, old⟩ := head
    rw [List.map_cons, List.mem_cons, ih, lookup_cons]
    by_cases hname : name = key
    · rw [if_pos hname]
      exact iff_of_true (.inl hname) rfl
    · rw [if_neg hname]
      exact or_iff_right hname

end Entries

namespace Dictionary

variable {d : Dictionary α} {name other : Text} {value : α}

theorem find?_insert : (d.insert name value).find? other =
    if other = name then some value else d.find? other :=
  Entries.lookup_insert name other value d.entries

theorem find?_erase : (d.erase name).find? other = if other = name then none else d.find? other :=
  Entries.lookup_filter name other d.entries

theorem mem_names_iff : name ∈ d.names ↔ (d.find? name).isSome := Entries.mem_keys_iff

theorem mem_names_of_find? (h : d.find? name = some value) : name ∈ d.names :=
  mem_names_iff.2 (Option.isSome_of_eq_some h)

theorem names_nodup : d.names.Nodup := by
  refine List.pairwise_map.2 (d.rising.imp fun {a b} hlt heq => ?_)
  exact List.lt_irrefl b.1 (heq ▸ hlt)

theorem mem_names_insert : other ∈ (d.insert name value).names ↔ other = name ∨ other ∈ d.names := by
  rw [mem_names_iff, find?_insert, mem_names_iff]
  by_cases hother : other = name
  · rw [if_pos hother]
    exact iff_of_true rfl (.inl hother)
  · rw [if_neg hother]
    exact (or_iff_right hother).symm

theorem mem_names_erase : other ∈ (d.erase name).names ↔ other ≠ name ∧ other ∈ d.names := by
  rw [mem_names_iff, find?_erase, mem_names_iff]
  by_cases hother : other = name
  · rw [if_pos hother]
    exact iff_of_false Bool.false_ne_true fun h => h.1 hother
  · rw [if_neg hother]
    exact (and_iff_right hother).symm

theorem length_insert_of_mem (h : name ∈ d.names) :
    (d.insert name value).entries.length = d.entries.length := by
  have hperm : (d.insert name value).names.Perm d.names := by
    rw [List.perm_ext_iff_of_nodup names_nodup names_nodup]
    intro x
    rw [mem_names_insert]
    constructor
    · rintro (rfl | hx)
      · exact h
      · exact hx
    · exact .inr
  simpa only [names, List.length_map] using hperm.length_eq

theorem length_insert_of_not_mem (h : name ∉ d.names) :
    (d.insert name value).entries.length = d.entries.length + 1 := by
  have hperm : (d.insert name value).names.Perm (name :: d.names) := by
    rw [List.perm_ext_iff_of_nodup names_nodup (List.nodup_cons.2 ⟨h, names_nodup⟩)]
    intro x
    rw [mem_names_insert, List.mem_cons]
  simpa only [names, List.length_map, List.length_cons] using hperm.length_eq

end Dictionary
end SnippetExpansion
