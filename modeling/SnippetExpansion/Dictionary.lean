import SnippetExpansion.Text.Basic

/-!
# Dictionaries

A finite map from texts, kept as a list of entries in strictly rising order of names. The order is
that of code points. Two dictionaries with the same entries are equal.
-/
namespace SnippetExpansion

namespace Entries

def insert {α : Type} (name : Text) (value : α) : List (Text × α) → List (Text × α)
  | [] => [(name, value)]
  | (other, old) :: rest =>
    if name < other then (name, value) :: (other, old) :: rest
    else if name = other then (name, value) :: rest
    else (other, old) :: insert name value rest

def Rising {α : Type} (entries : List (Text × α)) : Prop :=
  entries.Pairwise fun a b => a.1 < b.1

theorem lt_of_not_lt_of_ne {a b : Text} (h : ¬a < b) (hne : a ≠ b) : b < a := by
  rcases List.le_iff_lt_or_eq.1 (List.not_lt.1 h) with hlt | heq
  · exact hlt
  · exact absurd heq.symm hne

theorem mem_insert {α : Type} {name : Text} {value : α} {entries : List (Text × α)}
    {e : Text × α} (h : e ∈ insert name value entries) : e = (name, value) ∨ e ∈ entries := by
  induction entries with
  | nil => simpa [insert] using h
  | cons head rest ih =>
    obtain ⟨other, old⟩ := head
    simp only [insert] at h
    split at h
    · simpa using h
    · split at h
      · rcases List.mem_cons.1 h with rfl | h
        · exact Or.inl rfl
        · exact Or.inr (List.mem_cons_of_mem _ h)
      · rcases List.mem_cons.1 h with rfl | h
        · exact Or.inr List.mem_cons_self
        · exact (ih h).imp_right (List.mem_cons_of_mem _)

theorem Rising.insert {α : Type} (name : Text) (value : α) {entries : List (Text × α)}
    (h : Rising entries) : Rising (insert name value entries) := by
  induction entries with
  | nil => simp [Entries.insert, Rising]
  | cons head rest ih =>
    obtain ⟨other, old⟩ := head
    have hrest : Rising rest := (List.pairwise_cons.1 h).2
    have hhead := (List.pairwise_cons.1 h).1
    simp only [Entries.insert]
    split
    · next hlt =>
      refine List.pairwise_cons.2 ⟨fun e he => ?_, h⟩
      rcases List.mem_cons.1 he with rfl | he
      · exact hlt
      · exact List.lt_trans hlt (hhead e he)
    · next hnlt =>
      split
      · next heq => subst heq; exact List.pairwise_cons.2 ⟨hhead, hrest⟩
      · next hne =>
        refine List.pairwise_cons.2 ⟨fun e he => ?_, ih hrest⟩
        rcases mem_insert he with rfl | he
        · exact lt_of_not_lt_of_ne hnlt hne
        · exact hhead e he

end Entries

structure Dictionary (α : Type) where
  entries : List (Text × α)
  rising : Entries.Rising entries

namespace Dictionary

variable {α : Type}

@[ext] theorem ext {d e : Dictionary α} (h : d.entries = e.entries) : d = e := by
  cases d; cases e; congr

instance [DecidableEq α] : DecidableEq (Dictionary α) := fun d e =>
  decidable_of_iff (d.entries = e.entries) ⟨ext, fun h => h ▸ rfl⟩

instance [Repr α] : Repr (Dictionary α) := ⟨fun d => reprPrec d.entries⟩

def empty : Dictionary α := ⟨[], List.Pairwise.nil⟩

instance : Inhabited (Dictionary α) := ⟨empty⟩

def find? (d : Dictionary α) (name : Text) : Option α := d.entries.lookup name

def contains (d : Dictionary α) (name : Text) : Bool := (d.find? name).isSome

def names (d : Dictionary α) : List Text := d.entries.map (·.1)

def insert (d : Dictionary α) (name : Text) (value : α) : Dictionary α :=
  ⟨Entries.insert name value d.entries, d.rising.insert name value⟩

def erase (d : Dictionary α) (name : Text) : Dictionary α :=
  ⟨d.entries.filter (fun e => e.1 ≠ name), d.rising.filter _⟩

/-- Of entries with one name the last counts. -/
def ofList (entries : List (Text × α)) : Dictionary α :=
  entries.foldl (fun d e => d.insert e.1 e.2) empty

end Dictionary
end SnippetExpansion
