/-!
# Insertion-ordered tables

A table is a list of pairs in which a key keeps the place where it was first
written.  Objects, alias bindings and the per-alias stores of a compilation are
all tables: the order of first writing is what a reader of the output sees, and
writing a key again changes its value and nothing else.

* `find?_insert_self`, `find?_insert_of_ne`, `mem_insert` --- what a write changes;
* `keys_insert`, `insert_of_notMem` --- a write keeps the order of the keys and adds at the end;
* `find?_erase_self`, `find?_erase_of_ne`, `erase_eq_self`, `erase_insert` --- what a removal
  changes;
* `find?_eq_none_iff`, `mem_of_find?`, `find?_of_mem` --- what a look-up says of the keys and
  entries.
-/

namespace GraphSearch
namespace Table

universe u v

variable {κ : Type u} {α : Type v} [DecidableEq κ]

/-! ## 1.  Operations -/

/-- The value written for `key`, if any. -/
def find? (key : κ) : List (κ × α) → Option α
  | [] => none
  | (k, a) :: rest => if k = key then some a else find? key rest

/-- Writes `value` for `key`: in place when the key is there, at the end otherwise. -/
def insert (key : κ) (value : α) : List (κ × α) → List (κ × α)
  | [] => [(key, value)]
  | (k, a) :: rest => if k = key then (k, value) :: rest else (k, a) :: insert key value rest

/-- The table without `key`. -/
def erase (key : κ) (table : List (κ × α)) : List (κ × α) :=
  table.filter fun entry => entry.1 ≠ key

/-- The keys, in the order of their first writing. -/
def keys (table : List (κ × α)) : List κ := table.map Prod.fst

/-! ## 2.  What a write changes -/

@[simp] theorem find?_nil (key : κ) : find? key ([] : List (κ × α)) = none := rfl

@[simp] theorem find?_insert_self (key : κ) (value : α) (table : List (κ × α)) :
    find? key (insert key value table) = some value := by
  induction table with
  | nil => simp [insert, find?]
  | cons entry rest ih =>
    obtain ⟨k, a⟩ := entry
    by_cases h : k = key <;> simp [insert, find?, h, ih]

theorem find?_insert_of_ne {key other : κ} (h : other ≠ key) (value : α)
    (table : List (κ × α)) :
    find? other (insert key value table) = find? other table := by
  induction table with
  | nil => simp [insert, find?, h.symm]
  | cons entry rest ih =>
    obtain ⟨k, a⟩ := entry
    by_cases hk : k = key
    · subst hk; simp [insert, find?, h.symm]
    · by_cases ho : k = other
      · subst ho; simp [insert, find?, hk]
      · simp [insert, find?, hk, ho, ih]

theorem keys_insert (key : κ) (value : α) (table : List (κ × α)) :
    keys (insert key value table) =
      if key ∈ keys table then keys table else keys table ++ [key] := by
  induction table with
  | nil => simp [insert, keys]
  | cons entry rest ih =>
    obtain ⟨k, a⟩ := entry
    by_cases hk : k = key
    · simp [insert, keys, hk]
    · simp only [keys] at ih
      simp only [insert, hk, if_false, keys, List.map_cons, ih, List.mem_cons]
      by_cases hm : key ∈ rest.map Prod.fst <;> simp [hm, Ne.symm hk]

/-- A key that is not there is written at the end. -/
theorem insert_of_notMem {key : κ} {table : List (κ × α)} (h : key ∉ keys table) (value : α) :
    insert key value table = table ++ [(key, value)] := by
  induction table with
  | nil => rfl
  | cons entry rest ih =>
    obtain ⟨k, a⟩ := entry
    simp only [keys, List.map_cons, List.mem_cons, not_or] at h
    have hrest : insert key value rest = rest ++ [(key, value)] := ih h.2
    rw [insert, if_neg (Ne.symm h.1), hrest, List.cons_append]

theorem mem_insert {key k : κ} {value a : α} {table : List (κ × α)}
    (h : (k, a) ∈ insert key value table) : a = value ∨ (k, a) ∈ table := by
  induction table with
  | nil => simp_all [insert]
  | cons entry rest ih =>
    obtain ⟨k', a'⟩ := entry
    by_cases hk : k' = key
    · simp only [insert, hk, if_true, List.mem_cons, Prod.mk.injEq] at h ⊢
      rcases h with ⟨-, rfl⟩ | h
      · exact Or.inl rfl
      · exact Or.inr (Or.inr h)
    · simp only [insert, hk, if_false, List.mem_cons] at h ⊢
      rcases h with h | h
      · exact Or.inr (Or.inl h)
      · exact (ih h).imp_right Or.inr

theorem find?_eq_none_iff {key : κ} {table : List (κ × α)} :
    find? key table = none ↔ key ∉ keys table := by
  induction table with
  | nil => simp [keys]
  | cons entry rest ih =>
    obtain ⟨k, a⟩ := entry
    simp only [keys] at ih
    by_cases hk : k = key
    · simp [find?, keys, hk]
    · simp [find?, keys, hk, Ne.symm hk, ih]

theorem mem_of_find? {key : κ} {value : α} {table : List (κ × α)}
    (h : find? key table = some value) : (key, value) ∈ table := by
  induction table with
  | nil => simp at h
  | cons entry rest ih =>
    obtain ⟨k, a⟩ := entry
    by_cases hk : k = key
    · simp_all [find?]
    · simp only [find?, hk, if_false] at h
      exact List.mem_cons_of_mem _ (ih h)

/-- Where no key is written twice, every entry is found. -/
theorem find?_of_mem {key : κ} {value : α} {table : List (κ × α)} (hkeys : (keys table).Nodup)
    (h : (key, value) ∈ table) : find? key table = some value := by
  induction table with
  | nil => cases h
  | cons entry rest ih =>
    obtain ⟨k, a⟩ := entry
    simp only [keys, List.map_cons, List.nodup_cons] at hkeys
    rcases List.mem_cons.mp h with heq | h
    · obtain ⟨rfl, rfl⟩ := Prod.mk.inj heq
      rw [find?, if_pos rfl]
    · have hk : k ≠ key := fun heq => hkeys.1 (heq ▸ List.mem_map_of_mem h)
      rw [find?, if_neg hk]
      exact ih hkeys.2 h

/-! ## 3.  What a removal changes -/

@[simp] theorem find?_erase_self (key : κ) (table : List (κ × α)) :
    find? key (erase key table) = none := by
  induction table with
  | nil => rfl
  | cons entry rest ih =>
    obtain ⟨k, a⟩ := entry
    by_cases hk : k = key
    · simpa [erase, hk] using ih
    · simpa [erase, find?, hk] using ih

theorem find?_erase_of_ne {key other : κ} (h : other ≠ key) (table : List (κ × α)) :
    find? other (erase key table) = find? other table := by
  induction table with
  | nil => rfl
  | cons entry rest ih =>
    obtain ⟨k, a⟩ := entry
    by_cases hk : k = key
    · subst hk; simpa [erase, find?, h.symm] using ih
    · by_cases ho : k = other
      · subst ho; simp [erase, find?, hk]
      · simpa [erase, find?, hk, ho] using ih

/-- Removing a key that is not there changes nothing. -/
theorem erase_eq_self {key : κ} {table : List (κ × α)} (h : key ∉ keys table) :
    erase key table = table := by
  rw [erase, List.filter_eq_self]
  intro entry hentry
  have : entry.1 ≠ key := fun he => h (he ▸ List.mem_map_of_mem hentry)
  simpa using this

/-- A write is undone by a removal when the key was not there. -/
theorem erase_insert {key : κ} {table : List (κ × α)} (h : key ∉ keys table) (value : α) :
    erase key (insert key value table) = table := by
  induction table with
  | nil => simp [insert, erase]
  | cons entry rest ih =>
    obtain ⟨k, a⟩ := entry
    simp only [keys, List.map_cons, List.mem_cons, not_or] at h
    have hrest : erase key (insert key value rest) = rest := ih h.2
    simpa [insert, erase, Ne.symm h.1] using hrest

end Table
end GraphSearch
