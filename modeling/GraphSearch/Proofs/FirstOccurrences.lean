import Mathlib.Data.List.Nodup
/-!
# First occurrences

`List.eraseDups` keeps each item of a list where it occurs first.

* `KeepsFirst`, `keepsFirst_eraseDups`: which items are kept, and in which order;
* `KeepsFirst.sublist`: what occurs earlier is kept earlier;
* `eraseDups_of_nodup`, `eraseDups_eq_nil_iff`: lists of which all is kept, or nothing;
* `eraseDups_eraseDups_append`, `eraseDups_prefix_append`: two lists, one after the other.
-/

namespace GraphSearch

/-! ## 1.  What is kept -/

/-- The items of `kept` are those of `items`, each once and in the order of its first occurrence. -/
structure KeepsFirst {α : Type} [BEq α] (items kept : List α) : Prop where
  mem_iff : ∀ item, item ∈ kept ↔ item ∈ items
  nodup : kept.Nodup
  ordered : kept.Pairwise fun x y => items.idxOf x < items.idxOf y

section

variable {α : Type} [BEq α] [LawfulBEq α] {items kept : List α} {x y : α}

/-- Which of two items comes first does not depend on the others. -/
theorem idxOf_lt_of_filter {p : α → Bool} (hx : p x = true) (hy : p y = true)
    (h : (items.filter p).idxOf x < (items.filter p).idxOf y) : items.idxOf x < items.idxOf y := by
  induction items with
  | nil => exact h
  | cons item items ih =>
    by_cases hitem : p item = true
    · rw [List.filter_cons_of_pos hitem] at h
      by_cases hitemy : item = y
      · rw [hitemy, List.idxOf_cons_self] at h
        exact absurd h (Nat.not_lt_zero _)
      · by_cases hitemx : item = x
        · rw [hitemx, List.idxOf_cons_self, ← hitemx, List.idxOf_cons_ne _ hitemy]
          exact Nat.succ_pos _
        · rw [List.idxOf_cons_ne _ hitemx, List.idxOf_cons_ne _ hitemy] at h ⊢
          exact Nat.succ_lt_succ (ih (Nat.lt_of_succ_lt_succ h))
    · have hitemx : item ≠ x := fun heq => hitem (heq ▸ hx)
      have hitemy : item ≠ y := fun heq => hitem (heq ▸ hy)
      rw [List.filter_cons_of_neg hitem] at h
      rw [List.idxOf_cons_ne _ hitemx, List.idxOf_cons_ne _ hitemy]
      exact Nat.succ_lt_succ (ih h)

theorem pairwise_eraseDups (items : List α) :
    items.eraseDups.Pairwise fun x y => items.idxOf x < items.idxOf y := by
  match items with
  | [] => exact .nil
  | item :: items =>
    have hlength := List.length_filter_le (fun other => !other == item) items
    have hothers : ∀ other ∈ (items.filter fun other => !other == item).eraseDups,
        item ≠ other := by
      rintro other hother rfl
      simpa using (List.mem_filter.mp (List.mem_eraseDups.mp hother)).2
    rw [List.eraseDups_cons]
    refine .cons (fun other hother => ?_) ?_
    · rw [List.idxOf_cons_self, List.idxOf_cons_ne _ (hothers other hother)]
      exact Nat.succ_pos _
    · refine (pairwise_eraseDups _).imp_of_mem fun {x y} hx hy hlt => ?_
      rw [List.idxOf_cons_ne _ (hothers x hx), List.idxOf_cons_ne _ (hothers y hy)]
      refine Nat.succ_lt_succ (idxOf_lt_of_filter ?_ ?_ hlt)
      · simpa using (hothers x hx).symm
      · simpa using (hothers y hy).symm
termination_by items.length
decreasing_by
  rw [List.length_cons]
  exact Nat.lt_succ_of_le hlength

theorem keepsFirst_eraseDups (items : List α) : KeepsFirst items items.eraseDups where
  mem_iff _ := List.mem_eraseDups
  nodup := (pairwise_eraseDups items).imp fun hlt => ne_of_apply_ne items.idxOf (Nat.ne_of_lt hlt)
  ordered := pairwise_eraseDups items

/-- What occurs earlier is kept earlier. -/
theorem KeepsFirst.sublist (h : KeepsFirst items kept) (hy : y ∈ items)
    (hlt : items.idxOf x < items.idxOf y) : [x, y].Sublist kept := by
  have hx : x ∈ items :=
    List.idxOf_lt_length_iff.mp (Nat.lt_of_lt_of_le hlt List.idxOf_le_length)
  obtain ⟨before, after, rfl⟩ := List.append_of_mem ((h.mem_iff x).mpr hx)
  have hordered := List.pairwise_append.mp h.ordered
  -- what is kept before `x` occurs before `x`, so `y` is kept after it
  have hafter : y ∈ after := by
    rcases List.mem_append.mp ((h.mem_iff y).mpr hy) with hbefore | hmem
    · exact absurd (hordered.2.2 y hbefore x List.mem_cons_self) (Nat.lt_asymm hlt)
    · rcases List.mem_cons.mp hmem with rfl | hmem
      · exact absurd hlt (Nat.lt_irrefl _)
      · exact hmem
  exact ((List.singleton_sublist.mpr hafter).cons_cons x).trans (List.sublist_append_right _ _)

theorem nodup_eraseDups (items : List α) : items.eraseDups.Nodup :=
  (keepsFirst_eraseDups items).nodup

end

/-! ## 2.  All or nothing is kept -/

theorem eraseDups_eq_nil_iff {α : Type} [BEq α] {items : List α} :
    items.eraseDups = [] ↔ items = [] := by
  cases items with
  | nil => simp
  | cons item items => simp [List.eraseDups_cons]

section

variable {α : Type} [BEq α] [LawfulBEq α] {items : List α}

theorem eraseDups_of_nodup (h : items.Nodup) : items.eraseDups = items := by
  induction items with
  | nil => rfl
  | cons item items ih =>
    obtain ⟨hitem, hitems⟩ := List.nodup_cons.mp h
    have hfilter : items.filter (fun other => !other == item) = items := by
      rw [List.filter_eq_self]
      intro other hother
      have hne : other ≠ item := by
        rintro rfl
        exact hitem hother
      simpa using hne
    rw [List.eraseDups_cons, hfilter, ih hitems]

/-! ## 3.  Two lists -/

/-- Repetitions may be dropped in the first of two lists before they are in both. -/
theorem eraseDups_eraseDups_append (items more : List α) :
    (items.eraseDups ++ more).eraseDups = (items ++ more).eraseDups := by
  have hremove : more.removeAll items.eraseDups = more.removeAll items := by
    rw [List.removeAll, List.removeAll]
    refine List.filter_congr fun item _ => ?_
    rw [Bool.eq_iff_iff]
    simp
  rw [List.eraseDups_append, List.eraseDups_append, hremove,
    eraseDups_of_nodup (nodup_eraseDups items)]

theorem eraseDups_prefix_append (items more : List α) :
    items.eraseDups <+: (items.eraseDups ++ more).eraseDups := by
  rw [eraseDups_eraseDups_append, List.eraseDups_append]
  exact List.prefix_append _ _

end

end GraphSearch
