import Mathlib.Data.List.Forall2
/-!
# Results and rejections

What is known when a computation that may be rejected has a result.

* `bind_eq_ok`, `map_eq_ok`, `mapError_eq_ok`: so have its parts;
* `exists_eq_ok`: that there is one is decided by running it;
* `mapM_eq_ok`, `exists_of_mem_mapM`: and each item of a list has one of its own, in order;
* `mapM_eq_ok_iff_eq_map`, `mapM_eq_some_iff_eq_map`: and the list is given back by what its
  results are written as;
* `exists_forall₂_iff`, `exists_eq_map_iff`: there are such results when there is one to each
  item;
* `exists_mem_of_forall₂`: the result of an item is one of them.

And what is known when it is rejected:

* `bind_eq_error`, `map_eq_error`: one of its parts is;
* `exists_of_mapM_eq_error`: and of a list, one item is.
-/

namespace GraphSearch.Results

variable {ε α β : Type}

theorem bind_eq_ok {result : Except ε α} {next : α → Except ε β} {b : β} :
    (result >>= next) = .ok b ↔ ∃ a, result = .ok a ∧ next a = .ok b := by
  cases result with
  | ok a =>
    constructor
    · intro h
      exact ⟨a, rfl, h⟩
    · rintro ⟨_, ⟨⟩, h⟩
      exact h
  | error rejection =>
    constructor
    · intro h
      cases h
    · rintro ⟨_, ⟨⟩, _⟩

theorem pure_eq_ok {a b : α} : (pure a : Except ε α) = .ok b ↔ a = b := by
  constructor
  · rintro ⟨⟩
    rfl
  · rintro rfl
    rfl

theorem map_eq_ok {f : α → β} {result : Except ε α} {b : β} :
    (f <$> result) = .ok b ↔ ∃ a, result = .ok a ∧ f a = b := by
  cases result with
  | ok a =>
    constructor
    · rintro ⟨⟩
      exact ⟨a, rfl, rfl⟩
    · rintro ⟨_, ⟨⟩, rfl⟩
      rfl
  | error rejection =>
    constructor
    · intro h
      cases h
    · rintro ⟨_, ⟨⟩, _⟩

theorem mapError_eq_ok {ε' : Type} {f : ε → ε'} {result : Except ε α} {a : α} :
    result.mapError f = .ok a ↔ result = .ok a := by
  cases result with
  | ok b => exact ⟨fun h => by cases h; rfl, fun h => by cases h; rfl⟩
  | error rejection =>
    constructor
    · intro h
      cases h
    · intro h
      cases h

theorem exists_eq_ok {result : Except ε α} (h : result.isOk = true) :
    ∃ a, result = .ok a := by
  cases result with
  | ok a => exact ⟨a, rfl⟩
  | error rejection => exact absurd h (by simp [Except.isOk, Except.toBool])

/-- A list of results is there when each result is. -/
theorem mapM_eq_ok {f : α → Except ε β} {items : List α} {results : List β} :
    items.mapM f = .ok results ↔ List.Forall₂ (fun a b => f a = .ok b) items results := by
  induction items generalizing results with
  | nil =>
    rw [List.mapM_nil, pure_eq_ok, List.forall₂_nil_left_iff]
    exact eq_comm
  | cons a items ih =>
    simp only [List.mapM_cons, bind_eq_ok, pure_eq_ok, ih, List.forall₂_cons_left_iff]
    constructor
    · rintro ⟨b, hb, others, hothers, rfl⟩
      exact ⟨b, others, hb, hothers, rfl⟩
    · rintro ⟨b, others, hb, hothers, rfl⟩
      exact ⟨b, hb, others, hothers, rfl⟩

/-- When an item is what its result is written as, and nothing else has that result, a list is
what its results are written as. -/
theorem mapM_eq_ok_iff_eq_map {f : α → Except ε β} {written : β → α}
    (hwritten : ∀ a b, f a = .ok b ↔ a = written b) {items : List α} {results : List β} :
    items.mapM f = .ok results ↔ items = results.map written := by
  have hitems : List.Forall₂ (fun a b => f a = .ok b) items results ↔
      List.Forall₂ (fun a b => a = written b) items results := by
    simp only [hwritten]
  rw [mapM_eq_ok, hitems, ← List.forall₂_map_right_iff (R := Eq), List.forall₂_eq_eq_eq]

/-- A list of results can be put together from a result for each item. -/
theorem exists_forall₂_iff {R : α → β → Prop} {items : List α} :
    (∃ results, List.Forall₂ R items results) ↔ ∀ a ∈ items, ∃ b, R a b := by
  induction items with
  | nil => simp
  | cons a items ih =>
    rw [List.forall_mem_cons, ← ih]
    constructor
    · rintro ⟨_, _ | ⟨hfirst, hothers⟩⟩
      exact ⟨⟨_, hfirst⟩, _, hothers⟩
    · rintro ⟨⟨b, hfirst⟩, others, hothers⟩
      exact ⟨b :: others, .cons hfirst hothers⟩

theorem exists_mem_of_forall₂ {R : α → β → Prop} {items : List α} {results : List β}
    (h : List.Forall₂ R items results) {a : α} (ha : a ∈ items) : ∃ b ∈ results, R a b := by
  induction h with
  | nil => cases ha
  | cons hfirst _ ih =>
    rcases List.mem_cons.mp ha with rfl | ha
    · exact ⟨_, List.mem_cons_self, hfirst⟩
    · obtain ⟨b, hb, hresult⟩ := ih ha
      exact ⟨b, List.mem_cons_of_mem _ hb, hresult⟩

theorem exists_eq_map_iff {written : β → α} {items : List α} :
    (∃ results : List β, items = results.map written) ↔ ∀ a ∈ items, ∃ b, a = written b := by
  rw [← exists_forall₂_iff]
  refine exists_congr fun results => ?_
  rw [← List.forall₂_map_right_iff (R := Eq), List.forall₂_eq_eq_eq]

/-- Every result of a list is that of one of its items. -/
theorem exists_of_mem_mapM {f : α → Except ε β} {items : List α} {results : List β}
    (h : items.mapM f = .ok results) {b : β} (hb : b ∈ results) : ∃ a ∈ items, f a = .ok b := by
  have hitems : List.Forall₂ (fun b a => f a = .ok b) results items := (mapM_eq_ok.mp h).flip
  exact exists_mem_of_forall₂ hitems hb

theorem mapM_eq_some_iff_eq_map {f : α → Option β} {written : β → α}
    (hwritten : ∀ a b, f a = some b ↔ a = written b) {items : List α} {results : List β} :
    items.mapM f = some results ↔ items = results.map written := by
  induction items generalizing results with
  | nil =>
    rw [List.mapM_nil, eq_comm (a := ([] : List α)), List.map_eq_nil_iff]
    exact Option.some_inj.trans eq_comm
  | cons a items ih =>
    have hcons : (a :: items).mapM f = some results ↔
        ∃ b others, a = written b ∧ items = others.map written ∧ results = b :: others := by
      simp only [List.mapM_cons, Option.bind_eq_bind, Option.bind_eq_some_iff, hwritten, ih,
        Option.pure_def, Option.some_inj]
      constructor
      · rintro ⟨b, hb, others, hothers, rfl⟩
        exact ⟨b, others, hb, hothers, rfl⟩
      · rintro ⟨b, others, hb, hothers, rfl⟩
        exact ⟨b, hb, others, hothers, rfl⟩
    rw [hcons]
    constructor
    · rintro ⟨b, others, rfl, rfl, rfl⟩
      rfl
    · intro h
      cases results with
      | nil => cases h
      | cons b others =>
        rw [List.map_cons, List.cons.injEq] at h
        exact ⟨b, others, h.1, h.2, rfl⟩

theorem bind_eq_error {result : Except ε α} {next : α → Except ε β} {rejection : ε} :
    (result >>= next) = .error rejection ↔
      result = .error rejection ∨ ∃ a, result = .ok a ∧ next a = .error rejection := by
  cases result with
  | ok a =>
    constructor
    · intro h
      exact .inr ⟨a, rfl, h⟩
    · rintro (⟨⟨⟩⟩ | ⟨_, ⟨⟩, h⟩)
      exact h
  | error rejection' =>
    constructor
    · rintro ⟨⟩
      exact .inl rfl
    · rintro (⟨⟨⟩⟩ | ⟨_, ⟨⟩, _⟩)
      rfl

theorem map_eq_error {f : α → β} {result : Except ε α} {rejection : ε} :
    result.map f = .error rejection ↔ result = .error rejection := by
  cases result with
  | ok a => constructor <;> rintro ⟨⟩
  | error rejection' =>
    constructor
    · rintro ⟨⟩
      rfl
    · rintro ⟨⟩
      rfl

/-- A list is rejected for one of its items. -/
theorem exists_of_mapM_eq_error {f : α → Except ε β} {items : List α} {rejection : ε}
    (h : items.mapM f = .error rejection) : ∃ a ∈ items, f a = .error rejection := by
  induction items with
  | nil =>
    rw [List.mapM_nil] at h
    cases h
  | cons a items ih =>
    rw [List.mapM_cons, bind_eq_error] at h
    rcases h with h | ⟨_, -, h⟩
    · exact ⟨a, List.mem_cons_self, h⟩
    · rcases bind_eq_error.mp h with h | ⟨_, -, h⟩
      · obtain ⟨a', hmem, h⟩ := ih h
        exact ⟨a', List.mem_cons_of_mem _ hmem, h⟩
      · cases h

end GraphSearch.Results
