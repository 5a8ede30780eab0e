import Mathlib.Logic.Function.Basic

/-! Items of several keys in one sequence: a run over all of them is, for every key, a run
over the items of that key in their order.
-/

namespace Foundation.Demultiplex

universe u v w

variable {α : Type u} {σ : Type v} {κ : Type w} {R : α → σ → σ → Prop}

/-- The runs of a step relation over a list of items. -/
inductive Steps (R : α → σ → σ → Prop) : List α → σ → σ → Prop where
  | nil (state : σ) : Steps R [] state state
  | cons {item rest first middle last} (step : R item first middle)
    (later : Steps R rest middle last)
    : Steps R (item :: rest) first last

/-- A run over no items. -/
theorem steps_nil {first last : σ} : Steps R [] first last ↔ last = first := by
  constructor
  · intro run
    cases run
    rfl
  · rintro rfl
    exact .nil _

/-- A run over an item and the rest. -/
theorem steps_cons {item : α} {rest : List α} {first last : σ}
    : Steps R (item :: rest) first last
      ↔ ∃ middle, R item first middle ∧ Steps R rest middle last := by
  constructor
  · intro run
    cases run with
    | cons step later => exact ⟨_, step, later⟩
  · exact fun ⟨_, step, later⟩ => .cons step later

/-- A run over two lists passes through a state between them. -/
theorem steps_append {before after : List α} {first last : σ}
    : Steps R (before ++ after) first last
      ↔ ∃ middle, Steps R before first middle ∧ Steps R after middle last := by
  induction before generalizing first with
  | nil => simp [steps_nil]
  | cons item rest ih =>
      simp only [List.cons_append, steps_cons, ih]
      constructor
      · exact fun ⟨next, step, middle, head, tail⟩ => ⟨middle, ⟨next, step, head⟩, tail⟩
      · exact fun ⟨middle, ⟨next, step, head⟩, tail⟩ => ⟨next, step, middle, head, tail⟩

/-- The rule of runs: a law of the items so far and the state that every step preserves holds
at the end.
-/
theorem Steps.invariant {P : List α → σ → Prop} {items : List α} {first last : σ}
    (run : Steps R items first last) (start : P [] first)
    (preserved
      : ∀ {done : List α} {item : α} {state after : σ},
          P done state → R item state after → P (done ++ [item]) after)
    : P items last := by
  have along : ∀ {done : List α}, P done first → P (done ++ items) last := by
    clear start
    induction run with
    | nil =>
        intro done holds
        simpa using holds
    | cons step _ ih =>
        intro done holds
        simpa using ih (preserved holds step)
  exact along start

variable [DecidableEq κ] {key : α → Option κ} {S : κ → α → σ → σ → Prop}

/-- The steps of a family of states: an item changes the state of its key only. -/
def Together (S : κ → α → σ → σ → Prop) (key : α → Option κ) (item : α) (first last : κ → σ)
    : Prop :=
  ∃ own,
    key item = some own
    ∧ S own item (first own) (last own)
    ∧ ∀ other, other ≠ own → last other = first other

/-- The items of a key, in their order. -/
def itemsOf (key : α → Option κ) (own : κ) (items : List α) : List α :=
  items.filter fun item => key item == some own

/-- The first item is one of its own key. -/
theorem itemsOf_cons_own {own : κ} {item : α} (rest : List α) (keyed : key item = some own)
    : itemsOf key own (item :: rest) = item :: itemsOf key own rest := by
  rw [itemsOf, List.filter_cons_of_pos (by simp [keyed]), itemsOf]

/-- The first item is none of another key. -/
theorem itemsOf_cons_other {own other : κ} {item : α} (rest : List α)
    (keyed : key item = some own) (apart : other ≠ own)
    : itemsOf key other (item :: rest) = itemsOf key other rest := by
  rw [itemsOf, List.filter_cons_of_neg (by simp [keyed, Ne.symm apart]), itemsOf]

/-- A run over items of several keys is a run over the items of every key, by induction on
the items.
-/
theorem steps_together {items : List α} {first last : κ → σ}
    : Steps (Together S key) items first last
      ↔ (∀ item ∈ items, ∃ own, key item = some own)
        ∧ ∀ own, Steps (S own) (itemsOf key own items) (first own) (last own) := by
  induction items generalizing first with
  | nil =>
      simp [steps_nil, itemsOf, funext_iff]
  | cons item rest ih =>
      simp only [steps_cons, List.forall_mem_cons]
      constructor
      · rintro ⟨middle, ⟨own, keyed, step, others⟩, later⟩
        obtain ⟨keys, runs⟩ := ih.mp later
        refine ⟨⟨⟨own, keyed⟩, keys⟩, fun other => ?_⟩
        by_cases same : other = own
        · subst same
          rw [itemsOf_cons_own rest keyed]
          exact .cons step (runs other)
        · rw [itemsOf_cons_other rest keyed same, ← others other same]
          exact runs other
      · rintro ⟨⟨⟨own, keyed⟩, keys⟩, runs⟩
        have here := runs own
        rw [itemsOf_cons_own rest keyed] at here
        obtain ⟨middle, step, later⟩ := steps_cons.mp here
        refine ⟨Function.update first own middle, ⟨own, keyed, ?_, ?_⟩,
          ih.mpr ⟨keys, fun other => ?_⟩⟩
        · rwa [Function.update_self]
        · exact fun other apart => Function.update_of_ne apart _ _
        · by_cases same : other = own
          · subst same
            rwa [Function.update_self]
          · rw [Function.update_of_ne same, ← itemsOf_cons_other rest keyed same]
            exact runs other

end Foundation.Demultiplex
