import MoenotesAssets.Foundation.Transition

/-! Systems that come to rest: processes that wait for each other in the order of a rank do not
block each other, and a system that is never stuck and whose steps lower a measure is at rest
after boundedly many of them.
-/

namespace Foundation

universe u v

-----------------------------------------------------------------------------------------
-- Waiting in the order of a rank
-----------------------------------------------------------------------------------------

/-- When a process that is not ready waits for one of a higher rank, some process is ready, by
induction on how far the rank is below its bound.
-/
theorem exists_ready {π : Type u} {live ready : π → Prop} {rank : π → Nat} {bound : Nat}
    (below : ∀ {process}, live process → rank process ≤ bound)
    (waits
      : ∀ {process},
          live process → ready process ∨ ∃ other, live other ∧ rank process < rank other)
    {process : π} (lives : live process)
    : ∃ process, live process ∧ ready process := by
  induction room : bound - rank process using Nat.strongRecOn generalizing process with
  | ind n ih =>
      rcases waits lives with is | ⟨other, lives', higher⟩
      · exact ⟨process, lives, is⟩
      · have limit := below lives'
        exact ih (bound - rank other) (by omega) lives' rfl

-----------------------------------------------------------------------------------------
-- Coming to rest
-----------------------------------------------------------------------------------------

namespace System

variable {σ : Type u} {ℓ : Type v}

/-- Steps that are counted are paid from what is left: a path has no more of them than what was left
at its start.
-/
theorem Path.counted {sys : System σ ℓ} {inside : σ → Prop} (counted : ℓ → Bool) (left : σ → Nat)
    (kept : ∀ {state label after}, inside state → sys.step state label after → inside after)
    (pays
      : ∀ {state label after},
          inside state
          → sys.step state label after
          → (counted label).toNat + left after ≤ left state)
    {start finish : σ} {trace : List ℓ} (path : sys.Path start trace finish)
    (within : inside start)
    : inside finish ∧ trace.countP counted + left finish ≤ left start := by
  induction path with
  | here => exact ⟨within, by simp⟩
  | @next trace middle label finish path taken ih =>
      obtain ⟨reached, spent⟩ := ih
      have paid := pays reached taken
      refine ⟨kept reached taken, ?_⟩
      rw [List.countP_append, List.countP_singleton]
      cases here : counted label <;> rw [here] at paid <;> simp at paid ⊢ <;> omega

/-- (Drains sys inside own rest work) holds when the steps that are the system's `own` keep
`inside` and lower the work, and one of them is possible where the system is not at rest.
-/
structure Drains (sys : System σ ℓ) (inside : σ → Prop) (own : ℓ → Prop) (rest : σ → Prop)
    (work : σ → Nat)
    : Prop where
  kept : ∀ {state label after}, inside state → own label → sys.step state label after → inside after
  lowers
    : ∀ {state label after},
        inside state → own label → sys.step state label after → work after < work state
  ready
    : ∀ {state}, inside state → ¬rest state → ∃ label after, own label ∧ sys.step state label after

variable {sys : System σ ℓ} {inside rest : σ → Prop} {own : ℓ → Prop} {work : σ → Nat}

/-- A run of own steps is no longer than the work it does. -/
theorem Drains.bounded (drains : sys.Drains inside own rest work) {state after : σ}
    {trace : List ℓ} (path : sys.Path state trace after) (within : inside state)
    (owned : ∀ label ∈ trace, own label)
    : inside after ∧ trace.length + work after ≤ work state := by
  induction path with
  | here => exact ⟨within, by simp⟩
  | @next trace middle label finish path taken ih =>
      obtain ⟨reached, spent⟩ := ih fun label member => owned label (List.mem_append_left _ member)
      have last : own label := owned label (by simp)
      have less := drains.lowers reached last taken
      refine ⟨drains.kept reached last taken, ?_⟩
      rw [List.length_append, List.length_singleton]
      omega

/-- Some run of own steps comes to rest, by induction on the work. -/
theorem Drains.exists_rest (drains : sys.Drains inside own rest work) {state : σ}
    (within : inside state)
    : ∃ trace after, sys.Path state trace after ∧ (∀ label ∈ trace, own label) ∧ rest after := by
  induction left : work state using Nat.strongRecOn generalizing state with
  | ind n ih =>
      by_cases rests : rest state
      · exact ⟨[], state, .here, by simp, rests⟩
      · obtain ⟨label, next, is, taken⟩ := drains.ready within rests
        have less := drains.lowers within is taken
        obtain ⟨trace, after, path, owned, rests⟩ :=
          ih (work next) (left ▸ less) (drains.kept within is taken) rfl
        refine ⟨[label] ++ trace, after, (Path.here.next taken).append path, ?_, rests⟩
        exact List.forall_mem_cons.mpr ⟨is, owned⟩

end System

end Foundation
