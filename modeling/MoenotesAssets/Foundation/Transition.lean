import Mathlib.Order.Basic

/-! Labelled transition systems over arbitrary states and labels. A path keeps the
labels of the steps it took, so a law about a whole run is a law about its trace.
-/

namespace Foundation

universe u v w

/-- The admitted first states of a system and its labelled steps. -/
structure System (σ : Type u) (ℓ : Type v) where
  initial : σ → Prop
  step : σ → ℓ → σ → Prop

namespace System

variable {σ : Type u} {ℓ : Type v}

/-- (sys.Path start trace finish) holds when the labels in `trace` lead from `start`
to `finish`, in order.
-/
inductive Path (sys : System σ ℓ) (start : σ) : List ℓ → σ → Prop where
  | here : sys.Path start [] start
  | next {trace : List ℓ} {middle : σ} {label : ℓ} {finish : σ}
    (path : sys.Path start trace middle) (taken : sys.step middle label finish)
    : sys.Path start (trace ++ [label]) finish

/-- An execution is a path out of an initial state. -/
def Execution (sys : System σ ℓ) (trace : List ℓ) (state : σ) : Prop :=
  ∃ start, sys.initial start ∧ sys.Path start trace state

/-- A reachable state ends some execution. -/
def Reachable (sys : System σ ℓ) (state : σ) : Prop :=
  ∃ trace, sys.Execution trace state

/-- A label of a longer trace is its last one or was there before. -/
theorem mem_concat_cases {trace : List ℓ} {label seen : ℓ} (member : seen ∈ trace ++ [label])
    : seen ∈ trace ∨ seen = label := by
  simpa using member

variable {sys : System σ ℓ}

/-- Two consecutive paths compose, by induction on the second one. -/
theorem Path.append {start middle finish : σ} {first second : List ℓ}
    (head : sys.Path start first middle) (tail : sys.Path middle second finish)
    : sys.Path start (first ++ second) finish := by
  induction tail with
  | here => simpa using head
  | next _ taken ih => simpa only [← List.append_assoc] using ih.next taken

/-- A path passes through a state after each initial part of its trace. -/
theorem Path.split {start finish : σ} {first second : List ℓ}
    (path : sys.Path start (first ++ second) finish)
    : ∃ middle, sys.Path start first middle ∧ sys.Path middle second finish := by
  generalize whole : first ++ second = trace at path
  induction path generalizing second with
  | here =>
      obtain ⟨rfl, rfl⟩ := List.append_eq_nil_iff.mp whole
      exact ⟨start, .here, .here⟩
  | @next trace middle label finish path taken ih =>
      rcases List.eq_nil_or_concat second with rfl | ⟨rest, last, rfl⟩
      · rw [List.append_nil] at whole
        subst whole
        exact ⟨finish, path.next taken, .here⟩
      · rw [List.concat_eq_append, ← List.append_assoc] at whole
        obtain ⟨rfl, same⟩ := List.append_inj' whole rfl
        obtain rfl := List.singleton_inj.mp same
        obtain ⟨between, head, tail⟩ := ih rfl
        exact ⟨between, head, by simpa only [List.concat_eq_append] using tail.next taken⟩

/-- A path without labels goes nowhere. -/
theorem Path.empty {start finish : σ} (path : sys.Path start [] finish) : finish = start := by
  generalize whole : ([] : List ℓ) = trace at path
  cases path with
  | here => rfl
  | next => simp at whole

/-- A path with one label is one step. -/
theorem Path.single {start finish : σ} {label : ℓ} (path : sys.Path start [label] finish)
    : sys.step start label finish := by
  generalize whole : [label] = trace at path
  cases path with
  | here => cases whole
  | next path taken =>
      have split : [] ++ [label] = _ ++ [_] := whole
      obtain ⟨empty, same⟩ := List.append_inj' split rfl
      subst empty
      obtain rfl := List.singleton_inj.mp same
      exact path.empty ▸ taken

/-- What every step preserves, every path preserves. -/
theorem Path.preserves {P : σ → Prop} {start finish : σ} {trace : List ℓ}
    (preserved : ∀ {state label after}, sys.step state label after → P state → P after)
    (path : sys.Path start trace finish) (holds : P start)
    : P finish := by
  induction path with
  | here => exact holds
  | next _ taken ih => exact preserved taken ih

/-- A reflexive and transitive relation that every step refines relates the two ends
of a path. The step may use an invariant of the state it leaves.
-/
theorem Path.relates {P : σ → Prop} {R : σ → σ → Prop} {start finish : σ} {trace : List ℓ}
    (refl : ∀ state, R state state)
    (trans : ∀ {a b c}, R a b → R b c → R a c)
    (preserved : ∀ {state label after}, sys.step state label after → P state → P after)
    (related : ∀ {state label after}, sys.step state label after → P state → R state after)
    (path : sys.Path start trace finish) (holds : P start)
    : R start finish := by
  induction path with
  | here => exact refl _
  | next path taken ih => exact trans ih (related taken (path.preserves preserved holds))

/-- A forward simulation: when a path of another system matches each step, one matches each path.
The steps may use an invariant of the state they leave.
-/
theorem Path.simulated {τ : Type w} {κ : Type v} {other : System τ κ} {P : σ → Prop}
    {R : σ → τ → Prop} {start finish : σ} {image : τ} {trace : List ℓ}
    (preserved : ∀ {state label after}, sys.step state label after → P state → P after)
    (matched
      : ∀ {state label after image},
          sys.step state label after
          → P state
          → R state image
          → ∃ trace next, other.Path image trace next ∧ R after next)
    (path : sys.Path start trace finish) (holds : P start) (related : R start image)
    : ∃ trace last, other.Path image trace last ∧ R finish last := by
  induction path with
  | here => exact ⟨[], image, .here, related⟩
  | next path taken ih =>
      obtain ⟨first, middle, head, related⟩ := ih
      obtain ⟨second, last, tail, related⟩ :=
        matched taken (path.preserves preserved holds) related
      exact ⟨first ++ second, last, head.append tail, related⟩

/-- One more step extends an execution. -/
theorem Execution.next {trace : List ℓ} {state after : σ} {label : ℓ}
    (run : sys.Execution trace state) (taken : sys.step state label after)
    : sys.Execution (trace ++ [label]) after := by
  obtain ⟨start, initial, path⟩ := run
  exact ⟨start, initial, path.next taken⟩

/-- A path extends an execution. -/
theorem Execution.append {trace more : List ℓ} {state after : σ}
    (run : sys.Execution trace state) (path : sys.Path state more after)
    : sys.Execution (trace ++ more) after := by
  obtain ⟨start, initial, head⟩ := run
  exact ⟨start, initial, head.append path⟩

/-- An execution passes through a state after each initial part of its trace. -/
theorem Execution.split {first second : List ℓ} {state : σ}
    (run : sys.Execution (first ++ second) state)
    : ∃ middle, sys.Execution first middle ∧ sys.Path middle second state := by
  obtain ⟨start, initial, path⟩ := run
  obtain ⟨middle, head, tail⟩ := path.split
  exact ⟨middle, ⟨start, initial, head⟩, tail⟩

/-- An execution took the step of each label of its trace. -/
theorem Execution.taken {first rest : List ℓ} {label : ℓ} {state : σ}
    (run : sys.Execution (first ++ label :: rest) state)
    : ∃ before after,
        sys.Execution first before ∧ sys.step before label after ∧ sys.Path after rest state := by
  rw [List.append_cons] at run
  obtain ⟨after, head, later⟩ := run.split
  obtain ⟨before, earlier, last⟩ := head.split
  exact ⟨before, after, earlier, last.single, later⟩

/-- The state after an execution is reachable. -/
theorem Execution.reachable {trace : List ℓ} {state : σ} (run : sys.Execution trace state)
    : sys.Reachable state :=
  ⟨trace, run⟩

/-- Induction along an execution: a law of the trace and the state that holds at the
start and survives every step from a reachable state holds throughout.
-/
theorem Execution.history {I : List ℓ → σ → Prop}
    (start : ∀ {state}, sys.initial state → I [] state)
    (step
      : ∀ {trace state label after},
          sys.Execution trace state
          → I trace state
          → sys.step state label after
          → I (trace ++ [label]) after)
    {trace : List ℓ} {state : σ} (run : sys.Execution trace state)
    : I trace state := by
  obtain ⟨first, initial, path⟩ := run
  induction path with
  | here => exact start initial
  | next path taken ih => exact step ⟨first, initial, path⟩ ih taken

/-- The invariant rule: what holds initially and survives every step is reachable. -/
theorem Reachable.invariant {P : σ → Prop}
    (start : ∀ {state}, sys.initial state → P state)
    (step : ∀ {state label after}, sys.step state label after → P state → P after)
    {state : σ} (reached : sys.Reachable state)
    : P state := by
  obtain ⟨trace, first, initial, path⟩ := reached
  exact path.preserves step (start initial)

/-- Reachability is closed under paths. -/
theorem Reachable.append {state after : σ} {trace : List ℓ}
    (reached : sys.Reachable state) (path : sys.Path state trace after)
    : sys.Reachable after := by
  obtain ⟨before, run⟩ := reached
  exact ⟨before ++ trace, run.append path⟩

end System

end Foundation
