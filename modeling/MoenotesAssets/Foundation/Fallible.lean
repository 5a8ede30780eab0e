import Mathlib.Data.List.Forall2

/-! Computations that end with a value, an error or a panic, and how they are taken apart. -/

namespace Foundation

universe u v w

/-- How a computation ends without a value: an error it returns, or a panic. -/
inductive Failure where
  | error (message : String)
  | panic (message : String)
deriving DecidableEq

/-- A check that fails with the given error. -/
def ensure {ε : Type u} (condition : Bool) (error : ε) : Except ε Unit :=
  if condition then .ok () else .error error

variable {ε : Type u} {α β : Type v}

/-- A passed check. -/
@[simp] theorem ensure_ok {condition : Bool} {error : ε} {done : Unit}
    : ensure condition error = .ok done ↔ condition = true := by
  cases condition <;> simp [ensure]

/-- A check of what holds passes. -/
theorem ensure_passes {condition : Bool} (holds : condition = true) (error : ε)
    : ensure condition error = .ok () :=
  ensure_ok.mpr holds

/-- A value that is given under a condition. -/
theorem guarded_ok {condition : Prop} [Decidable condition] {given value : α} {error : ε}
    : (if condition then .ok given else .error error : Except ε α) = .ok value
      ↔ given = value ∧ condition := by
  by_cases holds : condition
  · rw [if_pos holds, Except.ok.injEq, and_iff_left holds]
  · rw [if_neg holds]
    exact iff_of_false (fun same => nomatch same) fun both => holds both.2

/-- A sequence succeeds when both of its parts do. -/
@[simp] theorem bind_ok {first : Except ε α} {next : α → Except ε β} {value : β}
    : (first >>= next) = .ok value ↔ ∃ middle, first = .ok middle ∧ next middle = .ok value := by
  cases first <;> simp [bind, Except.bind]

/-- A computed value. -/
@[simp] theorem pure_ok {given value : α}
    : (pure given : Except ε α) = .ok value ↔ given = value := by
  simp [pure, Except.pure]

/-- A present value, or the error of `context`. -/
def context (found : Option α) (error : ε) : Except ε α :=
  match found with
  | some value => .ok value
  | none => .error error

/-- A value taken from its context. -/
@[simp] theorem context_ok {found : Option α} {error : ε} {value : α}
    : context found error = .ok value ↔ found = some value := by
  cases found <;> simp [context]

/-- A failed check. -/
@[simp] theorem ensure_error {condition : Bool} {given error : ε}
    : ensure condition given = .error error ↔ condition = false ∧ given = error := by
  cases condition <;> simp [ensure]

/-- A sequence fails when one of its parts does. -/
@[simp] theorem bind_error {first : Except ε α} {next : α → Except ε β} {error : ε}
    : (first >>= next) = .error error
      ↔ first = .error error ∨ ∃ middle, first = .ok middle ∧ next middle = .error error := by
  cases first <;> simp [bind, Except.bind]

/-- A computed value is no failure. -/
@[simp] theorem pure_error {given : α} {error : ε}
    : (pure given : Except ε α) = .error error ↔ False := by
  simp [pure, Except.pure]

/-- A value missing from its context. -/
@[simp] theorem context_error {found : Option α} {given error : ε}
    : context found given = .error error ↔ found = none ∧ given = error := by
  cases found <;> simp [context]

/-- A computation that succeeds has a value. -/
theorem ok_of_isOk {computation : Except ε α} (succeeds : computation.isOk = true)
    : ∃ value, computation = .ok value := by
  cases computation with
  | ok value => exact ⟨value, rfl⟩
  | error error => cases succeeds

/-- A computation that does not succeed has an error. -/
theorem error_of_isOk {computation : Except ε α} (fails : computation.isOk = false)
    : ∃ error, computation = .error error := by
  cases computation with
  | ok value => cases fails
  | error error => exact ⟨error, rfl⟩

/-- A computation that is an option with a value has it. -/
theorem toOption_eq_some {computation : Except ε α} {value : α}
    : computation.toOption = some value ↔ computation = .ok value := by
  cases computation <;> simp [Except.toOption]

/-- Mapping over a list fails at an element. -/
theorem mapM_error {f : α → Except ε β} {list : List α} {error : ε}
    (failed : list.mapM f = .error error)
    : ∃ item ∈ list, f item = .error error := by
  induction list with
  | nil => cases failed
  | cons head tail ih =>
      simp only [List.mapM_cons, bind_error, pure_error, and_false, exists_false,
        or_false] at failed
      rcases failed with here | ⟨_, _, later⟩
      · exact ⟨head, List.mem_cons_self, here⟩
      · obtain ⟨item, member, found⟩ := ih later
        exact ⟨item, List.mem_cons_of_mem _ member, found⟩

/-- The rule of a fold: a law of the items so far and the state that every step preserves
holds at the end.
-/
theorem foldlM_invariant {f : β → α → Except ε β} {P : List α → β → Prop} {list : List α}
    {first last : β} (folded : list.foldlM f first = .ok last) (start : P [] first)
    (step
      : ∀ {done : List α} {state after : β} {item : α},
          P done state → f state item = .ok after → P (done ++ [item]) after)
    : P list last := by
  have along : ∀ {done rest : List α} {state : β},
      rest.foldlM f state = .ok last → P done state → P (done ++ rest) last := by
    intro done rest
    induction rest generalizing done with
    | nil =>
        intro state folded holds
        obtain rfl := pure_ok.mp folded
        simpa using holds
    | cons item rest ih =>
        intro state folded holds
        rw [List.foldlM_cons] at folded
        obtain ⟨middle, stepped, rest'⟩ := bind_ok.mp folded
        simpa using ih rest' (step holds stepped)
  exact along folded start

/-- Mapping over a list gives a value for every element. -/
theorem mapM_ok {f : α → Except ε β} {list : List α} {values : List β}
    : list.mapM f = .ok values
      ↔ List.Forall₂ (fun item value => f item = .ok value) list values := by
  induction list generalizing values with
  | nil => cases values <;> simp [pure, Except.pure]
  | cons head tail ih =>
      simp only [List.mapM_cons, bind_ok, pure_ok, ih]
      constructor
      · rintro ⟨first, here, rest, later, rfl⟩
        exact .cons here later
      · rintro (_ | ⟨here, later⟩)
        exact ⟨_, here, _, later, rfl⟩

/-- A fold that first computes a value from each item is a fold over the values. -/
theorem foldlM_bind_ok {δ : Type v} {f : α → Except ε β} {g : δ → β → Except ε δ} {list : List α}
    {first last : δ}
    : list.foldlM (fun state item => f item >>= g state) first = .ok last
      ↔ ∃ values, list.mapM f = .ok values ∧ values.foldlM g first = .ok last := by
  induction list generalizing first with
  | nil => simp [pure, Except.pure]
  | cons head tail ih =>
      simp only [List.foldlM_cons, List.mapM_cons, bind_ok, pure_ok, ih]
      constructor
      · rintro ⟨middle, ⟨value, computed, stepped⟩, values, mapped, folded⟩
        refine ⟨value :: values, ⟨value, computed, values, mapped, rfl⟩, ?_⟩
        rw [List.foldlM_cons, bind_ok]
        exact ⟨middle, stepped, folded⟩
      · rintro ⟨_, ⟨value, computed, values, mapped, rfl⟩, folded⟩
        rw [List.foldlM_cons, bind_ok] at folded
        obtain ⟨middle, stepped, folded⟩ := folded
        exact ⟨middle, ⟨value, computed, stepped⟩, values, mapped, folded⟩

/-- Every element of the second of two related lists belongs to one of the first. -/
theorem forall₂_comes {R : α → β → Prop} {list : List α} {values : List β}
    (related : List.Forall₂ R list values) {value : β} (member : value ∈ values)
    : ∃ item ∈ list, R item value := by
  induction related with
  | nil => cases member
  | @cons item found rest others here later ih =>
      rcases List.mem_cons.mp member with rfl | among
      · exact ⟨item, List.mem_cons_self, here⟩
      · obtain ⟨source, inside, same⟩ := ih among
        exact ⟨source, List.mem_cons_of_mem item inside, same⟩

/-- Every value of a map comes from an element. -/
theorem mapM_comes {f : α → Except ε β} {list : List α} {values : List β}
    (mapped : list.mapM f = .ok values) {value : β} (member : value ∈ values)
    : ∃ item ∈ list, f item = .ok value :=
  forall₂_comes (mapM_ok.mp mapped) member

/-- Every element of the first of two related lists has one of the second. -/
theorem forall₂_reaches {R : α → β → Prop} {list : List α} {values : List β}
    (related : List.Forall₂ R list values) {item : α} (member : item ∈ list)
    : ∃ value ∈ values, R item value := by
  induction related with
  | nil => cases member
  | @cons source found rest others here later ih =>
      rcases List.mem_cons.mp member with rfl | among
      · exact ⟨found, List.mem_cons_self, here⟩
      · obtain ⟨value, inside, same⟩ := ih among
        exact ⟨value, List.mem_cons_of_mem _ inside, same⟩

/-- Every element of a map has a value. -/
theorem mapM_reaches {f : α → Except ε β} {list : List α} {values : List β}
    (mapped : list.mapM f = .ok values) {item : α} (member : item ∈ list)
    : ∃ value ∈ values, f item = .ok value :=
  forall₂_reaches (mapM_ok.mp mapped) member

/-- Lists that are related to one list in between are related. -/
theorem forall₂_comp {γ : Type v} {R : α → β → Prop} {S : β → γ → Prop} {list : List α}
    {between : List β} {values : List γ} (first : List.Forall₂ R list between)
    (second : List.Forall₂ S between values)
    : List.Forall₂ (fun item value => ∃ middle, R item middle ∧ S middle value) list values := by
  induction first generalizing values with
  | nil =>
      cases second
      exact .nil
  | cons here _ ih =>
      obtain _ | ⟨there, later⟩ := second
      exact .cons ⟨_, here, there⟩ (ih later)

/-- Related lists have related pairs, by induction on them. -/
theorem forall₂_pairwise_iff {R : α → β → Prop} {P : α → α → Prop} {Q : β → β → Prop}
    {list : List α} {values : List β} (related : List.Forall₂ R list values)
    (same
      : ∀ item ∈ list, ∀ other ∈ list, ∀ {value value' : β},
          R item value → R other value' → (P item other ↔ Q value value'))
    : list.Pairwise P ↔ values.Pairwise Q := by
  induction related with
  | nil => exact iff_of_true .nil .nil
  | @cons item value rest others here later ih =>
      have within : ∀ other ∈ rest, ∀ {found : β}, R other found → (P item other ↔ Q value found) :=
        fun other member _ =>
          same item List.mem_cons_self other (List.mem_cons_of_mem item member) here
      rw [List.pairwise_cons, List.pairwise_cons, ih fun one inside other among =>
        same one (List.mem_cons_of_mem _ inside) other (List.mem_cons_of_mem _ among)]
      refine and_congr_left fun _ => ⟨fun first other among => ?_, fun first other among => ?_⟩
      · obtain ⟨source, inside, found⟩ := forall₂_comes later among
        exact (within source inside found).mp (first source inside)
      · obtain ⟨found, inside, reached⟩ := forall₂_reaches later among
        exact (within other among reached).mpr (first found inside)

/-- A fold over values that were computed before. -/
theorem foldlM_of_mapM {δ : Type v} {f : α → Except ε β} {g : δ → β → Except ε δ} {list : List α}
    {values : List β} (mapped : list.mapM f = .ok values) (first : δ)
    : list.foldlM (fun state item => f item >>= g state) first = values.foldlM g first := by
  have related := mapM_ok.mp mapped
  clear mapped
  induction related generalizing first with
  | nil => rfl
  | @cons item value rest others here later ih =>
      rw [List.foldlM_cons, List.foldlM_cons, here]
      exact congrArg (g first value >>= ·) (funext ih)

/-- Mapping over a list succeeds when it does at every element. -/
theorem mapM_total {f : α → Except ε β} {list : List α}
    (each : ∀ item ∈ list, ∃ value, f item = .ok value)
    : ∃ values, list.mapM f = .ok values := by
  cases mapped : list.mapM f with
  | ok values => exact ⟨values, rfl⟩
  | error error =>
      obtain ⟨item, member, failed⟩ := mapM_error mapped
      obtain ⟨value, found⟩ := each item member
      cases failed.symm.trans found

-----------------------------------------------------------------------------------------
-- Computations that agree
-----------------------------------------------------------------------------------------

/-- A value is handed on. -/
theorem ok_bind {value : α} {next : α → Except ε β}
    : Except.ok value >>= next = next value := rfl

/-- Computations that agree on what the first part yields agree. -/
theorem bind_congr_ok {first : Except ε α} {next next' : α → Except ε β}
    (same : ∀ value, first = .ok value → next value = next' value)
    : first >>= next = first >>= next' := by
  cases first with
  | error error => rfl
  | ok value => exact same value rfl

/-- Folds agree when their functions do in all states that come up. -/
theorem foldlM_congr_along {f g : β → α → Except ε β} {P : β → Prop} {list : List α}
    {first : β} (same : ∀ {state item}, P state → f state item = g state item)
    (kept : ∀ {state item after}, P state → g state item = .ok after → P after)
    (start : P first)
    : list.foldlM f first = list.foldlM g first := by
  induction list generalizing first with
  | nil => rfl
  | cons item rest ih =>
      rw [List.foldlM_cons, List.foldlM_cons, same start]
      exact bind_congr_ok fun next step => ih (kept start step)

/-- A fold that succeeds is repeated by a function that does what the first one did. -/
theorem foldlM_repeats {f g : β → α → Except ε β} {list : List α} {first last : β}
    (repeats : ∀ {state item after}, f state item = .ok after → g state item = .ok after)
    (folded : list.foldlM f first = .ok last)
    : list.foldlM g first = .ok last := by
  induction list generalizing first with
  | nil => exact folded
  | cons item rest ih =>
      rw [List.foldlM_cons] at folded ⊢
      obtain ⟨next, step, folded⟩ := bind_ok.mp folded
      exact bind_ok.mpr ⟨next, repeats step, ih folded⟩

/-- Folds agree when their functions do at every element. -/
theorem foldlM_congr_mem {f g : β → α → Except ε β} {list : List α}
    (same : ∀ item ∈ list, ∀ state, f state item = g state item) (first : β)
    : list.foldlM f first = list.foldlM g first := by
  induction list generalizing first with
  | nil => rfl
  | cons item rest ih =>
      obtain ⟨here, later⟩ := List.forall_mem_cons.mp same
      rw [List.foldlM_cons, List.foldlM_cons, here]
      exact bind_congr_ok fun next _ => ih later next

-----------------------------------------------------------------------------------------
-- Errors that are translated
-----------------------------------------------------------------------------------------

section Translated

variable {ε' : Type w} (translate : ε → ε')

/-- Translating the error of a sequence translates those of its parts. -/
theorem mapError_bind (first : Except ε α) (next : α → Except ε β)
    : (first >>= next).mapError translate
      = first.mapError translate >>= fun value => (next value).mapError translate := by
  cases first <;> rfl

/-- Translating the error of a check. -/
theorem mapError_ensure (condition : Bool) (error : ε)
    : (ensure condition error).mapError translate = ensure condition (translate error) := by
  cases condition <;> rfl

/-- Translating errors keeps the values. -/
@[simp] theorem mapError_ok {computation : Except ε α} {value : α}
    : computation.mapError translate = .ok value ↔ computation = .ok value := by
  cases computation <;> simp [Except.mapError]

/-- Translating the errors of a fold translates those of its steps. -/
theorem mapError_foldlM (f : β → α → Except ε β) (list : List α) (first : β)
    : (list.foldlM f first).mapError translate
      = list.foldlM (fun state item => (f state item).mapError translate) first := by
  induction list generalizing first with
  | nil => rfl
  | cons item rest ih =>
      rw [List.foldlM_cons, List.foldlM_cons, mapError_bind]
      exact bind_congr_ok fun next _ => ih next

/-- Translating the errors of a loop translates those of its rounds. -/
theorem mapError_forM (f : α → Except ε PUnit) (list : List α)
    : (list.forM f).mapError translate = list.forM fun item => (f item).mapError translate := by
  induction list with
  | nil => rfl
  | cons item rest ih =>
      rw [List.forM, List.forM, mapError_bind]
      exact bind_congr_ok fun _ _ => ih

end Translated

/-- A loop over a list succeeds when each of its rounds does. -/
theorem forM_ok {f : α → Except ε PUnit} {list : List α}
    : list.forM f = .ok ⟨⟩ ↔ ∀ item ∈ list, f item = .ok ⟨⟩ := by
  induction list with
  | nil => exact iff_of_true rfl (by simp)
  | cons item rest ih =>
      simp only [List.forM, bind_ok, ih, List.forall_mem_cons]
      exact ⟨fun ⟨_, here, later⟩ => ⟨here, later⟩, fun ⟨here, later⟩ => ⟨_, here, later⟩⟩

-----------------------------------------------------------------------------------------
-- Checks that are computed
-----------------------------------------------------------------------------------------

section Answers

variable {P Q : Prop} {check : Except ε Bool}

/-- (Answers P check) holds when the check ends, and accepts just when `P` holds. -/
def Answers (P : Prop) (check : Except ε Bool) : Prop :=
  ∃ accepted, check = .ok accepted ∧ (accepted = true ↔ P)

/-- A computed answer. -/
theorem Answers.value {accepted : Bool} (same : accepted = true ↔ P)
    : Answers P (.ok accepted : Except ε Bool) :=
  ⟨accepted, rfl, same⟩

/-- What is computed first has a value, and the rest of the check answers. -/
theorem Answers.bind {α : Type} {first : Except ε α} {value : α} {next : α → Except ε Bool}
    (found : first = .ok value) (later : Answers P (next value))
    : Answers P (first >>= next) := by
  rwa [found, ok_bind]

/-- The parts of a conjunction from left to right: the first part decides alone when it fails. -/
theorem Answers.and {C : Prop} [Decidable C] (first : C ↔ Q) (second : Q → Answers P check)
    : Answers (Q ∧ P) (if C then check else .ok false) := by
  by_cases condition : C
  · obtain ⟨accepted, found, same⟩ := second (first.mp condition)
    rw [if_pos condition]
    exact ⟨accepted, found, same.trans (and_iff_right (first.mp condition)).symm⟩
  · rw [if_neg condition]
    exact .value (iff_of_false Bool.false_ne_true fun both => condition (first.mpr both.1))

/-- The same answer to another question. -/
theorem Answers.iff (answers : Answers P check) (same : P ↔ Q) : Answers Q check := by
  obtain ⟨accepted, found, holds⟩ := answers
  exact ⟨accepted, found, holds.trans same⟩

/-- A check of what holds goes on. -/
theorem Answers.passes {α : Type} (answers : Answers P check) (holds : P) (error : ε)
    (next : Unit → Except ε α)
    : (check >>= fun accepted => ensure accepted error >>= next) = next () := by
  obtain ⟨accepted, found, same⟩ := answers
  rw [found, ok_bind, ensure_passes (same.mpr holds), ok_bind]

end Answers

-----------------------------------------------------------------------------------------
-- Computations without an error
-----------------------------------------------------------------------------------------

section Avoids

variable {error given : ε} {γ δ : Type v}

/-- A computation that does not end with an error. -/
def Avoids (error : ε) (computation : Except ε γ) : Prop := computation ≠ .error error

/-- A value is no error. -/
theorem Avoids.value (value : γ) : Avoids error (.ok value) := by
  rintro ⟨⟩

/-- A check fails with its own error. -/
theorem Avoids.ensure (condition : Bool) (other : given ≠ error)
    : Avoids error (ensure condition given) :=
  fun failed => other (ensure_error.mp failed).2

/-- A missing value fails with its own error. -/
theorem Avoids.context (found : Option γ) (other : given ≠ error)
    : Avoids error (context found given) :=
  fun failed => other (context_error.mp failed).2

/-- The rule of sequences: a sequence avoids an error when its parts do. -/
theorem Avoids.bind {first : Except ε γ} {next : γ → Except ε δ} (start : Avoids error first)
    (later : ∀ {value : γ}, first = .ok value → Avoids error (next value))
    : Avoids error (first >>= next) := by
  intro failed
  rcases bind_error.mp failed with here | ⟨value, found, there⟩
  · exact start here
  · exact later found there

/-- An error that the first part avoids is one of the second part. -/
theorem Avoids.bind_error {first : Except ε γ} {next : γ → Except ε δ}
    (start : Avoids error first)
    : (first >>= next) = .error error
      ↔ ∃ value, first = .ok value ∧ next value = .error error :=
  Foundation.bind_error.trans (or_iff_right start)

end Avoids

-----------------------------------------------------------------------------------------
-- Computations without a panic
-----------------------------------------------------------------------------------------

section NoPanic

variable {γ : Type u} {δ : Type v}

/-- A computation that does not panic. -/
def NoPanic (computation : Except Failure γ) : Prop :=
  ∀ (message : String), computation ≠ .error (.panic message)

/-- A value is no panic. -/
theorem NoPanic.value (value : γ) : NoPanic (.ok value) := by
  rintro message ⟨⟩

/-- An error is no panic. -/
theorem NoPanic.error (text : String) : NoPanic (.error (.error text) : Except Failure γ) := by
  rintro message ⟨⟩

/-- A check does not panic. -/
theorem NoPanic.ensure (condition : Bool) (text : String)
    : NoPanic (ensure condition (.error text)) := by
  intro message failed
  cases (ensure_error.mp failed).2

/-- A value that may be missing is no panic. -/
theorem NoPanic.context (found : Option γ) (text : String)
    : NoPanic (context found (.error text)) := by
  intro message failed
  cases (context_error.mp failed).2

/-- A sequence does not panic when its parts do not. -/
theorem NoPanic.bind {γ δ : Type u} {first : Except Failure γ} {next : γ → Except Failure δ}
    (calm : NoPanic first) (later : ∀ {value : γ}, first = .ok value → NoPanic (next value))
    : NoPanic (first >>= next) := by
  intro message failed
  rcases bind_error.mp failed with here | ⟨value, found, there⟩
  · exact calm message here
  · exact later found message there

/-- A fold does not panic when its steps do not. -/
theorem NoPanic.foldlM {γ : Type u} {δ : Type v} {f : γ → δ → Except Failure γ}
    (calm : ∀ (state : γ) (item : δ), NoPanic (f state item)) (list : List δ) (state : γ)
    : NoPanic (list.foldlM f state) := by
  induction list generalizing state with
  | nil => exact .value state
  | cons item rest ih =>
      rw [List.foldlM_cons]
      exact .bind (calm state item) fun _ => ih _

/-- A computation that does not panic and whose value, if it has one, satisfies `P`. -/
structure Yields (P : γ → Prop) (computation : Except Failure γ) : Prop where
  calm : NoPanic computation
  holds : ∀ {value : γ}, computation = .ok value → P value

variable {P Q : γ → Prop}

/-- A value that satisfies `P`. -/
theorem Yields.value {value : γ} (holds : P value) : Yields P (.ok value) :=
  ⟨.value value, fun same => Except.ok.inj same ▸ holds⟩

/-- An error has no value. -/
theorem Yields.error (text : String) : Yields P (.error (.error text)) :=
  ⟨.error text, fun same => by cases same⟩

/-- A passed check holds. -/
theorem Yields.ensure (condition : Bool) (text : String)
    : Yields (fun _ => condition = true) (ensure condition (.error text)) :=
  ⟨.ensure condition text, ensure_ok.mp⟩

/-- A value from a context is the one that was found. -/
theorem Yields.context (found : Option γ) (text : String)
    : Yields (fun value => found = some value) (context found (.error text)) :=
  ⟨.context found text, context_ok.mp⟩

/-- A weaker property of the value. -/
theorem Yields.imp {computation : Except Failure γ} (yields : Yields P computation)
    (weaker : ∀ {value : γ}, P value → Q value)
    : Yields Q computation :=
  ⟨yields.calm, fun same => weaker (yields.holds same)⟩

/-- The rule of sequences: what the first part yields is given to the second one. -/
theorem Yields.bind {γ δ : Type u} {P : γ → Prop} {Q : δ → Prop} {first : Except Failure γ}
    {next : γ → Except Failure δ} (yields : Yields P first)
    (later : ∀ {value : γ}, P value → Yields Q (next value))
    : Yields Q (first >>= next) := by
  refine ⟨yields.calm.bind fun found => (later (yields.holds found)).calm, fun same => ?_⟩
  obtain ⟨middle, found, next⟩ := bind_ok.mp same
  exact (later (yields.holds found)).holds next

/-- A check that is computed holds behind it. -/
theorem Answers.yields {P : Prop} {check : Except Failure Bool} (answers : Answers P check)
    : Yields (fun accepted => accepted = true ↔ P) check := by
  obtain ⟨accepted, found, same⟩ := answers
  rw [found]
  exact .value same

/-- The rule of computed checks: what follows one may use what it checked. -/
theorem Yields.check {γ : Type} {P : Prop} {Q : γ → Prop} {check : Except Failure Bool}
    {text : String} {next : Unit → Except Failure γ} (answers : Answers P check)
    (later : P → Yields Q (next ()))
    : Yields Q
        (check >>= fun accepted => Foundation.ensure accepted (.error text) >>= next) := by
  refine .bind answers.yields fun {accepted} same => ?_
  exact .bind (.ensure _ _) fun passed => later (same.mp passed)

/-- The rule of folds: every step keeps `P`. -/
theorem Yields.foldlM {γ : Type u} {δ : Type v} {P : γ → Prop} {f : γ → δ → Except Failure γ}
    {list : List δ} {state : γ}
    (step : ∀ item ∈ list, ∀ {state : γ}, P state → Yields P (f state item)) (start : P state)
    : Yields P (list.foldlM f state) := by
  induction list generalizing state with
  | nil => exact .value start
  | cons item rest ih =>
      obtain ⟨here, later⟩ := List.forall_mem_cons.mp step
      rw [List.foldlM_cons]
      exact .bind (here start) fun holds => ih later holds

/-- The rule of maps: every element has a value that satisfies `P`. -/
theorem Yields.mapM {γ : Type u} {δ : Type v} {P : γ → Prop} {f : δ → Except Failure γ}
    {list : List δ} (each : ∀ item ∈ list, Yields P (f item))
    : Yields (fun values => values.length = list.length ∧ ∀ value ∈ values, P value)
        (list.mapM f) := by
  induction list with
  | nil => exact .value ⟨rfl, by simp⟩
  | cons item rest ih =>
      obtain ⟨here, later⟩ := List.forall_mem_cons.mp each
      rw [List.mapM_cons]
      refine .bind here fun holds => .bind (ih later) fun ⟨length, all⟩ => .value ?_
      exact ⟨congrArg (· + 1) length, List.forall_mem_cons.mpr ⟨holds, all⟩⟩

end NoPanic

end Foundation
