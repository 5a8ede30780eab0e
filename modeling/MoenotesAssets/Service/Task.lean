import Mathlib.Data.List.Basic

/-! Task records of `service.rs`, as they are stored, served and rebuilt. -/

namespace MoenotesAssets.Service

/-- The `kind` of a task: the stored texts are `export` and `catalog_refresh`. -/
inductive TaskKind where
  | exports
  | catalogRefresh
deriving DecidableEq, Repr

/-- The `state` of a task; `partially` is stored as `partial`. -/
inductive TaskState where
  | queued
  | running
  | succeeded
  | partially
  | failed
  | cancelled
deriving DecidableEq, Repr

/-- A state no coordinator leaves. -/
def TaskState.terminal : TaskState → Bool
  | .queued | .running => false
  | _ => true

structure ItemResult where
  key : String
  exportId : Option String
  error : Option String
deriving DecidableEq, Repr

/-- `keys` is the original selection, retained so interrupted tasks can account for
every key.
-/
structure Task where
  id : String
  kind : TaskKind
  state : TaskState
  snapshot : Option String
  keys : List String
  total : Nat
  completed : Nat
  results : List ItemResult
  error : Option String
  created : Nat
  updated : Nat
deriving DecidableEq, Repr

/-- `task_runner::failed_item` -/
def failedItem (key error : String) : ItemResult :=
  { key, exportId := none, error := some error }

/-- `task_runner::persistence_failed` at time `now` -/
def persistenceFailed (task : Task) (now : Nat) : Task :=
  {
    task with
    error := some "task persistence failed; resubmit unsuccessful keys"
    state := .failed
    updated := now
  }

/-- A later version of a task: the same selection, with more results at the end. -/
structure Task.Continues (earlier later : Task) : Prop where
  id : later.id = earlier.id
  kind : later.kind = earlier.kind
  keys : later.keys = earlier.keys
  total : later.total = earlier.total
  results : earlier.results <+: later.results

/-- Every task continues itself. -/
theorem Task.Continues.refl (task : Task) : task.Continues task :=
  ⟨rfl, rfl, rfl, rfl, List.prefix_rfl⟩

/-- Continuing is transitive. -/
theorem Task.Continues.trans {first second third : Task} (head : first.Continues second)
    (tail : second.Continues third)
    : first.Continues third :=
  ⟨tail.id.trans head.id, tail.kind.trans head.kind, tail.keys.trans head.keys,
    tail.total.trans head.total, head.results.trans tail.results⟩

/-- A persistence failure drops no result. -/
theorem persistenceFailed_continues (task : Task) (now : Nat)
    : task.Continues (persistenceFailed task now) :=
  ⟨rfl, rfl, rfl, rfl, List.prefix_rfl⟩

/-- The keys a list of results accounts for. -/
def resultKeys (results : List ItemResult) : List String :=
  results.map ItemResult.key

/-- Appended results account for both lists of keys. -/
@[simp] theorem resultKeys_append (left right : List ItemResult)
    : resultKeys (left ++ right) = resultKeys left ++ resultKeys right :=
  List.map_append

/-- A failed item accounts for its own key. -/
@[simp] theorem resultKeys_failedItem (keys : List String) (error : String)
    : resultKeys (keys.map (fun key => failedItem key error)) = keys := by
  simp [resultKeys, failedItem, Function.comp_def]

end MoenotesAssets.Service
