import MoenotesAssets.Foundation.Arena
import Mathlib.Data.List.Nodup
import Mathlib.Data.List.Perm.Basic

/-! Exclusive ownership of the keys of a store: a key has at most one owner, an owner says what
stands under its key, and what has no owner is at rest. The owners count up to permutation, so
an owner may move from one list to another.
-/

namespace Foundation

universe u v w

variable {κ : Type u} {ν : Type v} {ω : Type w}

/-- (Owned key law rest store owners) holds when the owners have distinct keys, each of them
finds under its key what its law says, and the other keys are at rest.
-/
structure Owned (key : ω → κ) (law : ω → ν → Prop) (rest : κ → ν → Prop) (store : κ → ν)
    (owners : List ω)
    : Prop where
  distinct : (owners.map key).Nodup
  lawful : ∀ owner ∈ owners, law owner (store (key owner))
  resting : ∀ k, k ∉ owners.map key → rest k (store k)

namespace Owned

variable {key : ω → κ} {law : ω → ν → Prop} {rest : κ → ν → Prop} {store later : κ → ν}
variable {owner before after : ω} {owners others : List ω}

/-- A store at rest needs no owners. -/
theorem start (resting : ∀ k, rest k (store k)) : Owned key law rest store [] where
  distinct := List.nodup_nil
  lawful := by simp
  resting k _ := resting k

/-- The order of the owners does not matter. -/
theorem perm (owned : Owned key law rest store owners) (same : owners.Perm others)
    : Owned key law rest store others where
  distinct := (same.map key).nodup_iff.mp owned.distinct
  lawful owner member := owned.lawful owner (same.mem_iff.mpr member)
  resting k free := owned.resting k fun member => free ((same.map key).mem_iff.mp member)

/-- A key has one owner. -/
theorem sole (owned : Owned key law rest store owners) (first : before ∈ owners)
    (second : after ∈ owners) (same : key before = key after)
    : before = after :=
  List.inj_on_of_nodup_map owned.distinct first second same

/-- Under a key is what its owner says, or it is at rest. -/
theorem cases (owned : Owned key law rest store owners) (k : κ)
    : (∃ owner ∈ owners, key owner = k ∧ law owner (store k)) ∨ rest k (store k) := by
  by_cases member : k ∈ owners.map key
  · obtain ⟨owner, held, rfl⟩ := List.mem_map.mp member
    exact Or.inl ⟨owner, held, rfl, owned.lawful owner held⟩
  · exact Or.inr (owned.resting k member)

/-- The law of an owner survives a change under the key of another one. -/
theorem others_lawful (owned : Owned key law rest store (before :: others))
    (elsewhere : ∀ k, k ≠ key before → later k = store k)
    : ∀ owner ∈ others, law owner (later (key owner)) := by
  intro owner member
  have apart : key owner ≠ key before := fun same =>
    (List.nodup_cons.mp owned.distinct).1 (same ▸ List.mem_map_of_mem member)
  rw [elsewhere _ apart]
  exact owned.lawful owner (List.mem_cons_of_mem _ member)

/-- An owner changes what stands under its key and passes it on. -/
theorem exchange (owned : Owned key law rest store (before :: others))
    (same : key after = key before) (elsewhere : ∀ k, k ≠ key before → later k = store k)
    (lawful : law after (later (key after)))
    : Owned key law rest later (after :: others) := by
  have keys : (after :: others).map key = (before :: others).map key :=
    congrArg (· :: others.map key) same
  constructor
  case distinct => exact keys ▸ owned.distinct
  case lawful =>
    exact List.forall_mem_cons.mpr ⟨lawful, owned.others_lawful elsewhere⟩
  case resting =>
    intro k free
    rw [keys] at free
    rw [elsewhere k fun clash => free (clash ▸ List.mem_cons_self)]
    exact owned.resting k free

/-- A new owner takes a key that has none. -/
theorem adopt (owned : Owned key law rest store owners) (free : key owner ∉ owners.map key)
    (lawful : law owner (store (key owner)))
    : Owned key law rest store (owner :: owners) where
  distinct := List.nodup_cons.mpr ⟨free, owned.distinct⟩
  lawful := List.forall_mem_cons.mpr ⟨lawful, owned.lawful⟩
  resting k unowned := owned.resting k fun member => unowned (List.mem_cons_of_mem _ member)

/-- An owner leaves its key at rest. -/
theorem release (owned : Owned key law rest store (owner :: owners))
    (rests : rest (key owner) (store (key owner)))
    : Owned key law rest store owners where
  distinct := (List.nodup_cons.mp owned.distinct).2
  lawful other member := owned.lawful other (List.mem_cons_of_mem _ member)
  resting k unowned := by
    by_cases same : k = key owner
    · exact same ▸ rests
    · exact owned.resting k fun member => (List.mem_cons.mp member).elim same unowned

end Owned

namespace Arena

variable {α : Type u} {β : Type v} {cells : List α} {index : Nat} {old : α}

/-- A cell of an arena stands in front of the others, and so does any that replaces it. -/
theorem set_perm (found : cells[index]? = some old)
    : ∃ others,
        cells.Perm (old :: others) ∧ ∀ cell, (cells.set index cell).Perm (cell :: others) := by
  obtain ⟨bound, rfl⟩ := List.getElem?_eq_some_iff.mp found
  exact ⟨cells.eraseIdx index, (List.getElem_cons_eraseIdx_perm bound).symm,
    fun cell => List.set_perm_cons_eraseIdx bound cell⟩

/-- So does what a cell holds, if it holds anything. -/
theorem filterMap_perm (holds : α → Option β) (found : cells[index]? = some old)
    : ∃ others,
        (cells.filterMap holds).Perm ((holds old).toList ++ others)
        ∧ ∀ cell,
            ((cells.set index cell).filterMap holds).Perm ((holds cell).toList ++ others) := by
  obtain ⟨others, here, there⟩ := set_perm found
  have front {all : List α} {first : α} (same : all.Perm (first :: others))
      : (all.filterMap holds).Perm ((holds first).toList ++ others.filterMap holds) := by
    have held := same.filterMap holds
    cases holding : holds first with
    | none => rwa [List.filterMap_cons_none holding] at held
    | some value => rwa [List.filterMap_cons_some holding] at held
  exact ⟨others.filterMap holds, front here, fun cell => front (there cell)⟩

end Arena

end Foundation
