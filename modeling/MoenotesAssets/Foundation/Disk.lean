import Mathlib.Logic.Function.Basic
import Mathlib.Data.List.Infix

/-! A disk as a tree of directories and files. Every node lies in a directory, and nodes are
only ever added.
-/

namespace Foundation

/-- A path as its components, below a root. -/
abbrev Path := List String

/-- What stands at a path. -/
inductive Node where
  | file (content : List UInt8)
  | directory
  | symlink
deriving DecidableEq

/-- The nodes below a root, each in a directory. -/
@[ext] structure Disk where
  node : Path → Option Node
  root : node [] = some .directory
  parent
    : ∀ {path : Path} {name : String}, node (path ++ [name]) ≠ none → node path = some .directory

namespace Disk

/-- A disk with its root only. -/
def empty : Disk where
  node := fun path => if path = [] then some .directory else none
  root := rfl
  parent := by
    intro path name held
    rw [if_neg (List.append_ne_nil_of_right_ne_nil path (List.cons_ne_nil name []))] at held
    exact absurd rfl held

/-- A path at which a node can be created: nothing stands there, and it lies in a directory. -/
def Vacant (disk : Disk) (path : Path) : Prop :=
  disk.node path = none ∧ disk.node path.dropLast = some .directory

instance (disk : Disk) (path : Path) : Decidable (disk.Vacant path) :=
  inferInstanceAs (Decidable (_ ∧ _))

/-- A node is created where one can be. -/
def create (disk : Disk) (path : Path) (node : Node) : Disk :=
  if vacant : disk.Vacant path then {
    node := Function.update disk.node path (some node)
    root := by
      rw [Function.update_of_ne]
      · exact disk.root
      · rintro rfl
        cases disk.root.symm.trans vacant.1
    parent := by
      intro above name held
      have inside : disk.node above = some .directory := by
        by_cases same : above ++ [name] = path
        · have directory := vacant.2
          rwa [← same, List.dropLast_concat] at directory
        · rw [Function.update_of_ne same] at held
          exact disk.parent held
      rw [Function.update_of_ne]
      · exact inside
      · rintro rfl
        cases inside.symm.trans vacant.1
  }
  else disk

variable {disk later : Disk} {path above : Path} {node : Node}

-----------------------------------------------------------------------------------------
-- Nodes and their directories
-----------------------------------------------------------------------------------------

/-- Above a node there are directories, by induction on the path between. -/
theorem ancestor {below : Path} (held : disk.node (path ++ below) ≠ none) (nonempty : below ≠ [])
    : disk.node path = some .directory := by
  induction below using List.reverseRecOn with
  | nil => exact absurd rfl nonempty
  | append_singleton between name ih =>
      rw [← List.append_assoc] at held
      have directory := disk.parent held
      by_cases here : between = []
      · rwa [here, List.append_nil] at directory
      · exact ih (by rw [directory]; exact Option.some_ne_none _) here

/-- A path properly above another one. -/
def Above (above path : Path) : Prop := above <+: path ∧ above ≠ path

instance (above path : Path) : Decidable (Above above path) :=
  inferInstanceAs (Decidable (_ ∧ _))

/-- Above a node there are directories only. -/
theorem node_above (held : disk.node path ≠ none) (higher : Above above path)
    : disk.node above = some .directory := by
  obtain ⟨⟨below, rfl⟩, apart⟩ := higher
  refine ancestor held ?_
  rintro rfl
  exact apart (List.append_nil above).symm

-----------------------------------------------------------------------------------------
-- Creation
-----------------------------------------------------------------------------------------

/-- A created node stands at its path. -/
theorem create_self (vacant : disk.Vacant path)
    : (disk.create path node).node path = some node := by
  rw [create, dif_pos vacant]
  exact Function.update_self path (some node) disk.node

/-- Creation changes no other path. -/
theorem create_other (apart : above ≠ path)
    : (disk.create path node).node above = disk.node above := by
  rw [create]
  split
  · exact Function.update_of_ne apart (some node) disk.node
  · rfl

/-- A node after a creation is the created one or was there before. -/
theorem create_cases {new : Node} (held : (disk.create path new).node above = some node)
    : disk.node above = some node ∨ above = path ∧ node = new := by
  by_cases same : above = path
  · by_cases vacant : disk.Vacant path
    · rw [same, create_self vacant, Option.some.injEq] at held
      exact Or.inr ⟨same, held.symm⟩
    · rw [create, dif_neg vacant] at held
      exact Or.inl held
  · rw [create_other same] at held
    exact Or.inl held

/-- A disk keeps the nodes of an earlier one. -/
def Keeps (disk later : Disk) : Prop :=
  ∀ (path : Path) (node : Node), disk.node path = some node → later.node path = some node

/-- A disk keeps its own nodes. -/
theorem Keeps.refl (disk : Disk) : disk.Keeps disk := fun _ _ held => held

/-- Nodes are kept along a history. -/
theorem Keeps.trans {last : Disk} (first : disk.Keeps later) (second : later.Keeps last)
    : disk.Keeps last :=
  fun path node held => second path node (first path node held)

/-- What is not there later was not there before. -/
theorem Keeps.absent (keeps : disk.Keeps later) (missing : later.node path = none)
    : disk.node path = none := by
  cases held : disk.node path with
  | none => rfl
  | some node => cases (keeps path node held).symm.trans missing

/-- Creation keeps the nodes. -/
theorem keeps_create (disk : Disk) (path : Path) (node : Node)
    : disk.Keeps (disk.create path node) := by
  intro above found held
  by_cases vacant : disk.Vacant path
  · rw [create_other]
    · exact held
    · rintro rfl
      cases held.symm.trans vacant.1
  · rwa [create, dif_neg vacant]

end Disk

end Foundation
