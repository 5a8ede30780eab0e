import MoenotesAssets.Foundation.Fallible
import Std.Data.TreeMap
import Mathlib.Algebra.GroupWithZero.Nat
import Mathlib.Logic.Function.Basic
import Mathlib.Order.Basic

/-! Tables keyed by a lawful order: reading after an insertion. -/

namespace Foundation.Table

universe u v w

variable {κ : Type u} {α : Type v} [Ord κ]

/-- An insertion that refuses a key in use, as a primary key does. -/
def insertNew (table : Std.TreeMap κ α) (key : κ) (value : α) : Option (Std.TreeMap κ α) :=
  if key ∈ table then none else some (table.insert key value)

/-- An insertion that accepts a key in use with the same value only. -/
def insertAgreeing [DecidableEq α] {ε : Type w} (table : Std.TreeMap κ α) (key : κ) (value : α)
    (error : ε) : Except ε (Std.TreeMap κ α) :=
  match table[key]? with
  | some old => if old = value then .ok (table.insert key value) else .error error
  | none => .ok (table.insert key value)

/-- Two entries of one key have one value. -/
def Agreeing (entries : List (κ × α)) : Prop :=
  ∀ entry ∈ entries, ∀ other ∈ entries, entry.1 = other.1 → entry.2 = other.2

omit [Ord κ] in
/-- One more entry agrees with all others. -/
theorem agreeing_cons {entry : κ × α} {rest : List (κ × α)}
    : Agreeing (entry :: rest)
      ↔ (∀ other ∈ rest, entry.1 = other.1 → entry.2 = other.2) ∧ Agreeing rest := by
  constructor
  · intro agreeing
    refine ⟨fun other member => agreeing entry List.mem_cons_self other ?_, ?_⟩
    · exact List.mem_cons_of_mem entry member
    · intro left first right second
      exact agreeing left (List.mem_cons_of_mem entry first) right
        (List.mem_cons_of_mem entry second)
  · rintro ⟨here, among⟩ left first right second same
    rcases List.mem_cons.mp first with rfl | firstRest
    · rcases List.mem_cons.mp second with rfl | secondRest
      · rfl
      · exact here right secondRest same
    · rcases List.mem_cons.mp second with rfl | secondRest
      · exact (here left firstRest same.symm).symm
      · exact among left firstRest right secondRest same

/-- The entries of a list, a later one over an earlier one. -/
def insertAll (table : Std.TreeMap κ α) (entries : List (κ × α)) : Std.TreeMap κ α :=
  entries.foldl (fun table entry => table.insert entry.1 entry.2) table

omit [Ord κ] in
/-- An entry of a function after an update is the new one or another one that stays. -/
theorem update_cases [DecidableEq κ] {table : κ → Option α} {changed other : κ} {value found : α}
    (held : Function.update table changed (some value) other = some found)
    : other = changed ∧ found = value ∨ other ≠ changed ∧ table other = some found := by
  by_cases here : other = changed
  · rw [here, Function.update_self] at held
    exact Or.inl ⟨here, (Option.some.inj held).symm⟩
  · rw [Function.update_of_ne here] at held
    exact Or.inr ⟨here, held⟩

variable [Std.TransOrd κ]

/-- An insertion is read back. -/
theorem insert_self (table : Std.TreeMap κ α) (key : κ) (value : α)
    : (table.insert key value)[key]? = some value :=
  Std.TreeMap.getElem?_insert_self

/-- A table with an entry is not empty. -/
theorem isEmpty_of_entry {table : Std.TreeMap κ α} {key : κ} {value : α}
    (held : table[key]? = some value)
    : table.isEmpty = false := by
  have member : key ∈ table := by
    rw [← Std.TreeMap.isSome_getElem?_iff_mem, held]
    rfl
  exact Std.TreeMap.isEmpty_eq_false_iff_exists_mem.mpr ⟨key, member⟩

/-- A new key is read back. -/
theorem insertNew_self {table after : Std.TreeMap κ α} {key : κ} {value : α}
    (inserted : insertNew table key value = some after)
    : after[key]? = some value := by
  rw [insertNew] at inserted
  split at inserted
  · cases inserted
  · obtain rfl := Option.some.inj inserted
    exact insert_self table key value

variable [Std.LawfulEqOrd κ]

/-- An insertion changes no other entry. -/
theorem insert_other (table : Std.TreeMap κ α) {key other : κ} (value : α)
    (apart : other ≠ key)
    : (table.insert key value)[other]? = table[other]? := by
  rw [Std.TreeMap.getElem?_insert, if_neg]
  intro same
  exact apart (Std.LawfulEqOrd.compare_eq_iff_eq.mp same).symm

/-- Reading after an insertion: the new entry or an old one. -/
theorem insert_cases {table : Std.TreeMap κ α} {key other : κ} {value found : α}
    (held : (table.insert key value)[other]? = some found)
    : other = key ∧ found = value ∨ other ≠ key ∧ table[other]? = some found := by
  by_cases same : other = key
  · subst same
    rw [insert_self] at held
    exact Or.inl ⟨rfl, (Option.some.inj held).symm⟩
  · rw [insert_other table value same] at held
    exact Or.inr ⟨same, held⟩

/-- An entry is kept by the insertion of a new key. -/
theorem insertNew_keeps {table after : Std.TreeMap κ α} {key other : κ} {value old : α}
    (inserted : insertNew table key value = some after) (held : table[other]? = some old)
    : after[other]? = some old := by
  rw [insertNew] at inserted
  split at inserted
  · cases inserted
  · rename_i absent
    obtain rfl := Option.some.inj inserted
    rw [insert_other table value, held]
    rintro rfl
    rw [← Std.TreeMap.isSome_getElem?_iff_mem, held] at absent
    exact absent rfl

/-- An insertion of a new key adds that entry alone. -/
theorem insertNew_cases {table after : Std.TreeMap κ α} {key other : κ} {value found : α}
    (inserted : insertNew table key value = some after) (held : after[other]? = some found)
    : other = key ∧ found = value ∨ table[other]? = some found := by
  rw [insertNew] at inserted
  split at inserted
  · cases inserted
  · obtain rfl := Option.some.inj inserted
    exact (insert_cases held).imp_right And.right

/-- Tables in which the same is found have the same entries. -/
theorem equiv_of_getElem? {left right : Std.TreeMap κ α}
    (same : ∀ key : κ, left[key]? = right[key]?)
    : left.Equiv right := by
  have distinct : ∀ table : Std.TreeMap κ α, table.toList.Nodup := by
    intro table
    refine (@Std.TreeMap.distinct_keys_toList κ α compare table _).imp fun apart => ?_
    rintro rfl
    exact apart Std.ReflOrd.compare_self
  refine .of_toList_perm ((List.perm_ext_iff_of_nodup (distinct left) (distinct right)).mpr ?_)
  intro entry
  rw [Std.TreeMap.mem_toList_iff_getElem?_eq_some, Std.TreeMap.mem_toList_iff_getElem?_eq_some,
    same]

/-- A table is built again from its entries. -/
theorem ofList_toList (table : Std.TreeMap κ α)
    : (Std.TreeMap.ofList table.toList compare).Equiv table := by
  classical
  refine equiv_of_getElem? fun key => ?_
  cases held : table[key]? with
  | some value =>
      exact Std.TreeMap.getElem?_ofList_of_mem Std.ReflOrd.compare_self
        Std.TreeMap.distinct_keys_toList (Std.TreeMap.mem_toList_iff_getElem?_eq_some.mpr held)
  | none =>
      have absent : key ∉ Std.TreeMap.ofList table.toList compare := by
        rw [Std.TreeMap.mem_ofList, Std.TreeMap.map_fst_toList_eq_keys, List.contains_iff_mem,
          Std.TreeMap.mem_keys, ← Std.TreeMap.isSome_getElem?_iff_mem, held]
        exact Bool.false_ne_true
      exact Std.TreeMap.getElem?_eq_none absent

-----------------------------------------------------------------------------------------
-- Entries of a list
-----------------------------------------------------------------------------------------

/-- What is found after insertions was inserted or was there before. -/
theorem insertAll_cases {table : Std.TreeMap κ α} {entries : List (κ × α)} {key : κ} {found : α}
    (held : (insertAll table entries)[key]? = some found)
    : (key, found) ∈ entries ∨ table[key]? = some found := by
  induction entries generalizing table with
  | nil => exact Or.inr held
  | cons entry rest ih =>
      rcases @ih (table.insert entry.1 entry.2) held with later | before
      · exact Or.inl (List.mem_cons_of_mem entry later)
      · rcases insert_cases before with ⟨rfl, rfl⟩ | ⟨-, old⟩
        · exact Or.inl List.mem_cons_self
        · exact Or.inr old

/-- The keys after insertions are those of the entries and those before. -/
theorem mem_insertAll_iff {table : Std.TreeMap κ α} {entries : List (κ × α)} {key : κ}
    : key ∈ insertAll table entries ↔ key ∈ entries.map Prod.fst ∨ key ∈ table := by
  induction entries generalizing table with
  | nil => simp [insertAll]
  | cons entry rest ih =>
      have unfolded : insertAll table (entry :: rest)
          = insertAll (table.insert entry.1 entry.2) rest := rfl
      rw [unfolded, ih, Std.TreeMap.mem_insert, Std.LawfulEqOrd.compare_eq_iff_eq, List.map_cons,
        List.mem_cons]
      constructor
      · rintro (later | rfl | before)
        · exact Or.inl (Or.inr later)
        · exact Or.inl (Or.inl rfl)
        · exact Or.inr before
      · rintro ((rfl | later) | before)
        · exact Or.inr (Or.inl rfl)
        · exact Or.inl later
        · exact Or.inr (Or.inr before)

omit [Std.TransOrd κ] [Std.LawfulEqOrd κ] in
/-- Entries are inserted part by part. -/
theorem insertAll_append (table : Std.TreeMap κ α) (entries later : List (κ × α))
    : insertAll table (entries ++ later) = insertAll (insertAll table entries) later :=
  List.foldl_append

/-- New entries with distinct keys are inserted one after another, by induction on them. -/
theorem foldlM_insertNew {table : Std.TreeMap κ α} {entries : List (κ × α)}
    (distinct : (entries.map Prod.fst).Nodup) (fresh : ∀ entry ∈ entries, entry.1 ∉ table)
    : entries.foldlM (fun rows entry => insertNew rows entry.1 entry.2) table
      = some (insertAll table entries) := by
  induction entries generalizing table with
  | nil => rfl
  | cons entry rest ih =>
      obtain ⟨apart, distinct⟩ := List.nodup_cons.mp distinct
      obtain ⟨absent, fresh⟩ := List.forall_mem_cons.mp fresh
      rw [List.foldlM_cons, insertNew, if_neg absent]
      refine ih distinct fun later member inserted => ?_
      rw [Std.TreeMap.mem_insert, Std.LawfulEqOrd.compare_eq_iff_eq] at inserted
      rcases inserted with same | old
      · exact apart (same ▸ List.mem_map_of_mem member)
      · exact fresh later member old

/-- Entries that agree are found after their insertion. -/
theorem insertAll_agreeing {entries : List (κ × α)} (agreeing : Agreeing entries)
    {entry : κ × α} (member : entry ∈ entries)
    : (insertAll ∅ entries)[entry.1]? = some entry.2 := by
  have present : entry.1 ∈ insertAll ∅ entries :=
    mem_insertAll_iff.mpr (Or.inl (List.mem_map_of_mem member))
  obtain ⟨found, held⟩ :=
    Option.isSome_iff_exists.mp (Std.TreeMap.isSome_getElem?_iff_mem.mpr present)
  rcases insertAll_cases held with among | before
  · exact held.trans (congrArg some (agreeing _ among entry member rfl))
  · simp at before

omit [Ord κ] [Std.TransOrd κ] [Std.LawfulEqOrd κ] in
/-- Fewer entries agree as well. -/
theorem Agreeing.subset {entries fewer : List (κ × α)} (agreeing : Agreeing entries)
    (subset : fewer ⊆ entries)
    : Agreeing fewer :=
  fun entry member other among => agreeing entry (subset member) other (subset among)

omit [Std.LawfulEqOrd κ] in
/-- A table has one entry more for each insertion at most, by induction on the entries. -/
theorem size_insertAll_le (table : Std.TreeMap κ α) (entries : List (κ × α))
    : (insertAll table entries).size ≤ table.size + entries.length := by
  induction entries generalizing table with
  | nil => exact Nat.le_refl table.size
  | cons entry rest ih =>
      have later : (insertAll table (entry :: rest)).size
          ≤ (table.insert entry.1 entry.2).size + rest.length :=
        ih (table.insert entry.1 entry.2)
      have here := @Std.TreeMap.size_insert_le κ α compare table _ entry.1 entry.2
      rw [List.length_cons]
      omega

/-- A table has one entry more for each insertion when every key is new, by induction on the
entries.
-/
theorem size_insertAll {table : Std.TreeMap κ α} {entries : List (κ × α)}
    : (insertAll table entries).size = table.size + entries.length
      ↔ (entries.map Prod.fst).Nodup ∧ ∀ entry ∈ entries, entry.1 ∉ table := by
  induction entries generalizing table with
  | nil => simp [insertAll]
  | cons entry rest ih =>
      have unfolded : insertAll table (entry :: rest)
          = insertAll (table.insert entry.1 entry.2) rest := rfl
      have later := @ih (table.insert entry.1 entry.2)
      have most := size_insertAll_le (table.insert entry.1 entry.2) rest
      have grown := @Std.TreeMap.size_insert κ α compare table _ entry.1 entry.2
      simp only [Std.TreeMap.contains_iff_mem] at grown
      rw [unfolded, List.map_cons, List.nodup_cons, List.length_cons, List.forall_mem_cons]
      by_cases present : entry.1 ∈ table
      · rw [if_pos present] at grown
        refine iff_of_false (by omega) ?_
        rintro ⟨-, absent, -⟩
        exact absent present
      · rw [if_neg present] at grown
        rw [show table.size + (rest.length + 1) = (table.insert entry.1 entry.2).size + rest.length
          by omega, later]
        constructor
        · rintro ⟨distinct, apart⟩
          refine ⟨⟨fun member => ?_, distinct⟩, present, fun other among before => ?_⟩
          · obtain ⟨other, among, same⟩ := List.mem_map.mp member
            exact apart other among
              (Std.TreeMap.mem_insert.mpr
                (Or.inl (Std.LawfulEqOrd.compare_eq_iff_eq.mpr same.symm)))
          · exact apart other among (Std.TreeMap.mem_insert.mpr (Or.inr before))
        · rintro ⟨⟨fresh, distinct⟩, -, apart⟩
          refine ⟨distinct, fun other among before => ?_⟩
          rcases Std.TreeMap.mem_insert.mp before with same | old
          · rw [Std.LawfulEqOrd.compare_eq_iff_eq] at same
            exact fresh (List.mem_map.mpr ⟨other, among, same.symm⟩)
          · exact apart other among old

omit [Std.TransOrd κ] [Std.LawfulEqOrd κ] in
/-- An agreeing insertion succeeds when the old value is the new one. -/
theorem insertAgreeing_ok [DecidableEq α] {ε : Type w} {table after : Std.TreeMap κ α} {key : κ}
    {value : α} {error : ε}
    : insertAgreeing table key value error = .ok after
      ↔ (∀ {old : α}, table[key]? = some old → old = value)
        ∧ table.insert key value = after := by
  rw [insertAgreeing]
  split
  · rename_i old held
    split
    · rename_i same
      rw [Except.ok.injEq]
      refine (and_iff_right fun {found} there => ?_).symm
      rw [← Option.some.inj (held.symm.trans there), same]
    · rename_i other
      refine iff_of_false (fun failed => by cases failed) ?_
      rintro ⟨agrees, -⟩
      exact other (agrees held)
  · rename_i absent
    rw [Except.ok.injEq]
    refine (and_iff_right fun {found} there => ?_).symm
    cases absent.symm.trans there

/-- Agreeing insertions succeed when the entries agree with each other and with the table,
by induction on the entries.
-/
theorem foldlM_insertAgreeing_ok [DecidableEq α] {ε : Type w} {table after : Std.TreeMap κ α}
    {entries : List (κ × α)} {error : ε}
    : entries.foldlM (fun table entry => insertAgreeing table entry.1 entry.2 error) table
        = .ok after
      ↔ Agreeing entries
        ∧ (∀ entry ∈ entries, ∀ {old : α}, table[entry.1]? = some old → old = entry.2)
        ∧ insertAll table entries = after := by
  induction entries generalizing table with
  | nil =>
      simp only [List.foldlM_nil, pure_ok, insertAll, List.foldl_nil]
      refine ⟨fun same => ⟨?_, ?_, same⟩, fun all => all.2.2⟩
      · intro left member
        cases member
      · intro entry member
        cases member
  | cons entry rest ih =>
      simp only [List.foldlM_cons, bind_ok, insertAgreeing_ok, ih]
      rw [agreeing_cons, List.forall_mem_cons]
      constructor
      · rintro ⟨middle, ⟨here, rfl⟩, among, between, rfl⟩
        have first : ∀ other ∈ rest, entry.1 = other.1 → entry.2 = other.2 := by
          intro other member same
          refine between other member ?_
          rw [← same, insert_self]
        refine ⟨⟨first, among⟩, ⟨here, fun other member old held => ?_⟩, rfl⟩
        by_cases same : other.1 = entry.1
        · rw [← first other member same.symm]
          exact here (same ▸ held)
        · exact between other member ((insert_other table entry.2 same).trans held)
      · rintro ⟨⟨first, among⟩, ⟨here, between⟩, rfl⟩
        refine ⟨_, ⟨here, rfl⟩, among, fun other member old held => ?_, rfl⟩
        rcases insert_cases held with ⟨same, rfl⟩ | ⟨-, before⟩
        · exact first other member same.symm
        · exact between other member before

/-- The entry of a key after it was set to `entry`, or removed. -/
def replace (table : Std.TreeMap κ α) (key : κ) (entry : Option α) : Std.TreeMap κ α :=
  match entry with
  | some value => table.insert key value
  | none => table.erase key

omit [Std.LawfulEqOrd κ] in
/-- A replaced entry is read back. -/
theorem replace_self (table : Std.TreeMap κ α) (key : κ) (entry : Option α)
    : (replace table key entry)[key]? = entry := by
  cases entry with
  | none => exact Std.TreeMap.getElem?_erase_self
  | some value => exact insert_self table key value

/-- A replacement changes no other entry. -/
theorem replace_other (table : Std.TreeMap κ α) {key other : κ} (entry : Option α)
    (apart : other ≠ key)
    : (replace table key entry)[other]? = table[other]? := by
  cases entry with
  | some value => exact insert_other table value apart
  | none =>
      rw [replace, Std.TreeMap.getElem?_erase, if_neg]
      intro same
      exact apart (Std.LawfulEqOrd.compare_eq_iff_eq.mp same).symm

/-- The sum of a weight over the entries. -/
def total (weight : κ → α → Nat) (table : Std.TreeMap κ α) : Nat :=
  (table.toList.map fun entry => weight entry.1 entry.2).sum

/-- A new entry adds its weight. -/
theorem total_insert (weight : κ → α → Nat) {table : Std.TreeMap κ α} {key : κ} (value : α)
    (absent : key ∉ table)
    : total weight (table.insert key value) = weight key value + total weight table := by
  classical
  have others : table.toList.filter (fun entry => ¬key == entry.1) = table.toList := by
    refine List.filter_eq_self.mpr fun entry member => ?_
    have held := Std.TreeMap.mem_toList_iff_getElem?_eq_some.mp member
    rw [decide_eq_true_eq, beq_iff_eq]
    rintro rfl
    exact absent (Std.TreeMap.isSome_getElem?_iff_mem.mp (by rw [held]; rfl))
  have listed := @Std.TreeMap.toList_insert_perm κ α compare table _ _ _ key value
  rw [others] at listed
  rw [total, (listed.map _).sum_nat, List.map_cons, List.sum_cons, total]

/-- Two weights that differ at one key only have sums that differ by it: the keys of the
other entries are different.
-/
theorem total_change {left right : κ → α → Nat} {table : Std.TreeMap κ α} {key : κ} {value : α}
    (held : table[key]? = some value)
    (same : ∀ {other : κ} {found : α}, other ≠ key → left other found = right other found)
    : total left table + right key value = total right table + left key value := by
  have member := Std.TreeMap.mem_toList_iff_getElem?_eq_some.mpr held
  have distinct := @Std.TreeMap.distinct_keys_toList κ α compare table _
  obtain ⟨before, after, split⟩ := List.append_of_mem member
  rw [split, List.pairwise_append] at distinct
  obtain ⟨-, tail, across⟩ := distinct
  have others : ∀ entry, entry ∈ before ∨ entry ∈ after →
      left entry.1 entry.2 = right entry.1 entry.2 := by
    intro entry place
    refine same fun equal => ?_
    rcases place with first | last
    · exact across entry first (key, value) List.mem_cons_self
        (Std.LawfulEqOrd.compare_eq_iff_eq.mpr equal)
    · exact (List.pairwise_cons.mp tail).1 entry last
        (Std.LawfulEqOrd.compare_eq_iff_eq.mpr equal.symm)
  have heads := List.map_congr_left fun entry member => others entry (Or.inl member)
  have tails := List.map_congr_left fun entry member => others entry (Or.inr member)
  simp only [total, split, List.map_append, List.map_cons, List.sum_append, List.sum_cons, heads,
    tails]
  omega

omit [Std.LawfulEqOrd κ] in
/-- A modified entry is read back modified. -/
theorem modify_self (table : Std.TreeMap κ α) {key : κ} {value : α} (change : α → α)
    (held : table[key]? = some value)
    : (table.modify key change)[key]? = some (change value) := by
  rw [Std.TreeMap.getElem?_modify_self, held, Option.map_some]

/-- A modification changes no other entry. -/
theorem modify_other (table : Std.TreeMap κ α) {key other : κ} (change : α → α)
    (apart : other ≠ key)
    : (table.modify key change)[other]? = table[other]? := by
  rw [Std.TreeMap.getElem?_modify, if_neg]
  intro same
  exact apart (Std.LawfulEqOrd.compare_eq_iff_eq.mp same).symm

/-- Ascending keys are determined by their members. -/
theorem ascending_unique {left right : List κ}
    (ordered : left.Pairwise fun key other => compare key other = .lt)
    (ordered' : right.Pairwise fun key other => compare key other = .lt)
    (same : ∀ {key : κ}, key ∈ left ↔ key ∈ right)
    : left = right := by
  have distinct : ∀ {keys : List κ},
      (keys.Pairwise fun key other => compare key other = .lt) → keys.Nodup := by
    intro keys ordered
    refine ordered.imp fun before => ?_
    rintro rfl
    rw [Std.ReflOrd.compare_self] at before
    cases before
  have permuted : left.Perm right :=
    (List.perm_ext_iff_of_nodup (distinct ordered) (distinct ordered')).mpr fun _ => same
  refine permuted.eq_of_pairwise (fun key other _ _ before after => ?_) ordered ordered'
  rw [Std.OrientedOrd.eq_swap, after] at before
  cases before

end Foundation.Table
