import MoenotesAssets.Foundation.Transition
import Mathlib.Data.List.Sort
import Std.Data.TreeMap

/-! Keyset pagination: a table is read in pages of increasing keys, each page after the
last key visited, while the visits rewrite the rows they are at.
-/

namespace Foundation.KeysetScan

universe u v

variable {κ : Type u} {α : Type v} [Ord κ]

-----------------------------------------------------------------------------------------
-- The scan
-----------------------------------------------------------------------------------------

/-- The table as rewritten so far, the last key visited and the rest of the page. -/
structure Cursor (κ : Type u) (α : Type v) [Ord κ] where
  table : Std.TreeMap κ α
  previous : κ
  page : List (κ × α)

/-- The rows after a key, in order. -/
def remaining (table : Std.TreeMap κ α) (previous : κ) : List (κ × α) :=
  table.toList.filter (fun row => compare previous row.1 == .lt)

/-- One step of the scan: visit the next row of the page, or query the next page. The
scan ends when that page is empty.
-/
def advance (limit : Nat) (update : Std.TreeMap κ α → κ → α → Std.TreeMap κ α)
    (cursor : Cursor κ α)
    : Option (Option κ × Cursor κ α) :=
  match cursor.page with
  | (key, row) :: rest =>
      some (some key, { table := update cursor.table key row, previous := key, page := rest })
  | [] =>
      match (remaining cursor.table cursor.previous).take limit with
      | [] => none
      | page => some (none, { cursor with page })

/-- A used up page is followed by the next rows that remain. -/
theorem advance_query {limit : Nat}
    {update : Std.TreeMap κ α → κ → α → Std.TreeMap κ α} {cursor : Cursor κ α}
    {row : κ × α} {rest : List (κ × α)} (atPage : cursor.page = [])
    (next : (remaining cursor.table cursor.previous).take limit = row :: rest)
    : advance limit update cursor = some (none, { cursor with page := row :: rest }) := by
  unfold advance
  rw [atPage]
  dsimp only
  rw [next]

/-- The cursor a scan starts with. -/
def start (table : Std.TreeMap κ α) (first : κ) : Cursor κ α :=
  { table, previous := first, page := [] }

/-- The scan as a system; a visit is labelled with its key. -/
def system (limit : Nat) (update : Std.TreeMap κ α → κ → α → Std.TreeMap κ α)
    (table : Std.TreeMap κ α) (first : κ)
    : System (Cursor κ α) (Option κ) where
  initial cursor := cursor = start table first
  step cursor visit after := advance limit update cursor = some (visit, after)

-----------------------------------------------------------------------------------------
-- Rows that remain
-----------------------------------------------------------------------------------------

section Remaining

variable [Std.TransOrd κ]

/-- No key precedes itself. -/
private theorem irrefl (key : κ) : compare key key ≠ .lt := by
  simp

/-- The remaining rows are strictly ordered. -/
theorem remaining_sorted (table : Std.TreeMap κ α) (previous : κ)
    : (remaining table previous).Pairwise (fun a b => compare a.1 b.1 = .lt) :=
  Std.TreeMap.ordered_keys_toList.filter _

variable [Std.LawfulEqOrd κ]

/-- A row remains when it is in the table after the key. -/
theorem mem_remaining {table : Std.TreeMap κ α} {previous key : κ} {row : α}
    : (key, row) ∈ remaining table previous
      ↔ table[key]? = some row ∧ compare previous key = .lt := by
  simp [remaining, Std.TreeMap.mem_toList_iff_getElem?_eq_some]

/-- What remains depends on the later rows only: both lists are strictly ordered and have
the same members.
-/
theorem remaining_congr {left right : Std.TreeMap κ α} {previous : κ}
    (same : ∀ key, compare previous key = .lt → left[key]? = right[key]?)
    : remaining left previous = remaining right previous := by
  have distinct (table : Std.TreeMap κ α) : (remaining table previous).Nodup := by
    refine (remaining_sorted table previous).imp ?_
    rintro a b before rfl
    exact irrefl _ before
  refine List.Perm.eq_of_pairwise ?_ (remaining_sorted left previous)
    (remaining_sorted right previous) ?_
  · intro a b _ _ before after
    have flipped := Std.OrientedCmp.gt_of_lt before
    rw [after] at flipped
    cases flipped
  · refine (List.perm_ext_iff_of_nodup (distinct left) (distinct right)).mpr ?_
    rintro ⟨key, row⟩
    rw [mem_remaining, mem_remaining]
    exact ⟨fun held => ⟨(same key held.2).symm.trans held.1, held.2⟩,
      fun held => ⟨(same key held.2).trans held.1, held.2⟩⟩

/-- After the first remaining row the others remain. -/
theorem remaining_tail {table : Std.TreeMap κ α} {previous key : κ} {row : α}
    {rest : List (κ × α)} (first : remaining table previous = (key, row) :: rest)
    : remaining table key = rest := by
  have member : (key, row) ∈ remaining table previous := by simp [first]
  have after := (mem_remaining.mp member).2
  have sorted := remaining_sorted table previous
  rw [first] at sorted
  have later : ∀ other ∈ rest, compare key other.1 = .lt :=
    fun other kept => List.rel_of_pairwise_cons sorted kept
  have whole : remaining table key
      = (remaining table previous).filter (fun row => compare key row.1 == .lt) := by
    rw [remaining, remaining, List.filter_filter]
    refine List.filter_congr fun other _ => ?_
    by_cases next : compare key other.1 = .lt
    · simp [next, Std.TransCmp.lt_trans after next]
    · simp [next]
  rw [whole, first, List.filter_cons_of_neg (by simp)]
  exact List.filter_eq_self.mpr fun other kept => by simp [later other kept]

end Remaining

-----------------------------------------------------------------------------------------
-- What a scan does
-----------------------------------------------------------------------------------------

/-- A visit rewrites the row it is at and no other. -/
def Rewrites (origin : Std.TreeMap κ α) (update : Std.TreeMap κ α → κ → α → Std.TreeMap κ α)
    (rewrite : κ → α → α) : Prop :=
  ∀ {key row}, origin[key]? = some row → ∀ {table : Std.TreeMap κ α},
    table[key]? = some row → ∀ other,
      (update table key row)[other]?
        = if compare key other = .eq then some (rewrite key row) else table[other]?

/-- The invariant of a scan of `origin` after the visits in `visited`: the visited keys
and those that remain are the keys of the table in order, and exactly the visited rows
are rewritten.
-/
structure Scanned (origin : Std.TreeMap κ α) (first : κ) (rewrite : κ → α → α)
    (visited : List κ) (cursor : Cursor κ α) : Prop where
  covered
    : visited ++ (remaining cursor.table cursor.previous).map Prod.fst
      = (remaining origin first).map Prod.fst
  page : cursor.page <+: remaining cursor.table cursor.previous
  behind : ∀ key ∈ visited, compare cursor.previous key ≠ .lt
  rewritten
    : ∀ key ∈ visited, cursor.table[key]? = (origin[key]?).map (rewrite key)
  untouched : ∀ key, key ∉ visited → cursor.table[key]? = origin[key]?

section Scanning

variable {limit : Nat} {update : Std.TreeMap κ α → κ → α → Std.TreeMap κ α}
variable {origin : Std.TreeMap κ α} {first : κ} {rewrite : κ → α → α}

/-- A scan starts with nothing visited. -/
theorem Scanned.start : Scanned origin first rewrite [] (start origin first) := by
  constructor
  case page => exact List.nil_prefix
  all_goals simp [KeysetScan.start]

/-- A finished scan has visited every row after the first key, in order and once. -/
theorem Scanned.finished {visited : List κ} {cursor : Cursor κ α} (pages : 0 < limit)
    (scanned : Scanned origin first rewrite visited cursor)
    (done : advance limit update cursor = none)
    : visited = (remaining origin first).map Prod.fst := by
  unfold advance at done
  split at done
  · cases done
  · split at done
    · rename_i last
      have empty : remaining cursor.table cursor.previous = [] := by
        rcases List.take_eq_nil_iff.mp last with none | empty
        · omega
        · exact empty
      simpa [empty] using scanned.covered
    · cases done

variable [Std.TransOrd κ] [Std.LawfulEqOrd κ]

/-- Every step of a scan keeps the invariant. -/
theorem Scanned.step (own : Rewrites origin update rewrite) {visited : List κ}
    {cursor after : Cursor κ α} {visit : Option κ}
    (scanned : Scanned origin first rewrite visited cursor)
    (taken : advance limit update cursor = some (visit, after))
    : Scanned origin first rewrite (visited ++ visit.toList) after := by
  unfold advance at taken
  cases atPage : cursor.page with
  | nil =>
      rw [atPage] at taken
      dsimp only at taken
      split at taken
      · cases taken
      · obtain ⟨rfl, rfl⟩ := Prod.mk.inj (Option.some.inj taken)
        simp only [Option.toList_none, List.append_nil]
        exact ⟨scanned.covered, List.take_prefix _ _, scanned.behind, scanned.rewritten,
          scanned.untouched⟩
  | cons row rest =>
      obtain ⟨key, row⟩ := row
      rw [atPage] at taken
      obtain ⟨rfl, rfl⟩ := Prod.mk.inj (Option.some.inj taken)
      obtain ⟨more, next⟩ := scanned.page
      rw [atPage, List.cons_append] at next
      have member : (key, row) ∈ remaining cursor.table cursor.previous := by simp [← next]
      obtain ⟨held, ahead⟩ := mem_remaining.mp member
      have new : key ∉ visited := fun old => scanned.behind key old ahead
      have original : origin[key]? = some row := (scanned.untouched key new).symm.trans held
      have shown := own original held
      have same : remaining (update cursor.table key row) key = rest ++ more := by
        rw [← remaining_tail next.symm]
        refine remaining_congr fun other later => ?_
        rw [shown other, if_neg (by simp [later])]
      simp only [Option.toList_some]
      constructor
      case covered =>
        rw [same, ← scanned.covered, ← next]
        simp
      case page =>
        rw [same]
        exact List.prefix_append rest more
      case behind =>
        intro other old later
        rcases List.mem_append.mp old with old | old
        · exact scanned.behind other old (Std.TransCmp.lt_trans ahead later)
        · rw [List.mem_singleton.mp old] at later
          exact irrefl _ later
      case rewritten =>
        intro other old
        dsimp only
        rw [shown other]
        rcases List.mem_append.mp old with old | old
        · rw [if_neg, scanned.rewritten other old]
          intro clash
          rw [Std.LawfulEqOrd.compare_eq_iff_eq.mp clash] at new
          exact new old
        · rw [List.mem_singleton.mp old, if_pos Std.ReflCmp.compare_self, original]
          rfl
      case untouched =>
        intro other fresh
        dsimp only
        simp only [List.mem_append, List.mem_singleton, not_or] at fresh
        rw [shown other, if_neg, scanned.untouched other fresh.1]
        intro clash
        exact fresh.2 (Std.LawfulEqOrd.compare_eq_iff_eq.mp clash).symm

/-- The invariant holds along every scan, by induction on its steps. -/
theorem scanned_of_execution (own : Rewrites origin update rewrite) {trace : List (Option κ)}
    {cursor : Cursor κ α} (run : (system limit update origin first).Execution trace cursor)
    : Scanned origin first rewrite (trace.filterMap id) cursor := by
  refine run.history (I := fun trace cursor =>
    Scanned origin first rewrite (trace.filterMap id) cursor) ?_ ?_
  · rintro cursor rfl
    exact Scanned.start
  · intro trace cursor visit after _ scanned taken
    have next := scanned.step own taken
    rw [List.filterMap_append]
    cases visit <;> simpa using next

/-- Twice the rows that remain, and one for a page to query. -/
def distance (cursor : Cursor κ α) : Nat :=
  2 * (remaining cursor.table cursor.previous).length + if cursor.page.isEmpty then 1 else 0

/-- Every step brings the scan closer to its end. -/
theorem Scanned.decreases (own : Rewrites origin update rewrite) {visited : List κ}
    {cursor after : Cursor κ α} {visit : Option κ}
    (scanned : Scanned origin first rewrite visited cursor)
    (taken : advance limit update cursor = some (visit, after))
    : distance after < distance cursor := by
  have next := scanned.step own taken
  have covered := congrArg List.length (next.covered.trans scanned.covered.symm)
  simp only [List.length_append, List.length_map] at covered
  unfold advance at taken
  unfold distance
  cases atPage : cursor.page with
  | nil =>
      rw [atPage] at taken
      dsimp only at taken
      split at taken
      · cases taken
      · rename_i nonempty
        obtain ⟨rfl, rfl⟩ := Prod.mk.inj (Option.some.inj taken)
        simp only [List.isEmpty_nil, if_true]
        rw [if_neg]
        · omega
        · simpa using nonempty
  | cons row rest =>
      rw [atPage] at taken
      obtain ⟨rfl, rfl⟩ := Prod.mk.inj (Option.some.inj taken)
      simp only [Option.toList_some, List.length_singleton, List.isEmpty_cons] at covered ⊢
      split_ifs <;> omega

/-- Every scan can be brought to its end, by induction on the distance. -/
theorem exists_finished (own : Rewrites origin update rewrite) {trace : List (Option κ)}
    {cursor : Cursor κ α} (run : (system limit update origin first).Execution trace cursor)
    : ∃ more last,
        (system limit update origin first).Path cursor more last
        ∧ advance limit update last = none := by
  generalize measured : distance cursor = far
  induction far using Nat.strongRecOn generalizing trace cursor with
  | ind far ih =>
      cases next : advance limit update cursor with
      | none => exact ⟨[], cursor, .here, next⟩
      | some taken =>
          obtain ⟨visit, after⟩ := taken
          have closer := (scanned_of_execution own run).decreases own next
          obtain ⟨more, last, path, done⟩ := ih _ (measured ▸ closer) (run.next next) rfl
          exact ⟨[visit] ++ more, last, (System.Path.here.next next).append path, done⟩

end Scanning

end Foundation.KeysetScan
