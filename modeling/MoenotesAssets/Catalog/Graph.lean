import MoenotesAssets.Catalog.Cache
import MoenotesAssets.Catalog.Lookup
import MoenotesAssets.Catalog.Parse
import Mathlib.Logic.Relation

/-! A parsed catalog is a closed, bounded graph: what its keys and locations name is located,
and every location is reached from the key table of the file.
-/

namespace MoenotesAssets.Catalogs

open Foundation Relation

variable {data : List UInt8}

-----------------------------------------------------------------------------------------
-- The key table
-----------------------------------------------------------------------------------------

/-- An entry of the key table: its text, if it is a string, and its ids. -/
abbrev KeyEntry := Option String × List UInt32

/-- The entry at the offset `a`, read without a cache. -/
def plainEntry (data : List UInt8) (a : UInt32) : Except Failure KeyEntry := do
  let ids ← words data (← wordAt data a 4)
  let (name, _) ← key data (plainString data) (← u32 data a) ()
  return (name, ids)

/-- The map of keys and the pending ids account for all entries. -/
structure Tables.Lists (tables : Tables) (entries : List KeyEntry) : Prop where
  keys
    : ∀ {name : String} {ids : List UInt32},
        tables.keys[name]? = some ids ↔ (some name, ids) ∈ entries
  once : (entries.filterMap Prod.fst).Nodup
  pending : ∀ {id : UInt32}, id ∈ tables.pending ↔ ∃ entry ∈ entries, id ∈ entry.2

/-- An entry whose ids are pending and whose text, if any, is a new key. -/
theorem Tables.Lists.push {tables after : Tables} {entries : List KeyEntry} {entry : KeyEntry}
    (lists : tables.Lists entries)
    (pending : after.pending = tables.pending.insertMany entry.2)
    (keys
      : entry.1 = none ∧ after.keys = tables.keys
        ∨ ∃ name,
            entry.1 = some name
            ∧ name ∉ tables.keys
            ∧ after.keys = tables.keys.insert name entry.2)
    : after.Lists (entries ++ [entry]) := by
  obtain ⟨text, ids⟩ := entry
  constructor
  case keys =>
    intro name found
    rw [List.mem_append, List.mem_singleton, Prod.mk.injEq]
    rcases keys with ⟨rfl, same⟩ | ⟨added, rfl, fresh, grown⟩
    · rw [same, lists.keys]
      simp
    · rw [grown]
      by_cases own : name = added
      · subst own
        have absent : ∀ {old : List UInt32}, (some name, old) ∉ entries := by
          intro old listed
          have held := lists.keys.mpr listed
          exact fresh (Std.TreeMap.isSome_getElem?_iff_mem.mp (by rw [held]; rfl))
        rw [Table.insert_self]
        simp [absent, eq_comm]
      · rw [Table.insert_other _ _ own, lists.keys]
        simp [own]
  case once =>
    rw [List.filterMap_append]
    rcases keys with ⟨rfl, -⟩ | ⟨added, rfl, fresh, -⟩
    · simpa using lists.once
    · simp only [List.filterMap_cons, List.filterMap_nil]
      refine List.nodup_append.mpr ⟨lists.once, by simp, ?_⟩
      intro name member other last
      obtain rfl := List.mem_singleton.mp last
      rintro rfl
      obtain ⟨⟨text, old⟩, listed, same⟩ := List.mem_filterMap.mp member
      obtain rfl : text = some name := same
      have held := lists.keys.mpr listed
      exact fresh (Std.TreeMap.isSome_getElem?_iff_mem.mp (by rw [held]; rfl))
  case pending =>
    intro id
    rw [pending, Std.TreeSet.mem_insertMany_list, lists.pending]
    simp [or_and_right, exists_or]

/-- Reading an entry adds the entry that stands in the data. -/
theorem readEntry_lists {tables after : Tables} {entries : List KeyEntry} {a : UInt32}
    (lists : tables.Lists entries) (sound : tables.cache.Sound data)
    (read : readEntry data tables a = .ok after)
    : ∃ entry,
        plainEntry data a = .ok entry
        ∧ after.Lists (entries ++ [entry])
        ∧ after.cache.Sound data := by
  simp only [readEntry, bind_ok] at read
  obtain ⟨place, placed, ids, listed, references, -, _, -, o, found, ⟨name, cache⟩, named,
    rest⟩ := read
  obtain ⟨plainly, sound'⟩ := key_sound sound named
  have direct : plainEntry data a = .ok (name, ids) := by
    simp only [plainEntry, bind_ok]
    exact ⟨place, placed, ids, listed, o, found, (name, ()), plainly, rfl⟩
  refine ⟨(name, ids), direct, ?_⟩
  cases name with
  | none =>
      obtain rfl := pure_ok.mp rest
      exact ⟨lists.push rfl (Or.inl ⟨rfl, rfl⟩), sound'⟩
  | some name =>
      simp only [bind_ok, pure_ok, ensure_ok] at rest
      obtain ⟨materialized, -, _, -, _, fresh, rfl⟩ := rest
      have absent : name ∉ tables.keys := by
        intro member
        rw [Std.TreeMap.contains_iff_mem.mpr member] at fresh
        cases fresh
      exact ⟨lists.push rfl (Or.inr ⟨name, rfl, absent, rfl⟩), sound'⟩

/-- The tables account for the entries of the key table in the data. -/
theorem readTables_lists {tables : Tables} (read : readTables data = .ok tables)
    : ∃ table entries,
        keyTable data = .ok table
        ∧ List.Forall₂ (fun a entry => plainEntry data a = .ok entry) table entries
        ∧ tables.Lists entries := by
  simp only [readTables, bind_ok] at read
  obtain ⟨_, -, _, -, _, -, _, -, _, -, _, -, table, listed, folded⟩ := read
  have start : Tables.empty.Lists [] := by constructor <;> simp [Tables.empty]
  obtain ⟨entries, entered, lists, -⟩ := foldlM_invariant
    (P := fun done tables =>
      ∃ entries,
        List.Forall₂ (fun a entry => plainEntry data a = .ok entry) done entries
        ∧ tables.Lists entries
        ∧ tables.cache.Sound data)
    folded ⟨[], .nil, start, @Cache.Sound.empty data⟩ (by
      rintro done state after a ⟨entries, entered, lists, sound⟩ step
      obtain ⟨entry, direct, lists', sound'⟩ := readEntry_lists lists sound step
      exact ⟨_, List.rel_append entered (.cons direct .nil), lists', sound'⟩)
  exact ⟨table, entries, listed, entered, lists⟩

-----------------------------------------------------------------------------------------
-- The worklist
-----------------------------------------------------------------------------------------

/-- A location names another id among its dependencies. -/
def Depends (locations : Std.TreeMap UInt32 Location) (id other : UInt32) : Prop :=
  ∃ location, locations[id]? = some location ∧ other ∈ location.dependencies

/-- The number of dependencies of all locations. -/
def edgeCount (locations : Std.TreeMap UInt32 Location) : Nat :=
  Table.total (fun _ location => location.dependencies.length) locations

/-- What holds between two rounds of the worklist that started with `roots`. -/
structure Progress.Lawful (roots : UInt32 → Prop) (progress : Progress) : Prop where
  named
    : ∀ {id : UInt32} {location : Location},
        progress.locations[id]? = some location → location.id = id
  closed
    : ∀ {id other : UInt32},
        Depends progress.locations id other
        → other ∈ progress.locations ∨ other ∈ progress.pending
  rooted : ∀ {id : UInt32}, roots id → id ∈ progress.locations ∨ id ∈ progress.pending
  reached
    : ∀ {id : UInt32},
        id ∈ progress.locations ∨ id ∈ progress.pending
        → ∃ root, roots root ∧ ReflTransGen (Depends progress.locations) root id
  size : progress.locations.size ≤ 200000
  edges : progress.edges = edgeCount progress.locations
  bounded : progress.edges ≤ 1000000

/-- Popping an id leaves every other one located or pending. -/
theorem mem_erase {progress : Progress} {other : UInt32} (id : UInt32)
    (place : other ∈ progress.locations ∨ other ∈ progress.pending)
    : other ∈ progress.locations ∨ other = id ∨ other ∈ progress.pending.erase id := by
  rcases place with located | waiting
  · exact Or.inl located
  · by_cases same : other = id
    · exact Or.inr (Or.inl same)
    · refine Or.inr (Or.inr (Std.TreeSet.mem_erase.mpr ⟨?_, waiting⟩))
      intro equal
      exact same (Std.LawfulEqOrd.compare_eq_iff_eq.mp equal).symm

/-- A new location adds its own dependencies only. -/
theorem depends_insert {locations : Std.TreeMap UInt32 Location} {id : UInt32}
    {found : Location} {from' other : UInt32}
    (depends : Depends (locations.insert id found) from' other)
    : from' = id ∧ other ∈ found.dependencies ∨ Depends locations from' other := by
  obtain ⟨location, held, listed⟩ := depends
  rcases Table.insert_cases held with ⟨rfl, rfl⟩ | ⟨-, old⟩
  · exact Or.inl ⟨rfl, listed⟩
  · exact Or.inr ⟨location, old, listed⟩

/-- A new location keeps the dependencies there are. -/
theorem Depends.insert {locations : Std.TreeMap UInt32 Location} {id from' other : UInt32}
    {found : Location} (depends : Depends locations from' other) (absent : id ∉ locations)
    : Depends (locations.insert id found) from' other := by
  obtain ⟨location, held, listed⟩ := depends
  refine ⟨location, (Table.insert_other _ _ ?_).trans held, listed⟩
  rintro rfl
  exact absent (Std.TreeMap.isSome_getElem?_iff_mem.mp (by rw [held]; rfl))

/-- A pending id is located or dropped, and what a new location depends on is located or
pending after the round.
-/
theorem Progress.Lawful.round {roots : UInt32 → Prop} {progress after : Progress}
    (lawful : progress.Lawful roots) (round : locateFirst data progress = .ok (some after))
    : after.Lawful roots := by
  obtain ⟨id, member, step⟩ := locateFirst_cases data round
  rcases step with ⟨known, rfl⟩ | ⟨found, materialized, cache, unknown, room, own, limit, rfl⟩
  · have kept : ∀ {other : UInt32}, other ∈ progress.locations ∨ other ∈ progress.pending →
        other ∈ progress.locations ∨ other ∈ progress.pending.erase id := by
      intro other place
      rcases mem_erase id place with located | rfl | waiting
      · exact Or.inl located
      · exact Or.inl known
      · exact Or.inr waiting
    refine ⟨lawful.named, fun depends => kept (lawful.closed depends),
      fun root => kept (lawful.rooted root), fun place => lawful.reached ?_, lawful.size,
      lawful.edges, lawful.bounded⟩
    exact place.imp_right Std.TreeSet.mem_of_mem_erase
  · have mem_insert : ∀ {other : UInt32},
        other ∈ progress.locations.insert id found
          ↔ other = id ∨ other ∈ progress.locations := by
      intro other
      rw [Std.TreeMap.mem_insert, Std.LawfulEqOrd.compare_eq_iff_eq, eq_comm]
    have mem_pending : ∀ {other : UInt32},
        other ∈ (progress.pending.erase id).insertMany
            (found.dependencies.filter fun v => !progress.locations.contains v)
          ↔ other ∈ progress.pending.erase id
            ∨ other ∈ found.dependencies ∧ other ∉ progress.locations := by
      intro other
      rw [Std.TreeSet.mem_insertMany_list]
      simp [← Std.TreeMap.contains_iff_mem]
    have kept : ∀ {other : UInt32}, other ∈ progress.locations ∨ other ∈ progress.pending →
        other ∈ progress.locations.insert id found
          ∨ other ∈ (progress.pending.erase id).insertMany
            (found.dependencies.filter fun v => !progress.locations.contains v) := by
      intro other place
      rcases mem_erase id place with located | rfl | waiting
      · exact Or.inl (mem_insert.mpr (Or.inr located))
      · exact Or.inl (mem_insert.mpr (Or.inl rfl))
      · exact Or.inr (mem_pending.mpr (Or.inl waiting))
    have old : ∀ {root other : UInt32}, ReflTransGen (Depends progress.locations) root other →
        ReflTransGen (Depends (progress.locations.insert id found)) root other :=
      fun path => ReflTransGen.mono
        (fun _ _ depends => Depends.insert depends unknown) _ _ path
    have reached : ∀ {other : UInt32},
        other = id ∨ other ∈ progress.locations ∨ other ∈ progress.pending →
        ∃ root, roots root
          ∧ ReflTransGen (Depends (progress.locations.insert id found)) root other := by
      intro other place
      have before : other ∈ progress.locations ∨ other ∈ progress.pending := by
        rcases place with rfl | place
        · exact Or.inr member
        · exact place
      obtain ⟨root, isRoot, path⟩ := lawful.reached before
      exact ⟨root, isRoot, old path⟩
    constructor
    case named =>
      intro other location held
      rcases Table.insert_cases held with ⟨rfl, rfl⟩ | ⟨-, old⟩
      · exact own
      · exact lawful.named old
    case closed =>
      intro other next depends
      rcases depends_insert depends with ⟨rfl, listed⟩ | before
      · by_cases located : next ∈ progress.locations
        · exact kept (Or.inl located)
        · exact Or.inr (mem_pending.mpr (Or.inr ⟨listed, located⟩))
      · exact kept (lawful.closed before)
    case rooted => exact fun root => kept (lawful.rooted root)
    case reached =>
      intro other place
      rcases place with located | waiting
      · rcases mem_insert.mp located with same | before
        · exact reached (Or.inl same)
        · exact reached (Or.inr (Or.inl before))
      · rcases mem_pending.mp waiting with before | ⟨listed, -⟩
        · exact reached (Or.inr (Or.inr (Std.TreeSet.mem_of_mem_erase before)))
        · obtain ⟨root, isRoot, path⟩ := reached (Or.inl rfl)
          exact ⟨root, isRoot, path.tail ⟨found, Table.insert_self _ _ _, listed⟩⟩
    case size =>
      have grown := @Std.TreeMap.size_insert_le _ _ _ progress.locations _ id found
      simp only
      omega
    case edges =>
      rw [edgeCount, Table.total_insert _ _ unknown, lawful.edges, edgeCount, Nat.add_comm]
    case bounded => exact limit

-----------------------------------------------------------------------------------------
-- The parsed catalog
-----------------------------------------------------------------------------------------

/-- Every id that a key or a location names is located. -/
structure Catalog.Closed (catalog : Catalog) : Prop where
  keys
    : ∀ {name : String} {ids : List UInt32} {id : UInt32},
        catalog.keys[name]? = some ids → id ∈ ids → id ∈ catalog.locations
  dependencies
    : ∀ {id other : UInt32},
        Depends catalog.locations id other → other ∈ catalog.locations

/-- A located id has a location. -/
theorem exists_location {locations : Std.TreeMap UInt32 Location} {id : UInt32}
    (located : id ∈ locations)
    : ∃ location, locations[id]? = some location :=
  Option.isSome_iff_exists.mp (Std.TreeMap.isSome_getElem?_iff_mem.mpr located)

/-- Resolving a key of a closed catalog finds all its locations. -/
theorem Catalog.Closed.resolve {catalog : Catalog} (closed : catalog.Closed) {key : String}
    {selector : Selector} {failure : Failure}
    (failed : catalog.resolve key selector = .error failure)
    : failure ≠ .error "location missing" := by
  simp only [Catalog.resolve, Catalog.candidates, bind_error, context_error, ensure_error,
    pure_error, and_false, exists_false, or_false] at failed
  rcases failed with (⟨-, rfl⟩ | ⟨ids, held, missing⟩) | ⟨_, _, ⟨-, rfl⟩ | ⟨_, _, -, rfl⟩⟩
  · decide
  · obtain ⟨id, member, absent⟩ := mapM_error missing
    obtain ⟨location, present⟩ := exists_location (closed.keys (context_ok.mp held) member)
    rw [present] at absent
    cases absent
  · decide
  · decide

/-- The closure of a location of a closed catalog finds all dependencies: the ids still to
visit are located.
-/
theorem Catalog.Closed.closureFrom {catalog : Catalog} (closed : catalog.Closed) {id : UInt32}
    {failure : Failure} (located : id ∈ catalog.locations)
    (failed : catalog.closureFrom id = .error failure)
    : failure ≠ .error "dependency missing" := by
  simp only [Catalog.closureFrom, bind_error, ensure_error, pure_error, and_false,
    exists_false, or_false] at failed
  rcases failed with stuck | ⟨_, _, -, rfl⟩
  · obtain ⟨last, inside, round⟩ := loop_failed
      (P := fun closure : Closure => ∀ id ∈ closure.todo, id ∈ catalog.locations) stuck
      (by
        intro closure after inside round
        obtain ⟨next, todo, split, step⟩ := visitLast_cases catalog round
        rw [split] at inside
        obtain ⟨here, later⟩ := List.forall_mem_cons.mp inside
        rcases step with ⟨-, rfl⟩ | ⟨found, -, present, -, rfl⟩
        · exact later
        · intro other member
          rcases List.mem_append.mp member with pushed | old
          · exact closed.dependencies ⟨found, present, List.mem_reverse.mp pushed⟩
          · exact later other old)
      (by simpa using located)
    obtain ⟨next, todo, split, -, missing | ⟨found, -, -, -, rfl⟩⟩ :=
      visitLast_failed catalog round
    · obtain ⟨location, present⟩ := exists_location (inside next (by simp [split]))
      cases missing.1.symm.trans present
    · decide
  · decide

/-- What `Catalog::parse` returns for a file. -/
structure Catalog.Represents (data : List UInt8) (catalog : Catalog) : Prop where
  closed : catalog.Closed
  named
    : ∀ {id : UInt32} {location : Location},
        catalog.locations[id]? = some location → location.id = id
  /-- the entries of the key table are kept, and every location is reached from their ids -/
  entries
    : ∃ table entries,
        keyTable data = .ok table
        ∧ List.Forall₂ (fun a entry => plainEntry data a = .ok entry) table entries
        ∧ (entries.filterMap Prod.fst).Nodup
        ∧ (∀ {name : String} {ids : List UInt32},
            catalog.keys[name]? = some ids ↔ (some name, ids) ∈ entries)
        ∧ (∀ entry ∈ entries, ∀ id ∈ entry.2, id ∈ catalog.locations)
        ∧ ∀ id ∈ catalog.locations,
            ∃ entry ∈ entries,
              ∃ root ∈ entry.2, ReflTransGen (Depends catalog.locations) root id
  size : catalog.locations.size ≤ 200000
  edges : edgeCount catalog.locations ≤ 1000000
  resolves
    : ∀ {key : String} {selector : Selector} {failure : Failure},
        catalog.resolve key selector = .error failure → failure ≠ .error "location missing"
  closes
    : ∀ {id : UInt32} {failure : Failure},
        id ∈ catalog.locations
        → catalog.closureFrom id = .error failure
        → failure ≠ .error "dependency missing"

/-- A parsed catalog is a closed and bounded graph over the key table of the file. -/
theorem represents_of_parse {catalog : Catalog} (parsed : parse data = .ok catalog)
    : catalog.Represents data := by
  simp only [parse, bind_ok, pure_ok] at parsed
  obtain ⟨tables, read, last, looped, rfl⟩ := parsed
  obtain ⟨table, entries, listed, entered, lists⟩ := readTables_lists read
  let roots : UInt32 → Prop := fun id => ∃ entry ∈ entries, id ∈ entry.2
  have start : Progress.Lawful roots
      {
        pending := tables.pending
        locations := ∅
        edges := 0
        materialized := tables.materialized
        cache := tables.cache
      } := by
    constructor
    case rooted => exact fun root => Or.inr (lists.pending.mpr root)
    case reached =>
      intro id place
      have waiting : id ∈ tables.pending := place.resolve_left Std.TreeMap.not_mem_emptyc
      exact ⟨id, lists.pending.mp waiting, .refl⟩
    case edges => rfl
    all_goals simp [Depends]
  obtain ⟨lawful, stopped⟩ := loop_invariant looped (fun lawful round => lawful.round round) start
  have empty : ∀ {id : UInt32}, id ∉ last.pending := by
    intro id waiting
    rw [locateFirst] at stopped
    split at stopped
    · rename_i listed
      have member := Std.TreeSet.mem_toList.mpr waiting
      rw [listed] at member
      cases member
    · dsimp only at stopped
      split at stopped
      · cases stopped
      · simp only [bind_ok, pure_ok, reduceCtorEq, and_false, exists_false] at stopped
  have located : ∀ {id : UInt32}, id ∈ last.locations ∨ id ∈ last.pending →
      id ∈ last.locations := fun place => place.resolve_right empty
  have closed : Catalog.Closed { keys := tables.keys, locations := last.locations } :=
    ⟨fun held member => located (lawful.rooted ⟨_, lists.keys.mp held, member⟩),
      fun depends => located (lawful.closed depends)⟩
  constructor
  case closed => exact closed
  case named => exact lawful.named
  case entries =>
    refine ⟨table, entries, listed, entered, lists.once, lists.keys, ?_, ?_⟩
    · exact fun entry member id own => located (lawful.rooted ⟨entry, member, own⟩)
    · intro id member
      obtain ⟨root, ⟨entry, among, own⟩, path⟩ := lawful.reached (Or.inl member)
      exact ⟨entry, among, root, own, path⟩
  case size => exact lawful.size
  case edges => exact lawful.edges ▸ lawful.bounded
  case resolves => exact closed.resolve
  case closes => exact closed.closureFrom

/-- For every file the worklist ends, from whatever state, and a catalog that is returned is
a closed and bounded graph over the key table.
-/
theorem parse_builds_graph (data : List UInt8)
    : (∀ (progress : Progress),
        ∃ count ≤ progress.measure, ∃ outcome, Rounds (locateFirst data) progress count outcome)
      ∧ ∀ {catalog : Catalog}, parse data = .ok catalog → catalog.Represents data := by
  refine ⟨fun progress => ?_, represents_of_parse⟩
  obtain ⟨count, bound, rounds⟩ := loop_rounds (locateFirst_lowers data) progress
  exact ⟨count, bound, _, rounds⟩

/-- A file with one key and two locations, one of which depends on both. -/
def cyclicFile : List UInt8 :=
  [66, 137, 227, 13, 2, 0, 0, 0, 151, 0, 0, 0, 0, 0, 0, 0, 0, 0, 0, 0, 0, 0, 0, 0, 0, 0,
    0, 0, 0, 0, 0, 0, 13, 0, 0, 0, 83, 121, 115, 116, 101, 109, 46, 83, 116, 114, 105, 110,
    103, 0, 0, 0, 0, 36, 0, 0, 0, 36, 0, 0, 0, 47, 0, 49, 0, 0, 0, 57, 0, 0, 0, 36, 0, 0,
    0, 36, 0, 0, 0, 36, 0, 0, 0, 131, 0, 0, 0, 0, 0, 0, 0, 255, 255, 255, 255, 49, 0, 0, 0,
    36, 0, 0, 0, 36, 0, 0, 0, 36, 0, 0, 0, 255, 255, 255, 255, 0, 0, 0, 0, 255, 255, 255,
    255, 49, 0, 0, 0, 8, 0, 0, 0, 99, 0, 0, 0, 71, 0, 0, 0, 4, 0, 0, 0, 71, 0, 0, 0, 8, 0,
    0, 0, 63, 0, 0, 0, 143, 0, 0, 0]

/-- The file with a cyclic dependency is parsed to its two locations. -/
theorem parse_builds_cyclic_graph
    : ∃ catalog : Catalog,
        parse cyclicFile = .ok catalog
        ∧ catalog.locations.toList.map Prod.fst = [71, 99]
        ∧ catalog.Represents cyclicFile := by
  have located : (parse cyclicFile).toOption.map (fun catalog =>
      catalog.locations.toList.map Prod.fst) = some [71, 99] := by decide +kernel
  obtain ⟨catalog, found, listed⟩ := Option.map_eq_some_iff.mp located
  have parsed : parse cyclicFile = .ok catalog := toOption_eq_some.mp found
  exact ⟨catalog, parsed, listed, (parse_builds_graph cyclicFile).2 parsed⟩

end MoenotesAssets.Catalogs
