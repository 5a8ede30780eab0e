import MoenotesAssets.Catalog.Reader
import MoenotesAssets.Foundation.Table

/-! `Catalog::parse`: the key table of the file, then the locations that a worklist of ids
reaches from it.
-/

namespace MoenotesAssets.Catalogs

open Foundation Foundation.Bytes Foundation.Machine

variable (data : List UInt8)

-----------------------------------------------------------------------------------------
-- The key table
-----------------------------------------------------------------------------------------

/-- The locals of the loop over the key table. -/
structure Tables where
  keys : Std.TreeMap String (List UInt32)
  pending : Std.TreeSet UInt32
  references : Nat
  materialized : Nat
  cache : Cache

/-- The locals before the loop over the key table. -/
def Tables.empty : Tables :=
  { keys := ∅, pending := ∅, references := 0, materialized := 0, cache := .empty }

/-- One entry of the key table, at the offset `a`. -/
def readEntry (tables : Tables) (a : UInt32) : Except Failure Tables := do
  let ids ← words data (← wordAt data a 4)
  let references ← addSize tables.references ids.length
  ensure (references ≤ 1000000) (.error "catalog key reference budget")
  let pending := tables.pending.insertMany ids
  let (name, cache) ← key data (string data) (← u32 data a) tables.cache
  match name with
  | none => return { tables with pending, references, cache }
  | some name => do
      let materialized ← addSize tables.materialized (name.utf8ByteSize + ids.length * 4)
      ensure (materialized ≤ 128 * 2 ^ 20) (.error "catalog materialization budget")
      ensure (!tables.keys.contains name) (.error "duplicate catalog key")
      return { keys := tables.keys.insert name ids, pending, references, materialized, cache }

/-- The offsets of the entries of the key table. -/
def keyTable : Except Failure (List UInt32) := do
  array data (← u32 data 8) 8

/-- `Catalog::parse` up to the end of the key table. -/
def readTables : Except Failure Tables := do
  ensure (data.length ≤ 32 * 2 ^ 20) (.error "catalog size limit")
  ensure ((← u32 data 0) == 0x0DE38942) (.error "unsupported catalog format")
  ensure ((← u32 data 4) == 2) (.error "unsupported catalog format")
  let _ ← take data 0 32
  (← keyTable data).foldlM (readEntry data) .empty

-----------------------------------------------------------------------------------------
-- The worklist
-----------------------------------------------------------------------------------------

/-- The locals of the loop over the pending ids. -/
structure Progress where
  pending : Std.TreeSet UInt32
  locations : Std.TreeMap UInt32 Location
  edges : Nat
  materialized : Nat
  cache : Cache

/-- The bytes of a location that count as materialized, before its options. -/
def Location.materialized (location : Location) : Nat :=
  location.key.utf8ByteSize + location.internal.utf8ByteSize + location.provider.utf8ByteSize
  + location.resourceType.utf8ByteSize + location.dependencies.length * 4

/-- The bytes of options that count as materialized. -/
def Options.materialized (options : Options) : Nat :=
  options.bundleName.utf8ByteSize + options.hash.utf8ByteSize

/-- One round of the loop over the pending ids, which begins with `pending.pop_first()`: the
ids are listed in ascending order.
-/
def locateFirst (progress : Progress) : Except Failure (Option Progress) :=
  match progress.pending.toList with
  | [] => .ok none
  | id :: _ =>
      let pending := progress.pending.erase id
      if progress.locations.contains id then .ok (some { progress with pending })
      else do
        ensure (progress.locations.size < 200000) (.error "location limit")
        let (found, cache) ← location data (string data) id progress.cache
        let materialized ← addSize progress.materialized found.materialized
        let materialized ← addSize materialized (found.options.elim 0 Options.materialized)
        ensure (materialized ≤ 128 * 2 ^ 20) (.error "catalog materialization budget")
        let edges ← addSize progress.edges found.dependencies.length
        ensure (edges ≤ 1000000) (.error "dependency limit")
        let unknown := found.dependencies.filter (fun v => !progress.locations.contains v)
        return some
          {
            pending := pending.insertMany unknown
            locations := progress.locations.insert id found
            edges
            materialized
            cache
          }

/-- The pending ids and the edges that may still be read. -/
def Progress.measure (progress : Progress) : Nat :=
  progress.pending.size + (1000000 - progress.edges)

/-- What a round that continues has done: it dropped a pending id that is located, or it
located the id.
-/
theorem locateFirst_cases {progress after : Progress}
    (round : locateFirst data progress = .ok (some after))
    : ∃ id ∈ progress.pending,
        (id ∈ progress.locations
          ∧ after = { progress with pending := progress.pending.erase id })
        ∨ ∃ found materialized cache,
            id ∉ progress.locations
            ∧ progress.locations.size < 200000
            ∧ found.id = id
            ∧ progress.edges + found.dependencies.length ≤ 1000000
            ∧ after
              = {
                  pending :=
                    (progress.pending.erase id).insertMany
                      (found.dependencies.filter fun v => !progress.locations.contains v)
                  locations := progress.locations.insert id found
                  edges := progress.edges + found.dependencies.length
                  materialized
                  cache
                } := by
  rw [locateFirst] at round
  split at round
  · cases round
  · rename_i id rest listed
    have member : id ∈ progress.pending :=
      Std.TreeSet.mem_toList.mp (listed ▸ List.mem_cons_self)
    refine ⟨id, member, ?_⟩
    dsimp only at round
    split at round
    · rename_i known
      obtain rfl := Option.some.inj (Except.ok.inj round)
      exact Or.inl ⟨known, rfl⟩
    · rename_i unknown
      simp only [bind_ok, pure_ok, ensure_ok, addSize_ok, decide_eq_true_eq] at round
      obtain ⟨_, room, ⟨found, cache⟩, read, _, _, materialized, _, _, _, edges, ⟨rfl, _⟩, _,
        limit, same⟩ := round
      obtain rfl := Option.some.inj same
      exact Or.inr ⟨found, materialized, cache, unknown, room, location_id data _ read, limit, rfl⟩

/-- A round that continues lowers the measure: an id leaves `pending`, and what enters it
is paid for by the edges read.
-/
theorem locateFirst_lowers : Lowers (locateFirst data) Progress.measure := by
  intro progress after round
  obtain ⟨id, member, step⟩ := locateFirst_cases data round
  have popped : (progress.pending.erase id).size + 1 = progress.pending.size := by
    have nonempty := Std.TreeSet.isEmpty_eq_false_iff_exists_mem.mpr ⟨id, member⟩
    rw [Std.TreeSet.isEmpty_eq_size_eq_zero, beq_eq_false_iff_ne] at nonempty
    rw [Std.TreeSet.size_erase, if_pos (Std.TreeSet.contains_iff_mem.mpr member)]
    omega
  rcases step with ⟨-, rfl⟩ | ⟨found, _, _, -, -, -, limit, rfl⟩
  · simp only [Progress.measure]
    omega
  · have grown := @Std.TreeSet.size_insertMany_list_le _ _ (progress.pending.erase id) _
      (found.dependencies.filter fun v => !progress.locations.contains v)
    have fewer := List.length_filter_le (fun v => !progress.locations.contains v)
      found.dependencies
    simp only [Progress.measure]
    omega

/-- `Catalog::parse` -/
def parse : Except Failure Catalog := do
  let tables ← readTables data
  let last ←
    loop (locateFirst data) (locateFirst_lowers data)
      {
        pending := tables.pending
        locations := ∅
        edges := 0
        materialized := tables.materialized
        cache := tables.cache
      }
  return { keys := tables.keys, locations := last.locations }

end MoenotesAssets.Catalogs
