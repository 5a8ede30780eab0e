import MoenotesAssets.Catalog.Graph
import Mathlib.Data.List.Nodup
import Mathlib.Data.Multiset.Basic

/-! `Catalog::closure_from` collects the locations that can be downloaded among all that a
location depends on, each once.
-/

namespace MoenotesAssets.Catalogs

open Foundation Relation

variable {catalog : Catalog} {root : UInt32} {closure after : Closure} {location : Location}

/-- Locations stand under their own ids, as `Catalog::parse` puts them. -/
def Catalog.Named (catalog : Catalog) : Prop :=
  ∀ (id : UInt32) (location : Location), catalog.locations[id]? = some location → location.id = id

/-- So are those of a catalog with the same entries. -/
theorem Catalog.Same.named {catalog other : Catalog} (same : catalog.Same other)
    (named : other.Named)
    : catalog.Named := by
  intro id location held
  rw [same.locations.getElem?_eq] at held
  exact named id location held

/-- An id that a location depends on, itself included. -/
def Catalog.Reached (catalog : Catalog) (root id : UInt32) : Prop :=
  ReflTransGen (Depends catalog.locations) root id

/-- A location that can be downloaded, under an id that another one depends on. -/
def Catalog.Offers (catalog : Catalog) (root : UInt32) (location : Location) : Prop :=
  location.options.isSome = true
  ∧ ∃ id, catalog.Reached root id ∧ catalog.locations[id]? = some location

/-- A list of the locations under some ids that can be downloaded, one for each of the ids. -/
def Catalog.Collects (catalog : Catalog) (ids : UInt32 → Prop) (out : List Location) : Prop :=
  ∃ entries : List (UInt32 × Location),
    out = entries.map Prod.snd
    ∧ (entries.map Prod.fst).Nodup
    ∧ ∀ id location,
        (id, location) ∈ entries
        ↔ ids id ∧ catalog.locations[id]? = some location ∧ location.options.isSome = true

/-- A collected location stands under one of the ids. -/
theorem Catalog.Collects.mem {ids : UInt32 → Prop} {out : List Location}
    (collects : catalog.Collects ids out)
    : location ∈ out
      ↔ location.options.isSome = true ∧ ∃ id, ids id ∧ catalog.locations[id]? = some location := by
  obtain ⟨entries, rfl, -, listed⟩ := collects
  rw [List.mem_map]
  constructor
  · rintro ⟨⟨id, found⟩, member, rfl⟩
    obtain ⟨inside, held, offered⟩ := (listed id found).mp member
    exact ⟨offered, id, inside, held⟩
  · rintro ⟨offered, id, inside, held⟩
    exact ⟨(id, location), (listed id location).mpr ⟨inside, held, offered⟩, rfl⟩

/-- Collected locations have different ids when they stand under their own. -/
theorem Catalog.Collects.once {ids : UInt32 → Prop} {out : List Location}
    (collects : catalog.Collects ids out) (named : catalog.Named)
    : (out.map Location.id).Nodup := by
  obtain ⟨entries, rfl, once, listed⟩ := collects
  rw [List.map_map]
  have same : entries.map (Location.id ∘ Prod.snd) = entries.map Prod.fst :=
    List.map_congr_left fun ⟨id, found⟩ member => named id found ((listed id found).mp member).2.1
  rwa [same]

/-- What is collected depends on which ids there are only. -/
theorem Catalog.Collects.congr {ids others : UInt32 → Prop} {out : List Location}
    (collects : catalog.Collects ids out) (same : ∀ id, ids id ↔ others id)
    : catalog.Collects others out := by
  obtain ⟨entries, shape, once, listed⟩ := collects
  refine ⟨entries, shape, once, fun id found => ?_⟩
  rw [listed, same]

/-- What holds between two rounds of `closure_from`: what was seen or is to be visited is
reached, what a seen location depends on is seen or to be visited, and the locations collected
are those seen that can be downloaded, each for one id.
-/
structure Closure.Lawful (catalog : Catalog) (root : UInt32) (closure : Closure) : Prop where
  rooted : root ∈ closure.seen ∨ root ∈ closure.todo
  reached : ∀ id, id ∈ closure.seen ∨ id ∈ closure.todo → catalog.Reached root id
  closed
    : ∀ id ∈ closure.seen,
        ∃ found,
          catalog.locations[id]? = some found
          ∧ ∀ other ∈ found.dependencies, other ∈ closure.seen ∨ other ∈ closure.todo
  collected : catalog.Collects (· ∈ closure.seen) closure.out
  supported
    : ∀ location ∈ closure.out, supportedProviders.contains location.provider = true

/-- Before the first round, only the root is to be visited. -/
theorem Closure.Lawful.start (catalog : Catalog) (root : UInt32)
    : Closure.Lawful catalog root { todo := [root], seen := ∅, out := [] } where
  rooted := Or.inr List.mem_cons_self
  reached := by
    rintro id (seen | waiting)
    · exact absurd seen Std.TreeSet.not_mem_emptyc
    · obtain rfl := List.mem_singleton.mp waiting
      exact .refl
  closed := fun _ seen => absurd seen Std.TreeSet.not_mem_emptyc
  collected := by
    refine ⟨[], rfl, List.nodup_nil, fun id location => ?_⟩
    constructor
    · intro member
      cases member
    · rintro ⟨seen, -⟩
      exact absurd seen Std.TreeSet.not_mem_emptyc
  supported := fun _ member => (nomatch member)

/-- An id is seen after an insertion when it is the new one or was seen before. -/
theorem mem_seen {seen : Std.TreeSet UInt32} {id other : UInt32}
    : other ∈ seen.insert id ↔ other = id ∨ other ∈ seen := by
  rw [Std.TreeSet.mem_insert, Std.LawfulEqOrd.compare_eq_iff_eq, eq_comm]

/-- A member of a collection is the location found or was there before. -/
theorem mem_collect {out : List Location} {found : Location}
    : location ∈ collect out found
      ↔ location ∈ out ∨ location = found ∧ found.options.isSome = true := by
  unfold collect
  split
  case isTrue offered => simp [offered]
  case isFalse bare => simp [bare]

/-- A location under a new id is collected when it can be downloaded. -/
theorem Catalog.Collects.collect {seen : Std.TreeSet UInt32} {out : List Location} {id : UInt32}
    {found : Location} (collects : catalog.Collects (· ∈ seen) out) (unknown : id ∉ seen)
    (present : catalog.locations[id]? = some found)
    : catalog.Collects (· ∈ seen.insert id) (collect out found) := by
  obtain ⟨entries, rfl, once, listed⟩ := collects
  unfold Catalogs.collect
  split
  case isTrue offered =>
    refine ⟨entries ++ [(id, found)], by simp, ?_, fun other location => ?_⟩
    · rw [List.map_append, List.nodup_append]
      refine ⟨once, List.nodup_singleton _, ?_⟩
      rintro first member second new rfl
      obtain rfl := List.mem_singleton.mp new
      obtain ⟨⟨_, location⟩, inside, rfl⟩ := List.mem_map.mp member
      exact unknown ((listed _ location).mp inside).1
    · rw [List.mem_append, List.mem_singleton, listed]
      simp only [mem_seen]
      constructor
      · rintro (⟨before, held⟩ | same)
        · exact ⟨Or.inr before, held⟩
        · obtain ⟨rfl, rfl⟩ := Prod.mk.inj same
          exact ⟨Or.inl rfl, present, offered⟩
      · rintro ⟨rfl | before, held, downloadable⟩
        · cases present.symm.trans held
          exact Or.inr rfl
        · exact Or.inl ⟨before, held, downloadable⟩
  case isFalse bare =>
    refine ⟨entries, rfl, once, fun other location => ?_⟩
    rw [listed]
    simp only [mem_seen]
    refine ⟨fun all => ⟨Or.inr all.1, all.2⟩, ?_⟩
    rintro ⟨rfl | before, held, offered⟩
    · cases present.symm.trans held
      exact absurd offered bare
    · exact ⟨before, held, offered⟩

/-- A round keeps the law. -/
theorem Closure.Lawful.round (lawful : closure.Lawful catalog root)
    (round : visitLast catalog closure = .ok (some after))
    : after.Lawful catalog root := by
  obtain ⟨id, todo, next, ⟨known, rfl⟩ | ⟨found, unknown, present, supported, rfl⟩⟩ :=
    visitLast_cases catalog round
  · have kept : ∀ {other}, other ∈ closure.seen ∨ other ∈ closure.todo →
        other ∈ closure.seen ∨ other ∈ todo := by
      rintro other (seen | waiting)
      · exact Or.inl seen
      · rw [next] at waiting
        rcases List.mem_cons.mp waiting with rfl | later
        · exact Or.inl known
        · exact Or.inr later
    refine ⟨kept lawful.rooted, ?_, ?_, lawful.collected, lawful.supported⟩
    · rintro other (seen | later)
      · exact lawful.reached other (Or.inl seen)
      · exact lawful.reached other (Or.inr (next ▸ List.mem_cons_of_mem id later))
    · intro other seen
      obtain ⟨location, held, dependencies⟩ := lawful.closed other seen
      exact ⟨location, held, fun dependency member => kept (dependencies dependency member)⟩
  · have here : catalog.Reached root id :=
      lawful.reached id (Or.inr (next ▸ List.mem_cons_self))
    have kept : ∀ {other}, other ∈ closure.seen ∨ other ∈ closure.todo →
        other ∈ closure.seen.insert id ∨ other ∈ found.dependencies.reverse ++ todo := by
      rintro other (seen | waiting)
      · exact Or.inl (mem_seen.mpr (Or.inr seen))
      · rw [next] at waiting
        rcases List.mem_cons.mp waiting with rfl | later
        · exact Or.inl (mem_seen.mpr (Or.inl rfl))
        · exact Or.inr (List.mem_append_right _ later)
    refine ⟨kept lawful.rooted, ?reached, ?closed, ?collected, ?supported⟩
    case reached =>
      rintro other (seen | waiting)
      · rcases mem_seen.mp seen with rfl | before
        · exact here
        · exact lawful.reached other (Or.inl before)
      · rcases List.mem_append.mp waiting with pushed | later
        · exact here.tail ⟨found, present, List.mem_reverse.mp pushed⟩
        · exact lawful.reached other (Or.inr (next ▸ List.mem_cons_of_mem id later))
    case closed =>
      intro other seen
      rcases mem_seen.mp seen with rfl | before
      · refine ⟨found, present, fun dependency member => Or.inr ?_⟩
        exact List.mem_append_left _ (List.mem_reverse.mpr member)
      · obtain ⟨location, held, dependencies⟩ := lawful.closed other before
        exact ⟨location, held, fun dependency member => kept (dependencies dependency member)⟩
    case collected => exact lawful.collected.collect unknown present
    case supported =>
      intro location member
      rcases mem_collect.mp member with before | ⟨rfl, offered⟩
      · exact lawful.supported location before
      · exact supported offered

/-- When nothing is left to visit, everything reached has been seen, by induction on how it is
reached.
-/
theorem Closure.Lawful.seen_all (lawful : closure.Lawful catalog root) (done : closure.todo = [])
    {id : UInt32} (reached : catalog.Reached root id)
    : id ∈ closure.seen := by
  have visited : ∀ {other}, other ∈ closure.seen ∨ other ∈ closure.todo → other ∈ closure.seen := by
    rintro other (seen | waiting)
    · exact seen
    · rw [done] at waiting
      cases waiting
  induction reached with
  | refl => exact visited lawful.rooted
  | tail _ depends seen =>
      obtain ⟨location, held, member⟩ := depends
      obtain ⟨found, present, dependencies⟩ := lawful.closed _ seen
      cases held.symm.trans present
      exact visited (dependencies _ member)

/-- A round that stops has nothing left to visit. -/
theorem visitLast_stops (round : visitLast catalog closure = .ok none) : closure.todo = [] := by
  rw [visitLast] at round
  split at round
  case h_1 done => exact done
  case h_2 =>
    dsimp only at round
    split at round
    · cases round
    · obtain ⟨found, -, rest⟩ := bind_ok.mp round
      split at rest
      · obtain ⟨_, -, returned⟩ := bind_ok.mp rest
        cases returned
      · cases rest

/-- What keeps a location from being planned: an id it depends on is not located, a location
that can be downloaded has an unknown provider, or there is none.
-/
def Catalog.Stuck (catalog : Catalog) (root : UInt32) : Prop :=
  (∃ id, catalog.Reached root id ∧ catalog.locations[id]? = none)
  ∨ (∃ location,
      catalog.Offers root location ∧ supportedProviders.contains location.provider = false)
  ∨ ∀ location, ¬ catalog.Offers root location

/-- A closure lists what is offered, once for each id, and nothing is in its way. -/
theorem closureFrom_ok {out : List Location} (closed : catalog.closureFrom root = .ok out)
    : ¬ catalog.Stuck root ∧ catalog.Collects (catalog.Reached root) out := by
  simp only [Catalog.closureFrom, bind_ok, ensure_ok, pure_ok] at closed
  obtain ⟨last, looped, _, nonempty, rfl⟩ := closed
  obtain ⟨lawful, round⟩ := loop_invariant (P := Closure.Lawful catalog root) looped
    (fun lawful round => lawful.round round) (.start catalog root)
  have done := visitLast_stops round
  have collects : catalog.Collects (catalog.Reached root) last.out :=
    lawful.collected.congr fun id =>
      ⟨fun seen => lawful.reached id (Or.inl seen), lawful.seen_all done⟩
  refine ⟨?_, collects⟩
  rintro (⟨id, reached, missing⟩ | ⟨location, offered, unsupported⟩ | none)
  · obtain ⟨found, present, -⟩ := lawful.closed id (lawful.seen_all done reached)
    cases missing.symm.trans present
  · cases (lawful.supported location (collects.mem.mpr offered)).symm.trans unsupported
  · cases shown : last.out with
    | nil => simp [shown] at nonempty
    | cons location rest =>
        exact none location (collects.mem.mp (shown ▸ List.mem_cons_self))

/-- A closure fails only when something is in its way. -/
theorem closureFrom_failed {failure : Failure} (failed : catalog.closureFrom root = .error failure)
    : catalog.Stuck root := by
  simp only [Catalog.closureFrom, bind_error, ensure_error, pure_error, and_false,
    exists_false, or_false] at failed
  rcases failed with stuck | ⟨last, looped, empty, -⟩
  · obtain ⟨last, lawful, round⟩ := loop_failed (P := Closure.Lawful catalog root) stuck
      (fun lawful round => lawful.round round) (.start catalog root)
    obtain ⟨id, todo, next, -, ⟨missing, -⟩ | ⟨found, present, offered, unsupported, -⟩⟩ :=
      visitLast_failed catalog round
    · exact Or.inl ⟨id, lawful.reached id (Or.inr (next ▸ List.mem_cons_self)), missing⟩
    · refine Or.inr (Or.inl ⟨found, ⟨offered, id, ?_, present⟩, unsupported⟩)
      exact lawful.reached id (Or.inr (next ▸ List.mem_cons_self))
  · obtain ⟨lawful, round⟩ := loop_invariant (P := Closure.Lawful catalog root) looped
      (fun lawful round => lawful.round round) (.start catalog root)
    refine Or.inr (Or.inr ?_)
    rintro location ⟨offered, id, reached, held⟩
    have member := lawful.collected.mem.mpr
      ⟨offered, id, lawful.seen_all (visitLast_stops round) reached, held⟩
    rw [Bool.not_eq_false', List.isEmpty_iff] at empty
    rw [empty] at member
    cases member

/-- A closure is returned exactly when nothing is in its way. -/
theorem closureFrom_succeeds
    : (∃ out, catalog.closureFrom root = .ok out) ↔ ¬ catalog.Stuck root := by
  constructor
  · rintro ⟨out, closed⟩
    exact (closureFrom_ok closed).1
  · intro free
    cases closed : catalog.closureFrom root with
    | ok out => exact ⟨out, rfl⟩
    | error failure => exact absurd (closureFrom_failed closed) free

/-- Nothing is in the way when all ids are located, all that can be downloaded has a known
provider, and there is something to download.
-/
theorem not_stuck
    : ¬ catalog.Stuck root
      ↔ (∀ id, catalog.Reached root id → ∃ location, catalog.locations[id]? = some location)
        ∧ (∀ location,
            catalog.Offers root location → supportedProviders.contains location.provider = true)
        ∧ ∃ location, catalog.Offers root location := by
  rw [Catalog.Stuck, not_or, not_or]
  refine and_congr ?_ (and_congr ?_ not_forall_not)
  · simp only [not_exists, not_and, ← ne_eq, Option.ne_none_iff_exists']
  · simp only [not_exists, not_and, Bool.not_eq_false]

/-- The loop of `closure_from` takes one round for each edge at most, and one for the root. -/
theorem closureFrom_rounds (catalog : Catalog) (root : UInt32)
    : ∃ count ≤ 1 + edgeCount catalog.locations,
        ∃ outcome,
          Rounds (visitLast catalog) { todo := [root], seen := ∅, out := [] } count outcome
          ∧ catalog.closureFrom root
            = outcome.bind fun last =>
                (ensure (!last.out.isEmpty) (.error "no downloadable dependencies")).bind
                  fun _ => .ok last.out := by
  obtain ⟨count, bound, rounds⟩ := loop_rounds (visitLast_lowers catalog)
    { todo := [root], seen := ∅, out := [] }
  have unseen : Closure.weight { todo := [root], seen := ∅, out := [] }
      = fun _ location => location.dependencies.length := by
    funext id location
    exact if_neg Std.TreeSet.not_mem_emptyc
  rw [Closure.measure, Closure.unseen, unseen] at bound
  exact ⟨count, bound, _, rounds, rfl⟩

-----------------------------------------------------------------------------------------
-- The order of dependencies
-----------------------------------------------------------------------------------------

/-- A location, up to the order of its dependencies. -/
def Location.unordered (location : Location) : Location × Multiset UInt32 :=
  ({ location with dependencies := [] }, location.dependencies)

/-- Two catalogs locate the same under every id, up to the order of dependencies. -/
def Catalog.Reorders (catalog other : Catalog) : Prop :=
  ∀ id : UInt32,
    catalog.locations[id]?.map Location.unordered = other.locations[id]?.map Location.unordered

section Reorders

variable {other : Catalog}

/-- Being reordered is mutual. -/
theorem Catalog.Reorders.symm (reorders : catalog.Reorders other) : other.Reorders catalog :=
  fun id => (reorders id).symm

/-- What is located in one catalog is located in the other one. -/
theorem Catalog.Reorders.located (reorders : catalog.Reorders other) {id : UInt32}
    (held : catalog.locations[id]? = some location)
    : ∃ found, other.locations[id]? = some found ∧ found.unordered = location.unordered := by
  have same := reorders id
  rw [held, Option.map_some, eq_comm, Option.map_eq_some_iff] at same
  exact same

/-- Locations that agree up to the order have the same options, provider and dependencies. -/
theorem Location.unordered_eq {first second : Location} (same : first.unordered = second.unordered)
    : first.options = second.options
      ∧ first.provider = second.provider
      ∧ ∀ id, id ∈ first.dependencies ↔ id ∈ second.dependencies := by
  obtain ⟨fields, dependencies⟩ := Prod.mk.inj same
  have options : ({ first with dependencies := [] } : Location).options
      = ({ second with dependencies := [] } : Location).options :=
    congrArg Location.options fields
  have provider : ({ first with dependencies := [] } : Location).provider
      = ({ second with dependencies := [] } : Location).provider :=
    congrArg Location.provider fields
  exact ⟨options, provider, fun id => (Multiset.coe_eq_coe.mp dependencies).mem_iff⟩

/-- What is reached does not depend on the order, by induction on how it is reached. -/
theorem Catalog.Reorders.reached (reorders : catalog.Reorders other) {id : UInt32}
    (reached : catalog.Reached root id)
    : other.Reached root id := by
  induction reached with
  | refl => exact .refl
  | tail _ depends ih =>
      obtain ⟨location, held, member⟩ := depends
      obtain ⟨found, present, same⟩ := reorders.located held
      exact ih.tail ⟨found, present, ((Location.unordered_eq same).2.2 _).mpr member⟩

/-- What is offered in one catalog is offered in the other one, up to the order. -/
theorem Catalog.Reorders.offers (reorders : catalog.Reorders other)
    (offered : catalog.Offers root location)
    : ∃ found, other.Offers root found ∧ found.unordered = location.unordered := by
  obtain ⟨downloadable, id, reached, held⟩ := offered
  obtain ⟨found, present, same⟩ := reorders.located held
  refine ⟨found, ⟨?_, id, reorders.reached reached, present⟩, same⟩
  rw [(Location.unordered_eq same).1]
  exact downloadable

/-- What is in the way does not depend on the order. -/
theorem Catalog.Reorders.stuck (reorders : catalog.Reorders other) (stuck : catalog.Stuck root)
    : other.Stuck root := by
  rcases stuck with ⟨id, reached, missing⟩ | ⟨location, offered, unsupported⟩ | none
  · refine Or.inl ⟨id, reorders.reached reached, ?_⟩
    have same := reorders id
    rwa [missing, Option.map_none, eq_comm, Option.map_eq_none_iff] at same
  · obtain ⟨found, here, same⟩ := reorders.offers offered
    refine Or.inr (Or.inl ⟨found, here, ?_⟩)
    rw [(Location.unordered_eq same).2.1]
    exact unsupported
  · refine Or.inr (Or.inr fun location offered => ?_)
    obtain ⟨found, here, -⟩ := reorders.symm.offers offered
    exact none found here

/-- The entries collected under the same ids agree up to the order. -/
theorem Catalog.Reorders.entries (reorders : catalog.Reorders other) {ids : UInt32 → Prop}
    {entries entries' : List (UInt32 × Location)}
    (listed
      : ∀ id location,
          (id, location) ∈ entries
          ↔ ids id ∧ catalog.locations[id]? = some location ∧ location.options.isSome = true)
    (listed'
      : ∀ id location,
          (id, location) ∈ entries'
          ↔ ids id ∧ other.locations[id]? = some location ∧ location.options.isSome = true)
    {entry : UInt32 × Location × Multiset UInt32}
    (member : entry ∈ entries.map (Prod.map id Location.unordered))
    : entry ∈ entries'.map (Prod.map id Location.unordered) := by
  obtain ⟨⟨id, location⟩, inside, rfl⟩ := List.mem_map.mp member
  obtain ⟨among, held, offered⟩ := (listed id location).mp inside
  obtain ⟨found, present, same⟩ := reorders.located held
  refine List.mem_map.mpr ⟨(id, found), (listed' id found).mpr ⟨among, present, ?_⟩, ?_⟩
  · rw [(Location.unordered_eq same).1]
    exact offered
  · exact Prod.ext rfl same

/-- What is collected does not depend on the order. -/
theorem Catalog.Reorders.collects (reorders : catalog.Reorders other) {ids : UInt32 → Prop}
    {out out' : List Location} (collects : catalog.Collects ids out)
    (collects' : other.Collects ids out')
    : (out.map Location.unordered).Perm (out'.map Location.unordered) := by
  obtain ⟨entries, rfl, once, listed⟩ := collects
  obtain ⟨entries', rfl, once', listed'⟩ := collects'
  have keyed : ∀ {list : List (UInt32 × Location)}, (list.map Prod.fst).Nodup →
      (list.map (Prod.map id Location.unordered)).Nodup := by
    intro list nodup
    refine List.Nodup.of_map Prod.fst ?_
    rwa [List.map_map]
  have perm : (entries.map (Prod.map id Location.unordered)).Perm
      (entries'.map (Prod.map id Location.unordered)) := by
    refine (List.perm_ext_iff_of_nodup (keyed once) (keyed once')).mpr fun entry => ?_
    exact ⟨reorders.entries listed listed', reorders.symm.entries listed' listed⟩
  have second := perm.map Prod.snd
  simp only [List.map_map] at second ⊢
  exact second

end Reorders

/-- `closure_from` ends; it returns a closure exactly when all it reaches is located, all it
collects has a known provider and there is something to collect; it then returns each location
reached that can be downloaded once; and the order of dependencies does not matter.
-/
theorem closureFrom_spec (catalog : Catalog) (root : UInt32)
    : (∃ count ≤ 1 + edgeCount catalog.locations,
        ∃ outcome,
          Rounds (visitLast catalog) { todo := [root], seen := ∅, out := [] } count outcome
          ∧ catalog.closureFrom root
            = outcome.bind fun last =>
                (ensure (!last.out.isEmpty) (.error "no downloadable dependencies")).bind
                  fun _ => .ok last.out)
      ∧ ((∃ out, catalog.closureFrom root = .ok out)
        ↔ (∀ id, catalog.Reached root id → ∃ location, catalog.locations[id]? = some location)
          ∧ (∀ location,
              catalog.Offers root location
              → supportedProviders.contains location.provider = true)
          ∧ ∃ location, catalog.Offers root location)
      ∧ (∀ out, catalog.closureFrom root = .ok out → catalog.Collects (catalog.Reached root) out)
      ∧ ∀ other : Catalog,
          catalog.Reorders other
          → ((∃ out, catalog.closureFrom root = .ok out)
              ↔ ∃ out, other.closureFrom root = .ok out)
            ∧ ∀ out out' : List Location,
                catalog.closureFrom root = .ok out
                → other.closureFrom root = .ok out'
                → (out.map Location.unordered).Perm (out'.map Location.unordered) := by
  refine ⟨closureFrom_rounds catalog root, closureFrom_succeeds.trans not_stuck,
    fun out closed => (closureFrom_ok closed).2, fun other reorders => ⟨?_, ?_⟩⟩
  · rw [closureFrom_succeeds, closureFrom_succeeds]
    exact not_congr ⟨reorders.stuck, reorders.symm.stuck⟩
  · intro out out' closed closed'
    refine reorders.collects (closureFrom_ok closed).2 ((closureFrom_ok closed').2.congr ?_)
    exact fun id => ⟨reorders.symm.reached, reorders.reached⟩

end MoenotesAssets.Catalogs
