import MoenotesAssets.Foundation.Paging
import MoenotesAssets.Planning.Archiving
import MoenotesAssets.Snapshots.Currency

/-! `GET /v1/assets` and `GET /v1/resources`: the pages of a snapshot, and what a client gets that
turns them while refreshes go on.
-/

namespace MoenotesAssets.Service.Listing

open Foundation MoenotesAssets.Catalogs
open Snapshots (Reads Serde Snapshot World refreshing)

-----------------------------------------------------------------------------------------
-- The handlers
-----------------------------------------------------------------------------------------

/-- What a listing is limited to. -/
structure Filter where
  keyPrefix : Option String
  resourceType : Option String
deriving DecidableEq

/-- `service::ListQuery`; `keyPrefix` is its `prefix`. -/
structure ListQuery extends Filter where
  snapshot : Option String
  offset : Option Nat
  limit : Option Nat
deriving DecidableEq

/-- `query.offset.unwrap_or(0)` -/
def ListQuery.start (query : ListQuery) : Nat := query.offset.getD 0

/-- `query.limit.unwrap_or(100).clamp(1, 1000)` -/
def ListQuery.room (query : ListQuery) : Nat := max 1 (min (query.limit.getD 100) 1000)

/-- `starts_with` the prefix, if there is one. -/
def Filter.keeps (filter : Filter) (key : String) : Bool :=
  filter.keyPrefix.all fun start => start.toList.isPrefixOf key.toList

/-- Of the resource type, if there is one. -/
def Filter.types (filter : Filter) (location : Location) : Bool :=
  filter.resourceType.all fun kind => kind = location.resourceType

/-- A listed key with the location that it resolves to. -/
structure AssetItem where
  key : String
  resourceType : String
  provider : String
deriving DecidableEq

/-- The rows of `assets`, before it skips any. -/
def assetItems (catalog : Catalog) (filter : Filter) : List AssetItem :=
  (((catalog.keys.keys.filter filter.keeps).filterMap fun key =>
      ((catalog.resolve key { expectedType := none, locationId := none }).toOption.map
        fun location => (key, location))).filter fun entry => filter.types entry.2).map
    fun entry =>
      { key := entry.1, resourceType := entry.2.resourceType, provider := entry.2.provider }

/-- A listed location. -/
structure ResourceItem where
  key : String
  locationId : UInt32
  internalId : String
  provider : String
  options : Option Options
deriving DecidableEq

/-- The `resources` of a catalog, before any are skipped. -/
def resourceItems (catalog : Catalog) (filter : Filter) : List ResourceItem :=
  (((Planning.resources catalog).filter fun l => filter.keeps l.key).filter filter.types).map
    fun l =>
      {
        key := l.key
        locationId := l.id
        internalId := l.internal
        provider := l.provider
        options := l.options
      }

/-- An answer with a page of items. -/
structure Page (ι : Type) where
  snapshot : String
  offset : Nat
  items : List ι

/-- The page of a query in the listing of a snapshot. -/
def answerPage {ι : Type} (listing : Catalog → Filter → List ι) (found : Snapshot × Catalog)
    (query : ListQuery)
    : Page ι :=
  {
    snapshot := found.1.id
    offset := query.start
    items := page (listing found.2 query.toFilter) query.start query.room
  }

/-- `assets` behind its lookup of the snapshot. -/
def assets (found : Snapshot × Catalog) (query : ListQuery) : Page AssetItem :=
  answerPage assetItems found query

/-- The answer of `resources`. -/
structure ResourcePage extends Page ResourceItem where
  total : Nat

/-- `resources` behind its lookup of the snapshot. -/
def resources (found : Snapshot × Catalog) (query : ListQuery) : ResourcePage :=
  {
    toPage := answerPage resourceItems found query
    total := (resourceItems found.2 query.toFilter).length
  }

-----------------------------------------------------------------------------------------
-- Sessions
-----------------------------------------------------------------------------------------

/-- A request, and the snapshot that the lookup for it has found. -/
structure Visit where
  query : ListQuery
  found : Snapshot × Catalog

/-- Requests for pages of a snapshot, each from where the items so far end. -/
inductive Turns {ι : Type} (listing : Catalog → Filter → List ι) (trace : List Snapshots.Label)
    (filter : Filter) (sid : String)
    : Nat → List Visit → Prop where
  | nil (offset : Nat) : Turns listing trace filter sid offset []
  | cons {offset call : Nat} {visit : Visit} {visits : List Visit}
      (asks : visit.query.snapshot = some sid)
      (looked : Snapshots.Label.looked call sid visit.found ∈ trace)
      (limited : visit.query.toFilter = filter) (begins : visit.query.start = offset)
      (rest : Turns listing trace filter sid
        (offset + (answerPage listing visit.found visit.query).items.length) visits)
    : Turns listing trace filter sid offset (visit :: visits)

/-- The requests of a client that turns the pages of a listing: the first one names a snapshot or
takes the current one, and the others name the snapshot of the first answer.
-/
inductive Session {ι : Type} (listing : Catalog → Filter → List ι) (trace : List Snapshots.Label)
    (filter : Filter)
    : List Visit → Prop where
  | first {call : Nat} {named : String} {visit : Visit} {visits : List Visit}
      (asks : visit.query.snapshot.all (· = named) = true)
      (looked : Snapshots.Label.looked call named visit.found ∈ trace)
      (limited : visit.query.toFilter = filter) (begins : visit.query.start = 0)
      (rest : Turns listing trace filter (answerPage listing visit.found visit.query).snapshot
        (answerPage listing visit.found visit.query).items.length visits)
    : Session listing trace filter (visit :: visits)

/-- The items of all answers. -/
def received {ι : Type} (listing : Catalog → Filter → List ι) (visits : List Visit) : List ι :=
  (visits.map fun visit => (answerPage listing visit.found visit.query).items).flatten

section World

variable {sha256 : List UInt8 → List UInt8} {Json : Type} {serde : Serde Json}
  {trace : List Snapshots.Label} {world : World Json} {ι : Type}
  {listing : Catalog → Filter → List ι} {filter : Filter}

/-- A page has room. -/
theorem ListQuery.room_pos (query : ListQuery) : 0 < query.room := by
  rw [room]
  omega

/-- The pages of a snapshot are pages of its listing, by induction on the requests. -/
theorem Turns.turned {sid : String} {found : Snapshot × Catalog}
    (same : ∀ call other, Snapshots.Label.looked call sid other ∈ trace → other = found)
    {offset : Nat} {visits : List Visit} (turns : Turns listing trace filter sid offset visits)
    : (∀ visit ∈ visits, visit.found = found ∧ visit.query.toFilter = filter)
      ∧ Turned (listing found.2 filter) offset
          (visits.map fun visit => (answerPage listing visit.found visit.query).items) := by
  induction turns with
  | nil => exact ⟨fun _ member => (nomatch member), .nil _⟩
  | @cons offset call visit visits _ looked limited begins rest ih =>
      obtain ⟨others, turned⟩ := ih
      have found' := same call visit.found looked
      refine ⟨List.forall_mem_cons.mpr ⟨⟨found', limited⟩, others⟩, ?_⟩
      have items : (answerPage listing visit.found visit.query).items
          = page (listing found.2 filter) offset visit.query.room := by
        rw [answerPage, found', limited, begins]
      rw [List.map_cons, items]
      rw [items] at turned
      exact .cons visit.query.room_pos turned

/-- All lookups of a session find one snapshot, and its answers are the pages of one listing. -/
theorem Session.turned (roundTrips : serde.RoundTrips)
    (execution : (refreshing sha256 serde).Execution trace world) {visits : List Visit}
    (session : Session listing trace filter visits)
    : ∃ found,
        Reads serde world.rows found.1.id found
        ∧ (∀ visit ∈ visits, visit.found = found ∧ visit.query.toFilter = filter)
        ∧ Turned (listing found.2 filter) 0
            (visits.map fun visit => (answerPage listing visit.found visit.query).items) := by
  have lawful := Snapshots.lawful_execution execution
  cases session with
  | @first call named visit visits _ looked limited begins rest =>
      have reads := lawful.looked call named visit.found looked
      have named' : visit.found.1.id = named := by
        obtain ⟨row, held, body, -⟩ := reads
        obtain ⟨snapshot, _, _, _, _, _, _, body', -, same, -⟩ :=
          lawful.stored.backed roundTrips held
        rw [← same, Except.ok.inj (body.symm.trans body')]
      have same : ∀ call other, Snapshots.Label.looked call visit.found.1.id other ∈ trace
          → other = visit.found := by
        intro call other again
        rw [named'] at again
        exact (lawful.looked call named other again).unique reads
      obtain ⟨others, turned⟩ := rest.turned same
      refine ⟨visit.found, named' ▸ reads,
        List.forall_mem_cons.mpr ⟨⟨rfl, limited⟩, others⟩, ?_⟩
      have items : (answerPage listing visit.found visit.query).items
          = page (listing visit.found.2 filter) 0 visit.query.room := by
        rw [answerPage, limited, begins]
      rw [List.map_cons, items]
      rw [items, ← Nat.zero_add (page _ _ _).length] at turned
      exact .cons visit.query.room_pos turned

/-- What is received is the start of the listing, and all of it once a page was empty. -/
theorem received_all {found : Snapshot × Catalog} {visits : List Visit}
    (turned : Turned (listing found.2 filter) 0
      (visits.map fun visit => (answerPage listing visit.found visit.query).items))
    : received listing visits <+: listing found.2 filter
      ∧ ((∃ visit ∈ visits, (answerPage listing visit.found visit.query).items = [])
        → received listing visits = listing found.2 filter) := by
  refine ⟨⟨_, turned.items⟩, ?_⟩
  rintro ⟨visit, member, empty⟩
  exact turned.complete (List.mem_map.mpr ⟨visit, member, empty⟩)

end World

-----------------------------------------------------------------------------------------
-- What is listed
-----------------------------------------------------------------------------------------

/-- The keys that are kept with their values are among those of a list, by induction on it. -/
theorem filterMap_keys {α β : Type} (value : α → Option β) (list : List α)
    : ((list.filterMap fun key => (value key).map fun found => (key, found)).map Prod.fst).Sublist
        list := by
  induction list with
  | nil => exact .slnil
  | cons key list ih =>
      cases found : value key with
      | none =>
          rw [List.filterMap_cons_none (by rw [found]; rfl)]
          exact ih.cons key
      | some held =>
          rw [List.filterMap_cons_some (by rw [found]; rfl), List.map_cons]
          exact ih.cons_cons key

/-- The assets are listed in the order of their keys. -/
theorem assetItems_ordered (catalog : Catalog) (filter : Filter)
    : ((assetItems catalog filter).map AssetItem.key).Pairwise
        (fun first second => compare first second = .lt) := by
  have keys : ((assetItems catalog filter).map AssetItem.key).Sublist catalog.keys.keys := by
    rw [assetItems, List.map_map]
    exact (List.filter_sublist.map Prod.fst).trans
      ((filterMap_keys _ _).trans List.filter_sublist)
  exact Std.TreeMap.ordered_keys.sublist keys

/-- A key is listed when it is kept and resolves to a location of the type. -/
theorem mem_assetItems {catalog : Catalog} {filter : Filter} {key : String}
    : (∃ item ∈ assetItems catalog filter, item.key = key)
      ↔ filter.keeps key = true
        ∧ ∃ location,
            catalog.resolve key { expectedType := none, locationId := none } = .ok location
            ∧ filter.types location = true := by
  simp only [assetItems, List.mem_map, List.mem_filter, List.mem_filterMap,
    Option.map_eq_some_iff, toOption_eq_some, Std.TreeMap.mem_keys]
  constructor
  · rintro ⟨_, ⟨_, ⟨⟨key, ⟨-, kept⟩, location, resolved, rfl⟩, typed⟩, rfl⟩, rfl⟩
    exact ⟨kept, location, resolved, typed⟩
  · rintro ⟨kept, location, resolved, typed⟩
    have present : key ∈ catalog.keys := by
      have asked := resolved
      simp only [Catalog.resolve, Catalog.candidates, bind_ok, context_ok] at asked
      obtain ⟨_, ⟨ids, held, -⟩, -⟩ := asked
      rw [Std.TreeMap.mem_iff_isSome_getElem?, held]
      rfl
    exact ⟨_, ⟨(key, location), ⟨⟨key, ⟨present, kept⟩, location, resolved, rfl⟩, typed⟩, rfl⟩,
      rfl⟩

/-- The resources are listed once each. -/
theorem resourceItems_nodup {catalog : Catalog} (named : catalog.Named) (filter : Filter)
    : ((resourceItems catalog filter).map ResourceItem.locationId).Nodup := by
  rw [resourceItems, List.map_map]
  exact (Planning.resources_nodup named).sublist
    ((List.filter_sublist.trans List.filter_sublist).map Location.id)

/-- A location is listed when it is a resource that is kept and of the type. -/
theorem mem_resourceItems {catalog : Catalog} (named : catalog.Named) {filter : Filter}
    {id : UInt32}
    : (∃ item ∈ resourceItems catalog filter, item.locationId = id)
      ↔ ∃ location,
          catalog.locations[id]? = some location
          ∧ Planning.Resource catalog location
          ∧ filter.keeps location.key = true
          ∧ filter.types location = true := by
  simp only [resourceItems, List.mem_map, List.mem_filter, Planning.mem_resources]
  constructor
  · rintro ⟨_, ⟨location, ⟨⟨resource, kept⟩, typed⟩, rfl⟩, rfl⟩
    exact ⟨location, resource.own named, resource, kept, typed⟩
  · rintro ⟨location, held, resource, kept, typed⟩
    exact ⟨_, ⟨location, ⟨⟨resource, kept⟩, typed⟩, rfl⟩, named id location held⟩

-----------------------------------------------------------------------------------------
-- Turning all pages
-----------------------------------------------------------------------------------------

section World

variable {sha256 : List UInt8 → List UInt8} {Json : Type} {serde : Serde Json}
  {trace : List Snapshots.Label} {world : World Json} {filter : Filter} {visits : List Visit}

/-- A client that turns the pages of the assets of a snapshot up to an empty one gets each matching
asset of it once, in the order of the keys, whatever is refreshed in between.
-/
theorem assets_listed_once (roundTrips : serde.RoundTrips)
    (execution : (refreshing sha256 serde).Execution trace world)
    (session : Session assetItems trace filter visits)
    : ∃ found,
        Reads serde world.rows found.1.id found
        ∧ (∀ visit ∈ visits, (assets visit.found visit.query).snapshot = found.1.id)
        ∧ ((received assetItems visits).map AssetItem.key).Pairwise
            (fun first second => compare first second = .lt)
        ∧ ((∃ visit ∈ visits, (assets visit.found visit.query).items = [])
          → ∀ key,
              (∃ item ∈ received assetItems visits, item.key = key)
              ↔ filter.keeps key = true
                ∧ ∃ location,
                    found.2.resolve key { expectedType := none, locationId := none }
                      = .ok location
                    ∧ filter.types location = true) := by
  obtain ⟨found, reads, same, turned⟩ := session.turned roundTrips execution
  obtain ⟨start, whole⟩ := received_all turned
  refine ⟨found, reads, fun visit member => ?_, ?_, fun ended key => ?_⟩
  · rw [assets, answerPage, (same visit member).1]
  · exact (assetItems_ordered found.2 filter).sublist (start.sublist.map AssetItem.key)
  · rw [whole ended]
    exact mem_assetItems

/-- No limit. -/
def everything : Filter := { keyPrefix := none, resourceType := none }

/-- Three lookups of a snapshot with two assets, which are resources. -/
theorem sample_listed
    : ∃ trace world found,
        (refreshing id Snapshots.sampleSerde).Execution trace world
        ∧ (∀ call ∈ [1, 2, 3], Snapshots.Label.looked call found.1.id found ∈ trace)
        ∧ (assetItems found.2 everything).map AssetItem.key = ["a", "b"]
        ∧ (resourceItems found.2 everything).map ResourceItem.key = ["a", "b"]
        ∧ (Planning.resources found.2).foldlM (Planning.addKey found.2) [] = .ok ["a", "b"] := by
  obtain ⟨trace, world, found, catalog, execution, parsed, -, read, -, looked⟩ :=
    Snapshots.sample_looked
  refine ⟨trace, world, found, execution, looked, ?_⟩
  have listed : (parse Snapshots.sampleFile).toOption.map (fun catalog =>
      (Snapshots.sampleSerde.catalogFromStr
        (Snapshots.sampleSerde.catalogToString catalog)).toOption.map fun read =>
          ((assetItems read everything).map AssetItem.key,
            (resourceItems read everything).map ResourceItem.key,
            ((Planning.resources read).foldlM (Planning.addKey read) []).toOption))
      = some (some (["a", "b"], ["a", "b"], some ["a", "b"])) := by decide +kernel
  rw [parsed, Except.toOption, Option.map_some, ← read] at listed
  simp only [Except.toOption, Option.map_some, Option.some.injEq, Prod.mk.injEq] at listed
  exact ⟨listed.1, listed.2.1, toOption_eq_some.mp listed.2.2⟩

/-- Three requests that turn the pages of a listing of two items, one at a time. -/
theorem sample_session {ι : Type} (listing : Catalog → Filter → List ι)
    {found : Snapshot × Catalog} {trace : List Snapshots.Label}
    (looked : ∀ call ∈ [1, 2, 3], Snapshots.Label.looked call found.1.id found ∈ trace)
    (two : (listing found.2 everything).length = 2)
    : ∃ visits,
        Session listing trace everything visits
        ∧ (∃ visit ∈ visits, visit.found = found)
        ∧ ∃ visit ∈ visits, (answerPage listing visit.found visit.query).items = [] := by
  let query (offset : Nat) : ListQuery :=
    {
      toFilter := everything
      snapshot := some found.1.id
      offset := some offset
      limit := some 1
    }
  let visit (offset : Nat) : Visit := ⟨query offset, found⟩
  have items (offset : Nat)
      : (answerPage listing found (query offset)).items.length = min 1 (2 - offset) := by
    rw [← two]
    exact List.length_take.trans (congrArg _ List.length_drop)
  refine ⟨[visit 0, visit 1, visit 2], ?session, ⟨_, List.mem_cons_self, rfl⟩, visit 2, ?last, ?_⟩
  case session =>
    refine .first (decide_eq_true rfl) (looked 1 (by decide)) rfl rfl ?_
    refine .cons rfl (looked 2 (by decide)) rfl (items 0).symm ?_
    refine .cons rfl (looked 3 (by decide)) rfl ?_ (.nil _)
    rw [items 0]
    exact (congrArg (1 + ·) (items 1)).symm
  case last => simp
  exact List.length_eq_zero_iff.mp (items 2)

/-- A client gets both assets of the sample. -/
theorem assets_listed_sample
    : ∃ (trace : List Snapshots.Label) (world : World (Snapshot ⊕ Snapshots.Entries))
        (visits : List Visit),
        (refreshing id Snapshots.sampleSerde).Execution trace world
        ∧ (∃ visit ∈ visits, (assets visit.found visit.query).items = [])
        ∧ ((received assetItems visits).map AssetItem.key).Pairwise
            (fun first second => compare first second = .lt)
        ∧ ∀ key ∈ ["a", "b"], ∃ item ∈ received assetItems visits, item.key = key := by
  obtain ⟨trace, world, found, execution, looked, listed, -⟩ := sample_listed
  have two : (assetItems found.2 everything).length = 2 := by
    rw [← List.length_map AssetItem.key, listed]
    rfl
  obtain ⟨visits, session, ⟨visit, member, own⟩, ended⟩ := sample_session assetItems looked two
  obtain ⟨found', reads, same, ordered, whole⟩ :=
    assets_listed_once Snapshots.sampleSerde_roundTrips execution session
  have equal : found' = found := by
    have lawful := Snapshots.lawful_execution execution
    have named := same visit member
    rw [assets, answerPage, own] at named
    exact reads.unique (named ▸ lawful.looked 1 found.1.id found (looked 1 (by decide)))
  subst equal
  refine ⟨trace, world, visits, execution, ended, ordered, fun key among => ?_⟩
  rw [← listed] at among
  obtain ⟨item, present, rfl⟩ := List.mem_map.mp among
  exact (whole ended item.key).mpr (mem_assetItems.mp ⟨item, present, rfl⟩)

/-- A client that turns the pages of the resources of a snapshot up to an empty one gets each
matching resource of it once and as many as every page says; without a filter they are those that
an archive of the snapshot has.
-/
theorem resources_listed_once (roundTrips : serde.RoundTrips)
    (execution : (refreshing sha256 serde).Execution trace world)
    (session : Session resourceItems trace filter visits)
    : ∃ found,
        Reads serde world.rows found.1.id found
        ∧ (∀ visit ∈ visits, (resources visit.found visit.query).snapshot = found.1.id)
        ∧ ((received resourceItems visits).map ResourceItem.locationId).Nodup
        ∧ ((∃ visit ∈ visits, (resources visit.found visit.query).items = [])
          → (∀ visit ∈ visits,
              (resources visit.found visit.query).total = (received resourceItems visits).length)
            ∧ (∀ id,
                (∃ item ∈ received resourceItems visits, item.locationId = id)
                ↔ ∃ location,
                    found.2.locations[id]? = some location
                    ∧ Planning.Resource found.2 location
                    ∧ filter.keeps location.key = true
                    ∧ filter.types location = true)
            ∧ (filter = { keyPrefix := none, resourceType := none }
              → ∀ keys,
                  (Planning.resources found.2).foldlM (Planning.addKey found.2) [] = .ok keys
                  → keys = (received resourceItems visits).map ResourceItem.key)) := by
  have lawful := Snapshots.lawful_execution execution
  obtain ⟨found, reads, same, turned⟩ := session.turned roundTrips execution
  have named : found.2.Named := by
    obtain ⟨row, held, -, column⟩ := reads
    obtain ⟨_, _, _, _, _, _, _, -, column', -, -, parsed, same, -⟩ :=
      lawful.stored.backed roundTrips held
    rw [Except.ok.inj (column.symm.trans column')]
    exact same.named fun id location there => (represents_of_parse parsed).named there
  obtain ⟨start, whole⟩ := received_all turned
  refine ⟨found, reads, fun visit member => ?_, ?_, fun ended => ?_⟩
  · rw [resources, answerPage, (same visit member).1]
  · exact (resourceItems_nodup named filter).sublist (start.sublist.map ResourceItem.locationId)
  · rw [whole ended]
    refine ⟨fun visit member => ?_, fun id => mem_resourceItems named, ?_⟩
    · obtain ⟨found', limited⟩ := same visit member
      rw [resources, found', limited]
    · rintro rfl keys added
      have all : ∀ location : Location,
          Filter.keeps { keyPrefix := none, resourceType := none } location.key = true
          ∧ Filter.types { keyPrefix := none, resourceType := none } location = true :=
        fun _ => ⟨rfl, rfl⟩
      rw [(Planning.addKeys_ok.mp added).2, resourceItems, List.map_map, List.nil_append,
        List.filter_eq_self.mpr fun location _ => (all location).1,
        List.filter_eq_self.mpr fun location _ => (all location).2]
      rfl

/-- A client gets both resources of the sample, which are those of an archive of it. -/
theorem resources_listed_sample
    : ∃ (trace : List Snapshots.Label) (world : World (Snapshot ⊕ Snapshots.Entries))
        (visits : List Visit),
        (refreshing id Snapshots.sampleSerde).Execution trace world
        ∧ (∀ visit ∈ visits,
            (resources visit.found visit.query).total = (received resourceItems visits).length)
        ∧ ((received resourceItems visits).map ResourceItem.locationId).Nodup
        ∧ (received resourceItems visits).map ResourceItem.key = ["a", "b"] := by
  obtain ⟨trace, world, found, execution, looked, -, listed, added⟩ := sample_listed
  have two : (resourceItems found.2 everything).length = 2 := by
    rw [← List.length_map ResourceItem.key, listed]
    rfl
  obtain ⟨visits, session, ⟨visit, member, own⟩, ended⟩ :=
    sample_session resourceItems looked two
  obtain ⟨found', reads, same, once, whole⟩ :=
    resources_listed_once Snapshots.sampleSerde_roundTrips execution session
  have equal : found' = found := by
    have lawful := Snapshots.lawful_execution execution
    have named := same visit member
    rw [resources, answerPage, own] at named
    exact reads.unique (named ▸ lawful.looked 1 found.1.id found (looked 1 (by decide)))
  subst equal
  obtain ⟨total, -, archived⟩ := whole ended
  exact ⟨trace, world, visits, execution, total, once, (archived rfl _ added).symm⟩

end World

end MoenotesAssets.Service.Listing
