import MoenotesAssets.Snapshots.Record
import MoenotesAssets.Foundation.Transition
import Mathlib.Logic.Function.Basic

/-! Catalog refreshes and snapshot lookups as processes run them: any number of calls of
`refresh` and `snapshot`, which stand at the points where other work may come between. The
table and the files below `catalogs` outlive a process.
-/

namespace MoenotesAssets.Snapshots
open Foundation Catalogs

-----------------------------------------------------------------------------------------
-- Calls
-----------------------------------------------------------------------------------------

/-- Where a call of `refresh` stands: before its lock, at a request, with what it has parsed,
with the temporary file written, about to persist it, with the file in place, behind its
transaction, returned, or gone with its process.
-/
inductive Stage where
  | locking
  | fetchingHash
  | fetchingBin (remoteHash : String)
  | described (bytes : List UInt8) (snapshot : Snapshot) (catalog : Catalog)
  | written (bytes : List UInt8) (snapshot : Snapshot) (catalog : Catalog)
  | placing (bytes : List UInt8) (snapshot : Snapshot) (catalog : Catalog)
  | placed (bytes : List UInt8) (snapshot : Snapshot) (catalog : Catalog)
  | committed (sid : String)
  | returned (result : Except String String)
  | died

/-- A call that may still fail. -/
def Stage.live : Stage → Bool
  | .committed _ | .returned _ | .died => false
  | _ => true

/-- A call when its process dies. -/
def Stage.killed : Stage → Stage
  | .returned result => .returned result
  | _ => .died

/-- A call of `refresh`, with its token. -/
structure Refresh where
  cancelled : Bool
  stage : Stage

/-- Where a call of `snapshot` stands: before the query for the current id, before the lock of
the cache, at the query for a row with that lock, or returned.
-/
inductive Lookup where
  | naming
  | waiting (sid : String)
  | reading (sid : String)
  | returned (result : Except String (Snapshot × Catalog))

/-- A call that may still fail. -/
def Lookup.live : Lookup → Bool
  | .returned _ => false
  | _ => true

/-- The part of `App` that refreshes and lookups use. -/
structure App where
  config : Config
  refreshLock : Option Nat
  catalogCache : Std.TreeMap String (Snapshot × Catalog)
  cacheLock : Option Nat
  lookups : Nat → Option Lookup

/-- An `App` that was opened. -/
def App.opened (config : Config) : App where
  config
  refreshLock := none
  catalogCache := ∅
  cacheLock := none
  lookups := fun _ => none

/-- A lock after a call has left. -/
def released (holder : Option Nat) (call : Nat) : Option Nat :=
  if holder = some call then none else holder

/-- The table, the files below `catalogs`, all calls of `refresh`, and the process. -/
structure World (Json : Type) where
  rows : Rows Json
  files : String → Option (List UInt8)
  refreshes : Nat → Option Refresh
  app : Option App

/-- An empty data directory. -/
def World.empty (Json : Type) : World Json where
  rows := ∅
  files := fun _ => none
  refreshes := fun _ => none
  app := none

/-- What is seen of a step: a transaction, or what a call returned. -/
inductive Label where
  | committed (call : Nat) (sid : String)
  | refreshed (call : Nat) (result : Except String String)
  | looked (call : Nat) (sid : String) (value : Snapshot × Catalog)
  | silent

-----------------------------------------------------------------------------------------
-- Steps
-----------------------------------------------------------------------------------------

section Sha

variable (sha256 : List UInt8 → List UInt8)

/-- A step of `refresh` that changes neither the files nor the table. -/
inductive Stage.Step (config : Config) (files : String → Option (List UInt8)) (cancelled : Bool)
    : Stage → Stage → Prop where
  | hash {response bytes remoteHash}
    (fetched : fetchBytes 65536 response = .ok bytes)
    (read : readRemoteHash bytes = .ok remoteHash)
    : Step config files cancelled .fetchingHash (.fetchingBin remoteHash)
  | bin {remoteHash response bytes catalog} (created : Nat)
    (fetched : fetchBytes (32 * 2 ^ 20) response = .ok bytes)
    (parsed : parse bytes = .ok catalog)
    : Step config files cancelled (.fetchingBin remoteHash)
        (.described bytes (describe sha256 config remoteHash bytes created) catalog)
  | write {bytes snapshot catalog} (runs : cancelled = false)
    : Step config files cancelled (.described bytes snapshot catalog)
        (.written bytes snapshot catalog)
  | found {bytes snapshot catalog} (found : (files snapshot.id).isSome)
    : Step config files cancelled (.written bytes snapshot catalog)
        (.placed bytes snapshot catalog)
  | absent {bytes snapshot catalog} (absent : files snapshot.id = none)
    : Step config files cancelled (.written bytes snapshot catalog)
        (.placing bytes snapshot catalog)

variable {Json : Type} (serde : Serde Json)

/-- One step of a process or of one of its calls. A call fails at any time: its token is set,
a request, a file or the database fails, or its future is dropped.
-/
inductive World.Step : World Json → Label → World Json → Prop where
  | opens {world} (config : Config) (closed : world.app = none)
    : Step world .silent { world with app := some (.opened config) }
  | dies {world}
    : Step world .silent {
        world with
        refreshes := fun call =>
          (world.refreshes call).map fun refresh => { refresh with stage := refresh.stage.killed }
        app := none
      }
  | begins {world app call} (runs : world.app = some app) (fresh : world.refreshes call = none)
    : Step world .silent {
        world with
        refreshes :=
          Function.update world.refreshes call (some { cancelled := false, stage := .locking })
      }
  | cancels {world app call refresh} (runs : world.app = some app)
    (held : world.refreshes call = some refresh)
    : Step world .silent {
        world with
        refreshes :=
          Function.update world.refreshes call (some { refresh with cancelled := true })
      }
  | locks {world app call refresh} (runs : world.app = some app)
    (held : world.refreshes call = some refresh) (stage : refresh.stage = .locking)
    (free : app.refreshLock = none)
    : Step world .silent {
        world with
        refreshes :=
          Function.update world.refreshes call (some { refresh with stage := .fetchingHash })
        app := some { app with refreshLock := some call }
      }
  | advances {world app call refresh later} (runs : world.app = some app)
    (held : world.refreshes call = some refresh)
    (step : Stage.Step sha256 app.config world.files refresh.cancelled refresh.stage later)
    : Step world .silent {
        world with
        refreshes := Function.update world.refreshes call (some { refresh with stage := later })
      }
  | places {world app call refresh bytes snapshot catalog} (runs : world.app = some app)
    (held : world.refreshes call = some refresh)
    (stage : refresh.stage = .placing bytes snapshot catalog)
    (absent : world.files snapshot.id = none)
    : Step world .silent {
        world with
        files := Function.update world.files snapshot.id (some bytes)
        refreshes :=
          Function.update world.refreshes call
            (some { refresh with stage := .placed bytes snapshot catalog })
      }
  | commits {world app call refresh bytes snapshot catalog} (runs : world.app = some app)
    (held : world.refreshes call = some refresh)
    (stage : refresh.stage = .placed bytes snapshot catalog)
    : Step world (.committed call snapshot.id) {
        world with
        rows :=
          recordSnapshot world.rows snapshot.id (serde.snapshotToString snapshot)
            (serde.catalogToString catalog)
        refreshes :=
          Function.update world.refreshes call
            (some { refresh with stage := .committed snapshot.id })
      }
  | succeeds {world app call refresh sid} (runs : world.app = some app)
    (held : world.refreshes call = some refresh) (stage : refresh.stage = .committed sid)
    : Step world (.refreshed call (.ok sid)) {
        world with
        refreshes :=
          Function.update world.refreshes call
            (some { refresh with stage := .returned (.ok sid) })
        app := some { app with refreshLock := released app.refreshLock call }
      }
  | fails {world app call refresh} (error : String) (runs : world.app = some app)
    (held : world.refreshes call = some refresh) (live : refresh.stage.live = true)
    : Step world (.refreshed call (.error error)) {
        world with
        refreshes :=
          Function.update world.refreshes call
            (some { refresh with stage := .returned (.error error) })
        app := some { app with refreshLock := released app.refreshLock call }
      }
  | looks {world app call} (id : Option String) (runs : world.app = some app)
    (fresh : app.lookups call = none)
    : Step world .silent {
        world with
        app := some {
          app with
          lookups :=
            Function.update app.lookups call (some (id.elim Lookup.naming Lookup.waiting))
        }
      }
  | names {world app call sid} (runs : world.app = some app)
    (held : app.lookups call = some .naming) (current : world.rows.Current sid)
    : Step world .silent {
        world with
        app := some { app with lookups := Function.update app.lookups call (some (.waiting sid)) }
      }
  | hits {world app call sid value} (runs : world.app = some app)
    (held : app.lookups call = some (.waiting sid)) (free : app.cacheLock = none)
    (found : app.catalogCache[sid]? = some value)
    : Step world (.looked call sid value) {
        world with
        app := some {
          app with
          lookups := Function.update app.lookups call (some (.returned (.ok value)))
        }
      }
  | misses {world app call sid} (keep : String → Bool) (runs : world.app = some app)
    (held : app.lookups call = some (.waiting sid)) (free : app.cacheLock = none)
    (missing : app.catalogCache[sid]? = none)
    (room : (app.catalogCache.filter fun key _ => keep key).size < 8)
    : Step world .silent {
        world with
        app := some {
          app with
          catalogCache := app.catalogCache.filter fun key _ => keep key
          cacheLock := some call
          lookups := Function.update app.lookups call (some (.reading sid))
        }
      }
  | full {world app call sid} (keep : String → Bool) (runs : world.app = some app)
    (held : app.lookups call = some (.waiting sid)) (free : app.cacheLock = none)
    (missing : app.catalogCache[sid]? = none)
    (full : 8 ≤ (app.catalogCache.filter fun key _ => keep key).size)
    : Step world .silent {
        world with
        app := some {
          app with
          catalogCache := app.catalogCache.filter fun key _ => keep key
          lookups :=
            Function.update app.lookups call
              (some (.returned (.error "too many active catalog snapshots")))
        }
      }
  | reads {world app call sid row snapshot catalog} (runs : world.app = some app)
    (held : app.lookups call = some (.reading sid)) (found : world.rows[sid]? = some row)
    (body : serde.snapshotFromStr row.body = .ok snapshot)
    (parsed : serde.catalogFromStr row.catalog = .ok catalog)
    : Step world (.looked call sid (snapshot, catalog)) {
        world with
        app := some {
          app with
          catalogCache := app.catalogCache.insert sid (snapshot, catalog)
          cacheLock := released app.cacheLock call
          lookups := Function.update app.lookups call (some (.returned (.ok (snapshot, catalog))))
        }
      }
  | breaks {world app call lookup} (error : String) (runs : world.app = some app)
    (held : app.lookups call = some lookup) (live : lookup.live = true)
    : Step world .silent {
        world with
        app := some {
          app with
          cacheLock := released app.cacheLock call
          lookups := Function.update app.lookups call (some (.returned (.error error)))
        }
      }

/-- Refreshes and lookups over an empty data directory. -/
def refreshing : System (World Json) Label where
  initial := fun world => world = .empty Json
  step := World.Step sha256 serde

end Sha

end MoenotesAssets.Snapshots
