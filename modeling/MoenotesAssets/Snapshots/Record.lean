import MoenotesAssets.Catalog.Parse
import MoenotesAssets.ObjectTree.Names
import MoenotesAssets.Foundation.Http
import MoenotesAssets.Foundation.Json

/-! The snapshot that a catalog refresh describes, the identity under which it is stored, and
the rows of the table `snapshots`.
-/

namespace MoenotesAssets.Snapshots
open Foundation Foundation.Bytes ObjectTree Catalogs

-----------------------------------------------------------------------------------------
-- Data
-----------------------------------------------------------------------------------------

/-- `service::Snapshot` -/
structure Snapshot where
  id : String
  contentSha256 : String
  region : String
  locale : String
  biliVersion : String
  cdnRoot : String
  remoteHash : String
  created : Nat
deriving DecidableEq

/-- The part of `Config` that identifies a snapshot. -/
structure Config where
  region : String
  locale : String
  biliVersion : String
  cdnRoot : String
deriving DecidableEq

/-- `serde_json` on the two values that a row holds, with texts in `Json`. -/
structure Serde (Json : Type) where
  snapshotToString : Snapshot → Json
  snapshotFromStr : Json → Except String Snapshot
  catalogToString : Catalog → Json
  catalogFromStr : Json → Except String Catalog

/-- What was written is read back, a catalog with the same entries. -/
structure Serde.RoundTrips {Json : Type} (serde : Serde Json) : Prop where
  snapshot : ∀ value, serde.snapshotFromStr (serde.snapshotToString value) = .ok value
  catalog
    : ∀ value, ∃ read,
        serde.catalogFromStr (serde.catalogToString value) = .ok read ∧ read.Same value

/-- A row of the table `snapshots`, below its primary key. -/
structure Row (Json : Type) where
  body : Json
  catalog : Json
  current : Bool

/-- The table `snapshots`. -/
abbrev Rows (Json : Type) := Std.TreeMap String (Row Json)

-----------------------------------------------------------------------------------------
-- Identities
-----------------------------------------------------------------------------------------

/-- `serde_json::to_vec` of the fields that identify a snapshot. -/
def identityBytes (config : Config) (contentSha256 : String) : List UInt8 :=
  Foundation.Json.toVec (.array [
    .string config.region,
    .string config.locale,
    .string config.biliVersion,
    .string config.cdnRoot,
    .string contentSha256
  ])

section Sha

variable (sha256 : List UInt8 → List UInt8)

/-- The id of the snapshot of some bytes. -/
def snapshotId (config : Config) (bytes : List UInt8) : String :=
  digest sha256 (identityBytes config (digest sha256 bytes))

/-- What is digested for that id. -/
def digested (config : Config) (bytes : List UInt8) : List (List UInt8) :=
  [bytes, identityBytes config (digest sha256 bytes)]

-----------------------------------------------------------------------------------------
-- `App::refresh`
-----------------------------------------------------------------------------------------

/-- One chunk in `fetch_bytes`. -/
def fetchChunk (max : Nat) (bytes chunk : List UInt8) : Except String (List UInt8) := do
  ensure (chunk.length ≤ max - bytes.length) "response size limit"
  return bytes ++ chunk

/-- `fetch_bytes` from the response on. -/
def fetchBytes (max : Nat) (response : Response) : Except String (List UInt8) := do
  let status := response.status
  ensure (status = 200) s!"CDN HTTP {status}"
  ensure (response.contentLength.all fun n => n ≤ max) "response size limit"
  let bytes ← response.chunks.foldlM (fetchChunk max) []
  ensure response.ended "error decoding response body"
  return bytes

/-- `char::is_whitespace` -/
def isWhitespace (letter : Char) : Bool :=
  let code := letter.toNat
  (9 ≤ code && code ≤ 13) || code = 0x20 || code = 0x85 || code = 0xA0 || code = 0x1680
    || (0x2000 ≤ code && code ≤ 0x200A) || code = 0x2028 || code = 0x2029 || code = 0x202F
    || code = 0x205F || code = 0x3000

/-- `trim` -/
def trim (text : String) : String :=
  String.ofList (((text.toList.dropWhile isWhitespace).reverse.dropWhile isWhitespace).reverse)

/-- The remote hash that an answer holds. -/
def readRemoteHash (hash : List UInt8) : Except String String := do
  let text ← context (fromUtf8 hash) "invalid utf-8 sequence"
  let remoteHash := trim text
  ensure (remoteHash.utf8ByteSize ≤ 128) "invalid remote hash"
  return remoteHash

/-- The snapshot of the bytes of a catalog. -/
def describe (config : Config) (remoteHash : String) (bytes : List UInt8) (created : Nat)
    : Snapshot where
  id := snapshotId sha256 config bytes
  contentSha256 := digest sha256 bytes
  region := config.region
  locale := config.locale
  biliVersion := config.biliVersion
  cdnRoot := config.cdnRoot
  remoteHash
  created

end Sha

variable {Json : Type}

/-- `UPDATE snapshots SET current=0` -/
def clearCurrent (rows : Rows Json) : Rows Json :=
  rows.map fun _ row => { row with current := false }

/-- `INSERT INTO snapshots(id,body,catalog,current) VALUES(?,?,?,1) ON CONFLICT(id) DO UPDATE
SET current=1`
-/
def insertCurrent (rows : Rows Json) (id : String) (body catalog : Json) : Rows Json :=
  match rows[id]? with
  | some row => rows.insert id { row with current := true }
  | none => rows.insert id { body, catalog, current := true }

/-- The transaction of `refresh`. -/
def recordSnapshot (rows : Rows Json) (id : String) (body catalog : Json) : Rows Json :=
  insertCurrent (clearCurrent rows) id body catalog

-----------------------------------------------------------------------------------------
-- Identities determine contents
-----------------------------------------------------------------------------------------

section Sha

variable {sha256 : List UInt8 → List UInt8}

/-- The id of a snapshot determines its bytes, unless what is digested for it collides. -/
theorem snapshotId_bytes {config config' : Config} {bytes bytes' : List UInt8}
    (secure : NoCollision sha256 (digested sha256 config bytes ++ digested sha256 config' bytes'))
    (same : snapshotId sha256 config bytes = snapshotId sha256 config' bytes')
    : bytes = bytes' := by
  have texts := digest_inj secure (by simp [digested]) (by simp [digested]) same
  have fields := Foundation.Json.toVec_injective texts
  simp only [Json.array.injEq, List.cons.injEq, Json.string.injEq, and_true] at fields
  exact digest_inj secure (by simp [digested]) (by simp [digested]) fields.2.2.2.2

end Sha

-----------------------------------------------------------------------------------------
-- Rows
-----------------------------------------------------------------------------------------

/-- Some row has the id, and is current or not. -/
def Rows.Current (rows : Rows Json) (id : String) : Prop :=
  ∃ row, rows[id]? = some row ∧ row.current = true

/-- A row of the cleared table was there before and is not current. -/
theorem clearCurrent_cases {rows : Rows Json} {id : String} {row : Row Json}
    (held : (clearCurrent rows)[id]? = some row)
    : ∃ old, rows[id]? = some old ∧ row = { old with current := false } := by
  rw [clearCurrent, Std.TreeMap.getElem?_map] at held
  obtain ⟨old, found, rfl⟩ := Option.map_eq_some_iff.mp held
  exact ⟨old, found, rfl⟩

/-- A row of the recorded table is the recorded one, with the body and the catalog that it had
before if it was there, or another one that is not current.
-/
theorem recordSnapshot_cases {rows : Rows Json} {recorded id : String} {body catalog : Json}
    {row : Row Json} (held : (recordSnapshot rows recorded body catalog)[id]? = some row)
    : (id = recorded
        ∧ row.current = true
        ∧ ((∃ old, rows[id]? = some old ∧ row.body = old.body ∧ row.catalog = old.catalog)
          ∨ rows[id]? = none ∧ row.body = body ∧ row.catalog = catalog))
      ∨ (id ≠ recorded
        ∧ row.current = false
        ∧ ∃ old, rows[id]? = some old ∧ row.body = old.body ∧ row.catalog = old.catalog) := by
  simp only [recordSnapshot, insertCurrent] at held
  cases known : (clearCurrent rows)[recorded]? with
  | some cleared =>
      rw [known] at held
      obtain ⟨old, found, rfl⟩ := clearCurrent_cases known
      rcases Table.insert_cases held with ⟨rfl, rfl⟩ | ⟨apart, other⟩
      · exact Or.inl ⟨rfl, rfl, Or.inl ⟨old, found, rfl, rfl⟩⟩
      · obtain ⟨old, found, rfl⟩ := clearCurrent_cases other
        exact Or.inr ⟨apart, rfl, old, found, rfl, rfl⟩
  | none =>
      rw [known] at held
      rcases Table.insert_cases held with ⟨rfl, rfl⟩ | ⟨apart, other⟩
      · rw [clearCurrent, Std.TreeMap.getElem?_map, Option.map_eq_none_iff] at known
        exact Or.inl ⟨rfl, rfl, Or.inr ⟨known, rfl, rfl⟩⟩
      · obtain ⟨old, found, rfl⟩ := clearCurrent_cases other
        exact Or.inr ⟨apart, rfl, old, found, rfl, rfl⟩

/-- The recorded row is there. -/
theorem recordSnapshot_self (rows : Rows Json) (recorded : String) (body catalog : Json)
    : (recordSnapshot rows recorded body catalog).Current recorded := by
  simp only [recordSnapshot, insertCurrent]
  split
  · exact ⟨_, Table.insert_self .., rfl⟩
  · exact ⟨_, Table.insert_self .., rfl⟩

/-- A snapshot without a row gets one. -/
theorem recordSnapshot_new {rows : Rows Json} {recorded : String} (absent : rows[recorded]? = none)
    (body catalog : Json)
    : (recordSnapshot rows recorded body catalog)[recorded]?
        = some { body, catalog, current := true } := by
  have cleared : (clearCurrent rows)[recorded]? = none := by
    rw [clearCurrent, Std.TreeMap.getElem?_map, absent]
    rfl
  rw [recordSnapshot, insertCurrent, cleared]
  exact Table.insert_self ..

/-- A row keeps its body and its catalog when another snapshot is recorded, or itself. -/
theorem recordSnapshot_keeps {rows : Rows Json} {id : String} {row : Row Json}
    (held : rows[id]? = some row) (recorded : String) (body catalog : Json)
    : ∃ later,
        (recordSnapshot rows recorded body catalog)[id]? = some later
        ∧ later.body = row.body
        ∧ later.catalog = row.catalog := by
  have cleared : (clearCurrent rows)[id]? = some { row with current := false } := by
    rw [clearCurrent, Std.TreeMap.getElem?_map, held]
    rfl
  simp only [recordSnapshot, insertCurrent]
  by_cases here : id = recorded
  · subst here
    rw [cleared]
    exact ⟨_, Table.insert_self .., rfl, rfl⟩
  · refine ⟨{ row with current := false }, ?_, rfl, rfl⟩
    split
    · rw [Table.insert_other _ _ here, cleared]
    · rw [Table.insert_other _ _ here, cleared]

end MoenotesAssets.Snapshots
