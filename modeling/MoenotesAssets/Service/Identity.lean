import MoenotesAssets.Export.Manifest
import MoenotesAssets.Foundation.Json
import MoenotesAssets.ObjectTree.Names
import MoenotesAssets.Planning.Routing

/-! `export_id` of `service.rs`: the name under which an export is cached, and what the worker does
for an export of that name.
-/

namespace MoenotesAssets.Identity

open Foundation Foundation.Bytes MoenotesAssets.Catalogs
open ObjectTree (NoCollision digest digest_inj)

-----------------------------------------------------------------------------------------
-- Configurations
-----------------------------------------------------------------------------------------

/-- `usm::Decryption` -/
inductive Decryption where
  | key
  | plaintext
deriving DecidableEq

/-- What `export_id` and the worker read of `config::Config` for a video. -/
structure Config where
  criKey : UInt64
  usmDecryption : Decryption
  usmDecryptionOverrides : Std.TreeMap String Decryption
  ffmpegThreads : Nat

/-- `Config::decryption` -/
def Config.decryption (config : Config) (key : String) : Decryption :=
  config.usmDecryptionOverrides[key]?.getD config.usmDecryption

/-- `to_le_bytes` of the key. -/
def Config.keyBytes (config : Config) : List UInt8 := littleEndianBytes 8 config.criKey.toNat

-----------------------------------------------------------------------------------------
-- Identities
-----------------------------------------------------------------------------------------

/-- The arguments of `export_id`. -/
structure Call where
  snapshot : String
  key : String
  config : Config
  selector : Selector
  archive : Bool
  mediaIdentity : String

/-- An optional value as `serde` writes it. -/
def optional {α : Type} (write : α → Json) : Option α → Json
  | none => .null
  | some value => write value

/-- `Serialize` of `catalog::Selector`. -/
def selectorJson (selector : Selector) : Json :=
  .object
    [("expected_type", optional .string selector.expectedType),
      ("location_id", optional (fun id => .number id.toNat) selector.locationId)]

/-- `Serialize` of `usm::Decryption`, in snake case. -/
def Decryption.json : Decryption → Json
  | .key => .string "key"
  | .plaintext => .string "plaintext"

section Sha

variable (sha256 : List UInt8 → List UInt8)

/-- The tuple that `export_id` writes. -/
def Call.document (call : Call) : Json :=
  .array
    [.string call.snapshot,
      .string call.key,
      .string Export.workerProfile,
      .string call.mediaIdentity,
      selectorJson call.selector,
      .bool call.archive,
      (call.config.decryption call.key).json,
      .string (digest sha256 call.config.keyBytes),
      .number call.config.ffmpegThreads,
      .string Planning.policy]

/-- `export_id` -/
def exportId (call : Call) : String := digest sha256 (call.document sha256).toVec

end Sha

/-- The mode in which `worker::usm_video` reads a video of a job. -/
def usmMode (config : Config) (job : Planning.Job) : Decryption :=
  config.decryption job.target.key

/-- The key that `worker::usm_video` gives to `usm::extract`. -/
def usmKey (config : Config) (job : Planning.Job) : Option UInt64 :=
  if usmMode config job = .key then some config.criKey else none

-----------------------------------------------------------------------------------------
-- What an identity tells
-----------------------------------------------------------------------------------------

/-- What `export_id` writes and what it digests besides. -/
def Call.digested (sha256 : List UInt8 → List UInt8) (call : Call) : List (List UInt8) :=
  [(call.document sha256).toVec, call.config.keyBytes]

/-- Two calls ask for the same work. -/
structure Call.Same (call other : Call) : Prop where
  snapshot : call.snapshot = other.snapshot
  key : call.key = other.key
  mediaIdentity : call.mediaIdentity = other.mediaIdentity
  expectedType : call.selector.expectedType = other.selector.expectedType
  locationId : call.selector.locationId = other.selector.locationId
  archive : call.archive = other.archive
  decryption : call.config.decryption call.key = other.config.decryption other.key
  criKey : call.config.criKey = other.config.criKey
  ffmpegThreads : call.config.ffmpegThreads = other.config.ffmpegThreads

/-- An optional value is determined by its text when present values are, and none of them is
null.
-/
theorem optional_injective {α : Type} {write : α → Json} (injective : Function.Injective write)
    (present : ∀ value, write value ≠ .null)
    : Function.Injective (optional write) := by
  intro left right same
  cases left with
  | none =>
      cases right with
      | none => rfl
      | some value => exact absurd same.symm (present value)
  | some value =>
      cases right with
      | none => exact absurd same (present value)
      | some other => exact congrArg some (injective same)

/-- A selector is determined by its text. -/
theorem selectorJson_injective : Function.Injective selectorJson := by
  intro left right same
  simp only [selectorJson, Json.object.injEq, List.cons.injEq, Prod.mk.injEq, true_and,
    and_true] at same
  obtain ⟨kinds, ids⟩ := same
  have kind := optional_injective (fun _ _ => Json.string.inj) (fun _ => nofun) kinds
  have id := optional_injective
    (fun _ _ same => UInt32.toNat_inj.mp (Json.number.inj same)) (fun _ => nofun) ids
  cases left
  cases right
  simp_all

/-- A mode is determined by its text. -/
theorem Decryption.json_injective : Function.Injective Decryption.json := by
  intro left right same
  cases left <;> cases right <;> simp_all [Decryption.json]

/-- A key is determined by its bytes. -/
theorem keyBytes_injective {config other : Config} (same : config.keyBytes = other.keyBytes)
    : config.criKey = other.criKey :=
  UInt64.toNat_inj.mp
    (littleEndianBytes_injective config.criKey.toNat_lt other.criKey.toNat_lt same)

/-- Calls that write the same tuple ask for the same work. -/
theorem document_injective {sha256 : List UInt8 → List UInt8} {call other : Call}
    (secure : NoCollision sha256 [call.config.keyBytes, other.config.keyBytes])
    (same : call.document sha256 = other.document sha256)
    : call.Same other := by
  simp only [Call.document, Json.array.injEq, List.cons.injEq, Json.string.injEq, Json.bool.injEq,
    Json.number.injEq, true_and, and_true] at same
  obtain ⟨snapshot, key, media, selector, archive, mode, secret, threads⟩ := same
  have fields := selectorJson_injective selector
  have bytes := digest_inj secure (by simp) (by simp) secret
  exact
    {
      snapshot
      key
      mediaIdentity := media
      expectedType := congrArg Selector.expectedType fields
      locationId := congrArg Selector.locationId fields
      archive
      decryption := Decryption.json_injective mode
      criKey := keyBytes_injective bytes
      ffmpegThreads := threads
    }

/-- The target of a plan has the key that was planned. -/
theorem build_key {catalog : Catalog} {key : String} {selector : Selector} {archive : Bool}
    {plan : Planning.Plan} (built : Planning.Plan.build catalog key selector archive = .ok plan)
    : plan.target.key = key := by
  simp only [Planning.Plan.build, Planning.Plan.of, bind_ok, pure_ok] at built
  obtain ⟨target, -, ids, -, closure, -, selected, -, -, -, rfl⟩ := built
  rfl

/-- The worker reads the videos of an export in the mode that its identity names. -/
theorem usmMode_build {call : Call} {catalog : Catalog} {plan : Planning.Plan}
    (built : Planning.Plan.build catalog call.key call.selector call.archive = .ok plan)
    (arrived : List Location)
    : usmMode call.config (Planning.Job.of call.key plan arrived)
      = call.config.decryption call.key := by
  rw [usmMode, Planning.Job.of, build_key built]

/-- Calls for the same work read their videos with the same key. -/
theorem Call.Same.usmKey {call other : Call} (same : call.Same other) {catalog catalog' : Catalog}
    {plan plan' : Planning.Plan}
    (built : Planning.Plan.build catalog call.key call.selector call.archive = .ok plan)
    (built' : Planning.Plan.build catalog' other.key other.selector other.archive = .ok plan')
    (arrived arrived' : List Location)
    : Identity.usmKey call.config (Planning.Job.of call.key plan arrived)
      = Identity.usmKey other.config (Planning.Job.of other.key plan' arrived') := by
  rw [Identity.usmKey, Identity.usmKey, usmMode_build built, usmMode_build built', same.decryption,
    same.criKey]

/-- Two calls have one identity only when they ask for the same work; and the worker reads the
videos of an export in the mode that its identity names.
-/
theorem exportId_identifies {sha256 : List UInt8 → List UInt8} {call other : Call}
    (secure : NoCollision sha256 (call.digested sha256 ++ other.digested sha256))
    (same : exportId sha256 call = exportId sha256 other)
    : call.Same other
      ∧ ∀ (catalog : Catalog) (plan : Planning.Plan) (arrived : List Location),
          Planning.Plan.build catalog call.key call.selector call.archive = .ok plan
          → usmMode call.config (Planning.Job.of call.key plan arrived)
            = call.config.decryption call.key := by
  have keys : NoCollision sha256 [call.config.keyBytes, other.config.keyBytes] :=
    secure.subset (by simp [Call.digested])
  have documents : (call.document sha256).toVec = (other.document sha256).toVec :=
    digest_inj secure (by simp [Call.digested]) (by simp [Call.digested]) same
  refine ⟨document_injective keys (Json.toVec_injective documents), fun _ _ arrived built => ?_⟩
  exact usmMode_build built arrived

/-- A call without overrides for the asset of a small catalog. -/
def smallCall : Call :=
  {
    snapshot := "s"
    key := "asset"
    config :=
      {
        criKey := 8594927479
        usmDecryption := .key
        usmDecryptionOverrides := ∅
        ffmpegThreads := 4
      }
    selector := ⟨none, none⟩
    archive := false
    mediaIdentity := "m"
  }

/-- The same call where the mode is an exception for this asset. -/
def overriddenCall : Call :=
  {
    smallCall with
    config :=
      {
        smallCall.config with
        usmDecryption := .plaintext
        usmDecryptionOverrides :=
          .ofList [("asset", Decryption.key), ("other", Decryption.plaintext)]
      }
  }

/-- Calls that differ in settings for other assets have one identity and ask for the same work. -/
theorem exportId_identifies_small
    : smallCall.config.usmDecryption ≠ overriddenCall.config.usmDecryption
      ∧ exportId List.reverse smallCall = exportId List.reverse overriddenCall
      ∧ smallCall.Same overriddenCall
      ∧ ∀ (catalog : Catalog) (plan : Planning.Plan) (arrived : List Location),
          Planning.Plan.build catalog "asset" ⟨none, none⟩ false = .ok plan
          → usmMode smallCall.config (Planning.Job.of "asset" plan arrived)
            = smallCall.config.decryption "asset" := by
  have same : exportId List.reverse smallCall = exportId List.reverse overriddenCall := by
    decide +kernel
  exact ⟨by decide, same,
    @exportId_identifies List.reverse _ _ (fun _ _ _ _ => List.reverse_inj.mp) same⟩

end MoenotesAssets.Identity
