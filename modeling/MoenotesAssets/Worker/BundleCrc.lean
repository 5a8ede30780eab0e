import MoenotesAssets.Foundation.Crc
import MoenotesAssets.Worker.Outputs

/-! `crypto::bundle_crc`: the checksum of what the blocks of a bundle hold, whatever their number
and their compression, and what it tells of two bundles that are accepted for one location.
-/

namespace MoenotesAssets.Worker.Bundles

open Foundation Foundation.Crc Foundation.Machine MoenotesAssets.Catalogs

-----------------------------------------------------------------------------------------
-- Bundles
-----------------------------------------------------------------------------------------

/-- `unity_rs_core::bundle::CompressionType`, as far as `bundle_crc` tells them apart. -/
inductive CompressionType where
  | none
  | lz4
  | lz4Hc
  | lzma
  | other
deriving DecidableEq

/-- A block of a bundle. -/
structure Block where
  compressedOffset : Nat
  compressedSize : UInt32
  uncompressedSize : UInt32
  compression : CompressionType

/-- `UnityFsBundle`: the declared size in its header, and its blocks. -/
structure Bundle where
  size : Nat
  blocks : List Block

/-- What lies outside: `UnityFsBundle::open`, `lz4_flex` for a size, `lzma_rs`, which writes its
output in parts, and `crc32fast::Hasher`.
-/
structure Codecs where
  openBundle : List UInt8 → Except Failure Bundle
  lz4 : List UInt8 → Nat → Except Failure (List UInt8)
  lzma : List UInt8 → List (List UInt8) × Except Failure Unit
  Hasher : Type
  newHasher : Hasher
  update : Hasher → List UInt8 → Hasher
  finalize : Hasher → UInt32

/-- The hasher computes CRC-32 of all that it is given, piece by piece. -/
def Codecs.ComputesCrc32 (codecs : Codecs) : Prop :=
  ∀ pieces : List (List UInt8),
    codecs.finalize (pieces.foldl codecs.update codecs.newHasher) = crc32 pieces.flatten

/-- `BoundedVec` -/
structure BoundedVec where
  data : List UInt8
  max : Nat

/-- `BoundedVec::write` -/
def BoundedVec.write (out : BoundedVec) (b : List UInt8) : Except Failure BoundedVec := do
  ensure (b.length ≤ out.max - out.data.length) (.error "expanded size limit")
  return { out with data := out.data ++ b }

/-- `seek` and `read_exact` -/
def readExact (file : List UInt8) (offset size : Nat) : Except Failure (List UInt8) := do
  let raw := (file.drop offset).take size
  ensure (raw.length = size) (.error "failed to fill whole buffer")
  return raw

section Codecs

variable (codecs : Codecs)

/-- What a block holds. -/
def decompress (block : Block) (raw : List UInt8) : Except Failure (List UInt8) :=
  match block.compression with
  | .none => .ok raw
  | .lz4 | .lz4Hc => codecs.lz4 raw block.uncompressedSize.toNat
  | .lzma => do
      let (writes, result) := codecs.lzma raw
      let out ← writes.foldlM BoundedVec.write { data := [], max := block.uncompressedSize.toNat }
      result
      return out.data
  | .other => .error (.error "unsupported CRC compression")

/-- One round of the loop over the blocks. -/
def crcBlock (file : List UInt8) (max : Nat) (state : Nat × codecs.Hasher) (block : Block)
    : Except Failure (Nat × codecs.Hasher) := do
  let total ← context (checkedAdd state.1 block.uncompressedSize.toNat)
    (.error "block size overflow")
  ensure (total ≤ max) (.error "bundle expanded budget")
  ensure (block.compressedSize.toNat ≤ max && block.uncompressedSize.toNat ≤ max)
    (.error "block budget")
  let raw ← readExact file block.compressedOffset block.compressedSize.toNat
  let plain ← decompress codecs block raw
  ensure (plain.length = block.uncompressedSize.toNat) (.error "block size mismatch")
  return (total, codecs.update state.2 plain)

/-- `bundle_crc` of the bytes of a file. -/
def bundleCrc (file : List UInt8) (max : Nat) : Except Failure UInt32 := do
  let b ← codecs.openBundle file
  ensure (b.size = file.length) (.error "UnityFS declared size mismatch")
  let state ← b.blocks.foldlM (crcBlock codecs file max) (0, codecs.newHasher)
  return codecs.finalize state.2

-----------------------------------------------------------------------------------------
-- What a bundle holds
-----------------------------------------------------------------------------------------

/-- The bytes of a block in a file. -/
def Block.raw (file : List UInt8) (block : Block) : List UInt8 :=
  (file.drop block.compressedOffset).take block.compressedSize.toNat

/-- (Holds codecs file block plain) holds when a block lies in the file and its bytes decompress to
`plain`, which has the declared size.
-/
structure Holds (file : List UInt8) (block : Block) (plain : List UInt8) : Prop where
  inside : (block.raw file).length = block.compressedSize.toNat
  size : plain.length = block.uncompressedSize.toNat
  decompressed
    : match block.compression with
      | .none => plain = block.raw file
      | .lz4 | .lz4Hc => codecs.lz4 (block.raw file) plain.length = .ok plain
      | .lzma => ∃ writes, codecs.lzma (block.raw file) = (writes, .ok ()) ∧ writes.flatten = plain
      | .other => False

/-- A file is a bundle of its declared size whose blocks hold these bytes in their order. -/
def Content (file content : List UInt8) : Prop :=
  ∃ bundle plains,
    codecs.openBundle file = .ok bundle
    ∧ bundle.size = file.length
    ∧ List.Forall₂ (Holds codecs file) bundle.blocks plains
    ∧ plains.flatten = content

end Codecs

variable {codecs : Codecs}

/-- Bytes are written as long as they fit, by induction on the writes. -/
theorem writes_ok {writes : List (List UInt8)} {out last : BoundedVec}
    (room : out.data.length ≤ out.max)
    : writes.foldlM BoundedVec.write out = .ok last
      ↔ last = { out with data := out.data ++ writes.flatten }
        ∧ out.data.length + writes.flatten.length ≤ out.max := by
  induction writes generalizing out with
  | nil =>
      rw [List.foldlM_nil, pure_ok, List.flatten_nil, List.append_nil]
      exact ⟨fun same => ⟨same.symm, room⟩, fun same => same.1.symm⟩
  | cons b rest ih =>
      simp only [List.foldlM_cons, bind_ok, BoundedVec.write, ensure_ok, pure_ok,
        decide_eq_true_eq, exists_const, List.flatten_cons, List.length_append]
      constructor
      · rintro ⟨next, ⟨fits, rfl⟩, rest'⟩
        obtain ⟨rfl, whole⟩ := (ih (by simp; omega)).mp rest'
        simp only [List.length_append] at whole
        exact ⟨by rw [List.append_assoc], by omega⟩
      · rintro ⟨rfl, whole⟩
        refine ⟨_, ⟨by omega, rfl⟩, (ih (by simp; omega)).mpr ⟨?_, ?_⟩⟩
        · rw [List.append_assoc]
        · simp only [List.length_append]
          omega

/-- A block decompresses to bytes of the declared size exactly if it holds them. -/
theorem decompress_ok {file plain : List UInt8} {block : Block}
    (inside : (block.raw file).length = block.compressedSize.toNat)
    : decompress codecs block (block.raw file) = .ok plain
        ∧ plain.length = block.uncompressedSize.toNat
      ↔ Holds codecs file block plain := by
  constructor
  · rintro ⟨decompressed, size⟩
    refine ⟨inside, size, ?_⟩
    unfold decompress at decompressed
    split at decompressed
    case h_1 => exact (Except.ok.inj decompressed).symm
    case h_2 => rwa [size]
    case h_3 => rwa [size]
    case h_4 =>
      simp only [bind_ok, pure_ok] at decompressed
      obtain ⟨out, written, _, ended, rfl⟩ := decompressed
      obtain ⟨rfl, -⟩ := (writes_ok (Nat.zero_le _)).mp written
      exact ⟨_, Prod.ext rfl ended, (List.nil_append _).symm⟩
    case h_5 => cases decompressed
  · rintro ⟨-, size, decompressed⟩
    refine ⟨?_, size⟩
    unfold decompress
    split at decompressed
    case h_1 => rw [decompressed]
    case h_2 => rwa [← size]
    case h_3 => rwa [← size]
    case h_4 =>
      obtain ⟨writes, ended, rfl⟩ := decompressed
      simp only [bind_ok, pure_ok, ended]
      refine ⟨_, (writes_ok (Nat.zero_le _)).mpr ⟨rfl, ?_⟩, (), trivial,
        List.nil_append _⟩
      simp only [List.length_nil, Nat.zero_add]
      omega
    case h_5 => cases decompressed

/-- A round of the loop passes for a block within the budget, and adds what it holds. -/
theorem crcBlock_ok {file : List UInt8} {max : Nat} (word : max ≤ max64)
    {state after : Nat × codecs.Hasher} {block : Block}
    : crcBlock codecs file max state block = .ok after
      ↔ block.compressedSize.toNat ≤ max
        ∧ ∃ plain,
            Holds codecs file block plain
            ∧ state.1 + plain.length ≤ max
            ∧ after = (state.1 + plain.length, codecs.update state.2 plain) := by
  simp only [crcBlock, bind_ok, context_ok, ensure_ok, pure_ok, readExact, Bool.and_eq_true,
    decide_eq_true_eq, exists_const]
  constructor
  · rintro ⟨total, added, fits, ⟨compressed, -⟩, raw, ⟨inside, rfl⟩, plain, decompressed, size, rfl⟩
    obtain ⟨rfl, -⟩ := checkedAdd_eq_some added
    refine ⟨compressed, plain, (decompress_ok inside).mp ⟨decompressed, size⟩, ?_, ?_⟩
    · rwa [size]
    · rw [size]
  · rintro ⟨compressed, plain, holds, fits, rfl⟩
    obtain ⟨decompressed, size⟩ := (decompress_ok holds.inside).mpr holds
    rw [size] at fits ⊢
    refine ⟨_, if_pos (fits.trans word), fits, ⟨compressed, by omega⟩, _, ⟨holds.inside, rfl⟩,
      plain, decompressed, size, rfl⟩

/-- The loop passes for blocks within the budget, and adds what they hold, by induction on them. -/
theorem blocks_ok {file : List UInt8} {max : Nat} (word : max ≤ max64)
    {state last : Nat × codecs.Hasher} (room : state.1 ≤ max) {blocks : List Block}
    : blocks.foldlM (crcBlock codecs file max) state = .ok last
      ↔ (∀ block ∈ blocks, block.compressedSize.toNat ≤ max)
        ∧ ∃ plains,
            List.Forall₂ (Holds codecs file) blocks plains
            ∧ state.1 + plains.flatten.length ≤ max
            ∧ last = (state.1 + plains.flatten.length, plains.foldl codecs.update state.2) := by
  induction blocks generalizing state with
  | nil =>
      rw [List.foldlM_nil, pure_ok]
      constructor
      · rintro rfl
        exact ⟨List.forall_mem_nil _, [], .nil, room, rfl⟩
      · rintro ⟨-, plains, holds, -, rfl⟩
        cases holds
        rfl
  | cons block rest ih =>
      rw [List.foldlM_cons, bind_ok]
      constructor
      · rintro ⟨next, here, later⟩
        obtain ⟨compressed, plain, holds, fits, rfl⟩ := (crcBlock_ok word).mp here
        obtain ⟨others, plains, held, whole, rfl⟩ := (ih fits).mp later
        rw [Nat.add_assoc, ← List.length_append] at whole
        refine ⟨List.forall_mem_cons.mpr ⟨compressed, others⟩, plain :: plains, .cons holds held,
          whole, ?_⟩
        rw [List.flatten_cons, List.foldl_cons, List.length_append, Nat.add_assoc]
      · rintro ⟨limits, _, _ | ⟨holds, held⟩, whole, rfl⟩
        obtain ⟨compressed, others⟩ := List.forall_mem_cons.mp limits
        rw [List.flatten_cons, List.length_append, ← Nat.add_assoc] at whole
        refine ⟨_, (crcBlock_ok word).mpr ⟨compressed, _, holds, by omega, rfl⟩,
          (ih (by omega)).mpr ⟨others, _, held, whole, ?_⟩⟩
        rw [List.flatten_cons, List.foldl_cons, List.length_append, Nat.add_assoc]

-----------------------------------------------------------------------------------------
-- The checksum of a bundle
-----------------------------------------------------------------------------------------

/-- The largest compressed size of a bundle is within a budget. -/
def Bounded (codecs : Codecs) (file : List UInt8) (max : Nat) : Prop :=
  ∀ bundle, codecs.openBundle file = .ok bundle
    → ∀ block ∈ bundle.blocks, block.compressedSize.toNat ≤ max

/-- `bundle_crc` accepts exactly the bundles that hold bytes within the budget, and gives the
checksum of these bytes.
-/
theorem bundleCrc_ok (computes : codecs.ComputesCrc32) {file : List UInt8} {max : Nat}
    (word : max ≤ max64) {crc : UInt32}
    : bundleCrc codecs file max = .ok crc
      ↔ Bounded codecs file max
        ∧ ∃ content, Content codecs file content ∧ content.length ≤ max ∧ crc = crc32 content := by
  simp only [bundleCrc, bind_ok, ensure_ok, pure_ok, decide_eq_true_eq, exists_const]
  constructor
  · rintro ⟨bundle, opened, size, state, folded, rfl⟩
    obtain ⟨limits, plains, holds, whole, rfl⟩ := (blocks_ok word (Nat.zero_le _)).mp folded
    rw [Nat.zero_add] at whole
    refine ⟨fun other same => ?_, _, ⟨bundle, plains, opened, size, holds, rfl⟩, whole,
      computes plains⟩
    obtain rfl := Except.ok.inj (opened.symm.trans same)
    exact limits
  · rintro ⟨limits, content, ⟨bundle, plains, opened, size, holds, rfl⟩, whole, rfl⟩
    refine ⟨bundle, opened, size, _, (blocks_ok word (Nat.zero_le _)).mpr
      ⟨limits bundle opened, plains, holds, ?_, rfl⟩, computes plains⟩
    rwa [Nat.zero_add]

/-- A block holds one value. -/
theorem Holds.unique {file left right : List UInt8} {block : Block}
    (first : Holds codecs file block left) (second : Holds codecs file block right)
    : left = right := by
  have one := (decompress_ok first.inside).mpr first
  have two := (decompress_ok second.inside).mpr second
  exact Except.ok.inj (one.1.symm.trans two.1)

/-- Blocks hold one list of values, by induction on them. -/
theorem holds_unique {file : List UInt8} {blocks : List Block} {plains plains' : List (List UInt8)}
    (first : List.Forall₂ (Holds codecs file) blocks plains)
    (second : List.Forall₂ (Holds codecs file) blocks plains')
    : plains = plains' := by
  induction first generalizing plains' with
  | nil =>
      cases second
      rfl
  | cons here _ ih =>
      cases second with
      | cons here' later => rw [here.unique here', ih later]

/-- The bytes that a file holds are determined. -/
theorem Content.unique {file left right : List UInt8} (first : Content codecs file left)
    (second : Content codecs file right)
    : left = right := by
  obtain ⟨bundle, plains, opened, -, holds, rfl⟩ := first
  obtain ⟨bundle', plains', opened', -, holds', rfl⟩ := second
  obtain rfl := Except.ok.inj (opened.symm.trans opened')
  rw [holds_unique holds holds']

/-- `bundle_crc` accepts exactly the bundles that hold bytes within the budget, and gives the
checksum of these bytes: another bundle with the same ones, split and compressed in another way,
passes with the same checksum.
-/
theorem bundle_crc_of_content (computes : codecs.ComputesCrc32) {file : List UInt8} {max : Nat}
    (word : max ≤ max64)
    : (∀ crc,
        bundleCrc codecs file max = .ok crc
        ↔ Bounded codecs file max
          ∧ ∃ content, Content codecs file content ∧ content.length ≤ max ∧ crc = crc32 content)
      ∧ ∀ other content crc,
          Content codecs file content
          → Content codecs other content
          → Bounded codecs other max
          → bundleCrc codecs file max = .ok crc
          → bundleCrc codecs other max = .ok crc := by
  refine ⟨fun crc => bundleCrc_ok computes word, ?_⟩
  intro other content crc holds repacked limits computed
  obtain ⟨-, found, same, fits, rfl⟩ := (bundleCrc_ok computes word).mp computed
  obtain rfl := same.unique holds
  exact (bundleCrc_ok computes word).mpr ⟨limits, _, repacked, fits, rfl⟩

/-- A bundle of one block with the bytes "abcd". -/
def plainFile : List UInt8 :=
  [85, 110, 105, 116, 121, 70, 83, 0, 0, 0, 0, 6, 53, 46, 120, 46, 120, 0, 50, 48, 49, 56, 46, 52,
    46, 48, 102, 49, 0, 0, 0, 0, 0, 0, 0, 0, 109, 0, 0, 0, 56, 0, 0, 0, 56, 0, 0, 0, 64, 0, 0, 0,
    0, 0, 0, 0, 0, 0, 0, 0, 0, 0, 0, 0, 0, 0, 0, 0, 1, 0, 0, 0, 4, 0, 0, 0, 4, 0, 0, 0, 0, 0, 1,
    0, 0, 0, 0, 0, 0, 0, 0, 0, 0, 0, 0, 0, 0, 0, 4, 0, 0, 0, 0, 97, 0, 97, 98, 99, 100]

/-- A bundle of two blocks with the same bytes, the second one compressed. -/
def packedFile : List UInt8 :=
  [85, 110, 105, 116, 121, 70, 83, 0, 0, 0, 0, 6, 53, 46, 120, 46, 120, 0, 50, 48, 49, 56, 46, 52,
    46, 48, 102, 49, 0, 0, 0, 0, 0, 0, 0, 0, 120, 0, 0, 0, 66, 0, 0, 0, 66, 0, 0, 0, 64, 0, 0, 0,
    0, 0, 0, 0, 0, 0, 0, 0, 0, 0, 0, 0, 0, 0, 0, 0, 2, 0, 0, 0, 2, 0, 0, 0, 2, 0, 0, 0, 0, 0, 2,
    0, 0, 0, 3, 0, 2, 0, 0, 0, 1, 0, 0, 0, 0, 0, 0, 0, 0, 0, 0, 0, 0, 0, 0, 0, 4, 0, 0, 0, 0, 97,
    0, 97, 98, 32, 99, 100]

/-- The blocks of the first file. -/
def plainBlocks : List Block :=
  [{ compressedOffset := 105, compressedSize := 4, uncompressedSize := 4, compression := .none }]

/-- The blocks of the second file. -/
def packedBlocks : List Block :=
  [
    { compressedOffset := 115, compressedSize := 2, uncompressedSize := 2, compression := .none },
    { compressedOffset := 117, compressedSize := 3, uncompressedSize := 2, compression := .lz4 }
  ]

/-- Codecs that open these files, and expand literals. -/
def sampleCodecs : Codecs :=
  {
    openBundle := fun file =>
      if file = plainFile then .ok { size := 109, blocks := plainBlocks }
      else if file = packedFile then .ok { size := 120, blocks := packedBlocks }
      else .error (.error "no bundle")
    lz4 := fun raw size =>
      match raw with
      | token :: literals =>
          if token.toNat = 16 * literals.length ∧ literals.length ≤ size then .ok literals
          else .error (.error "no literals")
      | [] => .error (.error "no token")
    lzma := fun _ => ([], .error (.error "no stream"))
    Hasher := List UInt8
    newHasher := []
    update := fun hasher bytes => hasher ++ bytes
    finalize := crc32
  }

/-- The hasher of the sample keeps what it is given up to the end. -/
theorem sampleCodecs_computes : sampleCodecs.ComputesCrc32 := by
  intro pieces
  have kept := @List.foldl_append_eq_append (List UInt8) UInt8 pieces id []
  rw [List.map_id, List.nil_append] at kept
  exact congrArg crc32 kept

/-- The bytes in both files. -/
def sampleContent : List UInt8 := [97, 98, 99, 100]

/-- The first file holds these bytes. -/
theorem plainFile_content : Content sampleCodecs plainFile sampleContent := by
  refine ⟨_, [sampleContent], rfl, by decide, ?_, rfl⟩
  exact .cons ⟨by decide, by decide, by decide⟩ .nil

/-- The second file is opened with its blocks. -/
theorem packedFile_opened
    : sampleCodecs.openBundle packedFile = .ok { size := 120, blocks := packedBlocks } := rfl

/-- The second file holds the same bytes. -/
theorem packedFile_content : Content sampleCodecs packedFile sampleContent := by
  refine ⟨_, [[97, 98], [99, 100]], packedFile_opened, by decide, ?_, rfl⟩
  exact .cons ⟨by decide, by decide, by decide⟩ (.cons ⟨by decide, by decide, by decide⟩ .nil)

/-- The blocks of the first file fit in a budget of four bytes. -/
theorem plainFile_bounded : Bounded sampleCodecs plainFile 4 := by
  intro bundle opened
  obtain rfl := Except.ok.inj (show _ = _ from opened)
  decide

/-- So do the blocks of the second one. -/
theorem packedFile_bounded : Bounded sampleCodecs packedFile 4 := by
  intro bundle opened
  obtain rfl := Except.ok.inj (packedFile_opened.symm.trans opened)
  decide

/-- Both files have the checksum of their bytes. -/
theorem bundle_crc_of_content_sample
    : bundleCrc sampleCodecs plainFile 4 = .ok 0xED82CD11
      ∧ bundleCrc sampleCodecs packedFile 4 = .ok 0xED82CD11 := by
  have crcs := @bundle_crc_of_content sampleCodecs sampleCodecs_computes plainFile 4 (by decide)
  have computed : bundleCrc sampleCodecs plainFile 4 = .ok 0xED82CD11 :=
    (crcs.1 _).mpr ⟨plainFile_bounded, sampleContent, plainFile_content, by decide,
      by decide +kernel⟩
  exact ⟨computed, crcs.2 _ _ _ plainFile_content packedFile_content packedFile_bounded computed⟩

-----------------------------------------------------------------------------------------
-- What the worker accepts
-----------------------------------------------------------------------------------------

/-- `crypto::bundle_crc` of the file at a path. -/
def crcOf (codecs : Codecs) (read : String → Except Failure (List UInt8)) (path : String)
    (max : Nat)
    : Except Failure UInt32 := do
  bundleCrc codecs (← read path) max

/-- An input of a job is a bundle that the worker archives or opens. -/
def Taken (job : Job) (input : Input) : Prop :=
  input ∈ job.inputs
    ∧ Planning.providedByCri input.location = false
    ∧ (job.archive = true ∨ Planning.media job.plain = false)

section Accepted

variable {sha256 : List UInt8 → List UInt8} {tools : Run.Tools} {job : Job} {input : Input}

/-- (Passed store limits input) holds when a bundle has passed the check of its checksum. -/
def Passed (store : Store) (limits : Limits) (input : Input) : Prop :=
  ∃ crc,
    store.bundleCrc input.path limits.expandedBytes = .ok crc
    ∧ crcAccepted input.location crc = true

/-- A bundle that is archived has passed. -/
theorem archiveInput_passed {before : Run.Stage}
    (bundle : Planning.providedByCri input.location = false)
    (archived : (Run.archiveInput sha256 tools job input before).result = .ok ())
    : Passed tools.toStore job.limits input := by
  obtain ⟨_, -, archived⟩ := Program.bind_result archived
  obtain ⟨form, formed, -⟩ := Program.bind_result archived
  have formed : Run.archiveForm tools job.limits input = .ok form := formed
  rw [Run.archiveForm, bundle, if_neg Bool.false_ne_true] at formed
  simp only [bind_ok, ensure_ok] at formed
  obtain ⟨crc, computed, _, passed, -⟩ := formed
  exact ⟨crc, computed, passed⟩

/-- A bundle that is opened has passed. -/
theorem openInput_passed {store : Store} {limits : Limits} {opened after : Opened}
    (accepted : openInput store limits opened input = .ok after)
    : Passed store limits input := by
  simp only [openInput, bind_ok, ensure_ok] at accepted
  obtain ⟨_, -, _, -, _, -, _, -, crc, computed, _, passed, -⟩ := accepted
  exact ⟨crc, computed, passed⟩

/-- Bundles that are opened together have passed. -/
theorem openInputs_passed {store : Store} {limits : Limits} {inputs : List Input}
    {regions : List (String × Region)} (opened : openInputs store limits inputs = .ok regions)
    : ∀ input ∈ inputs, Passed store limits input := by
  simp only [openInputs, bind_ok] at opened
  obtain ⟨_, -, last, folded, -⟩ := opened
  have all := foldlM_invariant
    (P := fun done _ => ∀ input ∈ done, Passed store limits input) folded
    (List.forall_mem_nil _) fun passed step =>
      List.forall_mem_append.mpr ⟨passed, List.forall_mem_singleton.mpr (openInput_passed step)⟩
  exact fun input member => all input ((sortByKey_perm _ _).mem_iff.mpr member)

/-- A run that succeeds has checked all bundles that it takes. -/
theorem run_passed {outputs : List Export.Artifact}
    (ran : (Run.run sha256 tools job Run.Stage.empty).result = .ok outputs)
    (taken : Taken job input)
    : Passed tools.toStore job.limits input := by
  obtain ⟨member, bundle, routed⟩ := taken
  obtain ⟨_, -, ran⟩ := Program.bind_result ran
  obtain ⟨_, -, ran⟩ := Program.bind_result ran
  obtain ⟨_, -, ran⟩ := Program.bind_result ran
  split at ran
  case isTrue archive =>
    obtain ⟨_, -, ran⟩ := Program.bind_result ran
    obtain ⟨_, inputs, -⟩ := Program.bind_result ran
    obtain ⟨before, archived⟩ := Program.forM_returned inputs input member
    exact archiveInput_passed bundle archived
  case isFalse preview =>
    have unity : Planning.media job.plain = false := routed.resolve_left preview
    obtain ⟨_, ran, -⟩ := Program.bind_result ran
    obtain ⟨opened, opens, -⟩ := Program.bind_result ran
    have opens : opening tools.toStore job = .ok opened := opens
    rw [opening, unity, if_neg Bool.false_ne_true] at opens
    obtain ⟨regions, opens, -⟩ := bind_ok.mp opens
    exact openInputs_passed opens input member

end Accepted

/-- (Used codecs sha256 declared content) holds when a run of the worker that succeeded took a
bundle with these bytes for a location that declares a checksum.
-/
def Used (codecs : Codecs) (sha256 : List UInt8 → List UInt8) (declared : UInt32)
    (content : List UInt8)
    : Prop :=
  ∃ (tools : Run.Tools) (job : Job) (input : Input) (outputs : List Export.Artifact)
      (options : Options) (file : List UInt8),
    tools.bundleCrc = crcOf codecs tools.read
    ∧ job.limits.expandedBytes ≤ max64
    ∧ (Run.run sha256 tools job Run.Stage.empty).result = .ok outputs
    ∧ Taken job input
    ∧ input.location.options = some options
    ∧ options.crc = declared
    ∧ tools.read input.path = .ok file
    ∧ Content codecs file content

/-- Bytes that the worker took for a location have the checksum that it declares. -/
theorem Used.crc (computes : codecs.ComputesCrc32) {sha256 : List UInt8 → List UInt8}
    {declared : UInt32} {content : List UInt8}
    (used : Used codecs sha256 declared content) (some : declared ≠ 0)
    : crc32 content = declared := by
  obtain ⟨tools, job, input, outputs, options, file, checked, word, ran, taken, options', rfl, read,
    holds⟩ := used
  obtain ⟨crc, computed, accepted⟩ := run_passed ran taken
  rw [checked, crcOf, read] at computed
  obtain ⟨-, found, same, -, rfl⟩ := (bundleCrc_ok computes word).mp computed
  obtain rfl := same.unique holds
  rw [crcAccepted, options', Option.all_some, Bool.or_eq_true, beq_iff_eq, beq_iff_eq] at accepted
  exact accepted.resolve_left some

/-- A worker that succeeded, as an archive or a preview, took only bundles with the declared
checksum. So of two bundles for one location, whose bytes differ within a window of four, no more
than one is ever taken.
-/
theorem corruption_is_refused (computes : codecs.ComputesCrc32)
    {sha256 : List UInt8 → List UInt8} {declared : UInt32}
    {before left right behind : List UInt8} (some : declared ≠ 0)
    (length : left.length = right.length) (few : left.length ≤ 4)
    (used : Used codecs sha256 declared (before ++ left ++ behind))
    (used' : Used codecs sha256 declared (before ++ right ++ behind))
    : left = right ∧ crc32 (before ++ left ++ behind) = declared := by
  have crc := used.crc computes some
  exact ⟨crc32_window length few (crc.trans (used'.crc computes some).symm), crc⟩

/-- A location that declares the checksum of the sample. -/
def bundleInput : Input :=
  {
    location :=
      {
        id := 1
        key := "a"
        internal := "https://h/a"
        provider := "bundle"
        resourceType := "IAssetBundleResource"
        dependencies := []
        options := some { hash := "", bundleName := "a", crc := 0xED82CD11, size := 0 }
      }
    path := "1"
  }

/-- The archive of the location. -/
def bundleJob : Job :=
  {
    limits := { expandedBytes := 2 ^ 20, outputBytes := 2 ^ 20, memoryThreshold := 2 ^ 20 }
    target := bundleInput.location
    inputs := [bundleInput]
    archive := true
    fontReference := none
  }

/-- A worker with a file of the sample. -/
def bundleTools (file : List UInt8) : Run.Tools :=
  {
    Run.idleTools with
    read := fun _ => .ok file
    bundleCrc := crcOf sampleCodecs fun _ => .ok file
  }

/-- A file of the sample whose run succeeds is used. -/
theorem bundle_used {file : List UInt8} (content : Content sampleCodecs file sampleContent)
    (ran
      : (Run.run List.reverse (bundleTools file) bundleJob Run.Stage.empty).result.isOk = true)
    : Used sampleCodecs List.reverse 0xED82CD11 sampleContent := by
  obtain ⟨outputs, ran⟩ := ok_of_isOk ran
  exact ⟨bundleTools file, bundleJob, bundleInput, outputs, _, file, rfl, by decide, ran,
    ⟨List.mem_singleton.mpr rfl, by decide, Or.inl rfl⟩, rfl, rfl, rfl, content⟩

/-- Both files of the sample are taken for the location. -/
theorem corruption_is_refused_sample : crc32 sampleContent = 0xED82CD11 := by
  have used := bundle_used plainFile_content (by decide +kernel)
  have used' := bundle_used packedFile_content (by decide +kernel)
  exact (@corruption_is_refused sampleCodecs sampleCodecs_computes List.reverse 0xED82CD11
    [97] [98] [98] [99, 100] (by decide) rfl (by decide) used used').2

end MoenotesAssets.Worker.Bundles
