import MoenotesAssets.Foundation.Http
import MoenotesAssets.Foundation.Keystream
import MoenotesAssets.ObjectTree.Names
import MoenotesAssets.Planning.Plan
import Mathlib.Data.List.Infix

/-! `App::download` asks the CDN for a location and decrypts the chunks of the response as they
come, each from where the one before ends. What it stores does not depend on how the response was
cut into chunks.
-/

namespace MoenotesAssets.Downloads

open Foundation Foundation.Keystream Foundation.Bytes MoenotesAssets.Catalogs
open MoenotesAssets.ObjectTree (splitPath toAsciiLowercase)
open MoenotesAssets.Planning (remote)

-----------------------------------------------------------------------------------------
-- Decryption
-----------------------------------------------------------------------------------------

/-- The number of bytes at the start of a bundle that are encrypted. -/
def encryptedPrefix : Nat := 16384

/-- The key of the bundles. -/
def bundleKey : List UInt8 :=
  [0x73, 0x72, 0xa4, 0xee, 0x77, 0x7d, 0xb3, 0x61, 0xad, 0x89, 0x6c, 0x99, 0xe4, 0x08, 0xa1, 0x82]

/-- What is hashed before the name of a bundle. -/
def bundleSalt : List UInt8 := [0xee, 0x24, 0xa7, 0x02, 0x38, 0xe2, 0xa0, 0xe5]

/-- A text has another one in it. -/
def contains (text part : String) : Bool := decide (part.toList <:+: text.toList)

/-- A text ends with another one. -/
def endsWith (text part : String) : Bool := part.toList.isSuffixOf text.toList

/-- `crypto::builtin` -/
def builtin (name : String) : Bool :=
  let s := toAsciiLowercase name
  contains s "_monoscripts_"
  || contains s "_unitybuiltinassets_"
  || endsWith s "_monoscripts.bundle"
  || endsWith s "_unitybuiltinassets.bundle"

/-- A name that `decrypt` accepts. -/
def basenameAllowed (name : String) : Bool :=
  !name.isEmpty && !(name.toList.contains '/' || name.toList.contains '\\')

section Decrypt

variable (sha256 : List UInt8 → List UInt8) (keystream : List UInt8 → List UInt8 → Nat → UInt8)

/-- The nonce of a bundle and the counter at its start. -/
def bundleIv (name : String) : List UInt8 :=
  (sha256 (bundleSalt ++ textBytes name)).take 8 ++ List.replicate 8 0

/-- `crypto::decrypt`; `keystream` gives the byte that AES in counter mode has at a position, for
a key and an initial block.
-/
def decrypt (data : List UInt8) (name : String) (offset : Nat) : Except Failure (List UInt8) := do
  ensure (basenameAllowed name) (.error "invalid original basename")
  let n := min data.length (encryptedPrefix - offset)
  if n = 0 then return data
  return crypt (· ^^^ ·) (keystream bundleKey (bundleIv sha256 name)) offset (data.take n)
    ++ data.drop n

/-- Pieces that are decrypted at their running offsets. -/
def decryptPieces (name : String) : Nat → List (List UInt8) → Except Failure (List (List UInt8))
  | _, [] => .ok []
  | offset, piece :: rest => do
      let plain ← decrypt sha256 keystream piece name offset
      return plain :: (← decryptPieces name (offset + piece.length) rest)

end Decrypt

-----------------------------------------------------------------------------------------
-- Downloads
-----------------------------------------------------------------------------------------

/-- `catalog::CRYPT` -/
def cryptProvider : String := "Fwk.Crypt.AssetBundleCryptProvider"

/-- `rsplit('/').next()` -/
def basename (text : String) : Option String := (splitPath text).getLast?

/-- What the URLs of a CDN are made of in `config::Config`. -/
structure Cdn where
  cdnRoot : String
  allowLoopbackHttp : Bool

/-- `url::Url`, by what its methods return; `text` is `as_str`. -/
structure Url where
  text : String
  scheme : String
  username : String
  password : Option String
  host : Option String
  origin : String
  path : String
  query : Option String
  fragment : Option String
deriving DecidableEq

/-- Where the assets lie. -/
def assetPath : List Char := "/asset/Android/".toList

section Urls

variable (parse : String → Except Failure Url) (cdn : Cdn)

/-- `Config::root` -/
def Cdn.root : Except Failure Url := do
  ensure (!cdn.cdnRoot.toList.any (['\\', '%', '?', '#'].contains ·)) (.error "unsafe CDN root")
  let u ← parse cdn.cdnRoot
  ensure (u.username.isEmpty && u.password.isNone && u.host.isSome)
    (.error "invalid CDN authority")
  let loopback := u.host = some "127.0.0.1" || u.host = some "[::1]"
  ensure (u.scheme = "https" || cdn.allowLoopbackHttp && loopback && u.scheme = "http")
    (.error "HTTPS CDN required")
  return u

/-- `Config::asset_url` -/
def Cdn.assetUrl (internal : String) : Except Failure Url := do
  let original ← parse internal
  ensure (original.scheme = "http" || original.scheme = "https")
    (.error "unsupported local dependency")
  ensure
    (original.query.isNone && original.fragment.isNone
      && !internal.toList.any (['%', '\\'].contains ·)
      && !(splitPath internal).any fun p => p = ".." || p = ".")
    (.error "unsafe asset URL")
  let below ←
    context (original.path.toList.tails.find? fun rest => assetPath.isPrefixOf rest)
      (.error "asset path missing")
  let root ← cdn.root parse
  let out ← parse (String.ofList (trimEnd '/' root.text ++ below))
  ensure
    (out.origin = root.origin
      && (trimEnd '/' root.path ++ assetPath).isPrefixOf out.path.toList)
    (.error "asset outside CDN")
  return out

end Urls

/-- What the loop of `download` has received: the bytes hashed and those in the file. -/
structure Receiving where
  hashed : List UInt8
  file : List UInt8
  received : Nat
deriving DecidableEq

/-- `Download`: the location, the bytes of its file and the digest. -/
structure Download where
  location : Location
  payload : List UInt8
  rawSha256 : String
deriving DecidableEq

/-- The chunks of a location are decrypted. -/
def encrypted (location : Location) (name : String) : Bool :=
  location.provider == cryptProvider && !builtin name

section Downloading

variable (sha256 : List UInt8 → List UInt8) (keystream : List UInt8 → List UInt8 → Nat → UInt8)

/-- The bytes that are written for a chunk. -/
def chunkBytes (location : Location) (name : String) (offset : Nat) (chunk : List UInt8)
    : Except Failure (List UInt8) :=
  if encrypted location name then decrypt sha256 keystream chunk name offset else .ok chunk

/-- One round of the loop of `download`. -/
def receiveChunk (location : Location) (name : String) (size : Nat) (state : Receiving)
    (chunk : List UInt8)
    : Except Failure Receiving := do
  ensure (state.received + chunk.length ≤ size) (.error "download exceeds catalog size")
  let hashed := state.hashed ++ chunk
  let bytes ← chunkBytes sha256 keystream location name state.received chunk
  return { hashed, file := state.file ++ bytes, received := state.received + chunk.length }

/-- `App::download` with the response to its request; `parse` is `Url::parse`, `cdn` has the root of
the snapshot, and `room` is the outcome of reserving the disk space. A response that breaks off is
one whose stream fails or whose download is cancelled.
-/
def download (parse : String → Except Failure Url) (cdn : Cdn) (inputBytes : Nat)
    (room : Except Failure Unit) (location : Location) (response : Response)
    : Except Failure Download := do
  let options ← context location.options (.error "missing bundle options")
  let size := options.size.toNat
  ensure (0 < size && size ≤ inputBytes) (.error "input size budget")
  room
  let name ← context (basename location.internal) (.error "basename")
  ensure (!name.isEmpty) (.error "empty basename")
  ensure (remote location) (.error "non-HTTP resource fetch forbidden")
  let _ ← cdn.assetUrl parse location.internal
  ensure (response.status == 200) (.error "CDN HTTP")
  ensure (response.contentLength.all (· == size)) (.error "Content-Length mismatch")
  let last ← response.chunks.foldlM (receiveChunk sha256 keystream location name size) ⟨[], [], 0⟩
  ensure response.ended (.error "stream")
  ensure (last.received == size) (.error "truncated download")
  return { location, payload := last.file, rawSha256 := hexEncode (sha256 last.hashed) }

end Downloading

-----------------------------------------------------------------------------------------
-- Decrypting in pieces
-----------------------------------------------------------------------------------------

section Pieces

variable {sha256 : List UInt8 → List UInt8} {keystream : List UInt8 → List UInt8 → Nat → UInt8}
  {name : String} {offset : Nat} {data plain : List UInt8}

/-- The keystream up to the end of the encrypted prefix. -/
def prefixKey (stream : Nat → UInt8) (position : Nat) : UInt8 :=
  if position < encryptedPrefix then stream position else 0

/-- The keystream changes the bytes before the end of the prefix, and no others. -/
theorem crypt_prefix (stream : Nat → UInt8) (data : List UInt8) (offset : Nat)
    : crypt (· ^^^ ·) (prefixKey stream) offset data
      = crypt (· ^^^ ·) stream offset (data.take (min data.length (encryptedPrefix - offset)))
        ++ data.drop (min data.length (encryptedPrefix - offset)) := by
  obtain ⟨n, cut⟩ : ∃ n, n = min data.length (encryptedPrefix - offset) := ⟨_, rfl⟩
  have start : (data.take n).length = n := by
    rw [List.length_take]
    omega
  have first : crypt (· ^^^ ·) (prefixKey stream) offset (data.take n)
      = crypt (· ^^^ ·) stream offset (data.take n) :=
    crypt_congr fun i inside => if_pos (by omega)
  have second : crypt (· ^^^ ·) (prefixKey stream) (offset + (data.take n).length) (data.drop n)
      = data.drop n := by
    refine crypt_idle fun i inside byte => ?_
    rw [List.length_drop] at inside
    have idle : prefixKey stream (offset + (data.take n).length + i) = 0 := if_neg (by omega)
    rw [idle, UInt8.xor_zero]
  calc crypt (· ^^^ ·) (prefixKey stream) offset data
      = crypt (· ^^^ ·) (prefixKey stream) offset (data.take n ++ data.drop n) := by
        rw [List.take_append_drop]
    _ = _ := by rw [crypt_append, first, second, cut]

/-- Decryption combines the bytes with the keystream up to the end of the prefix, wherever the
data start.
-/
theorem decrypt_ok
    : decrypt sha256 keystream data name offset = .ok plain
      ↔ basenameAllowed name = true
        ∧ crypt (· ^^^ ·) (prefixKey (keystream bundleKey (bundleIv sha256 name))) offset data
          = plain := by
  rw [decrypt, bind_ok, crypt_prefix]
  simp only [ensure_ok, exists_const]
  refine and_congr_right fun _ => ?_
  split
  case isTrue none => rw [none, List.take_zero, List.drop_zero, pure_ok]; rfl
  case isFalse => exact pure_ok

/-- Bytes behind the prefix are never changed. -/
theorem decrypt_behind (done : decrypt sha256 keystream data name offset = .ok plain) {i : Nat}
    (behind : encryptedPrefix ≤ offset + i)
    : plain[i]? = data[i]? := by
  obtain ⟨-, rfl⟩ := decrypt_ok.mp done
  have idle : prefixKey (keystream bundleKey (bundleIv sha256 name)) (offset + i) = 0 :=
    if_neg (by omega)
  rw [crypt_getElem?, idle]
  simp only [UInt8.xor_zero, Option.map_id']

/-- Decryption at an offset undoes itself. -/
theorem decrypt_decrypt (done : decrypt sha256 keystream data name offset = .ok plain)
    : decrypt sha256 keystream plain name offset = .ok data := by
  obtain ⟨allowed, rfl⟩ := decrypt_ok.mp done
  exact decrypt_ok.mpr ⟨allowed, crypt_crypt xor_undoes data⟩

/-- Pieces that were decrypted one after the other, by induction on the pieces. -/
theorem decryptPieces_ok {pieces plains : List (List UInt8)} (some : pieces ≠ [])
    : decryptPieces sha256 keystream name offset pieces = .ok plains
      ↔ basenameAllowed name = true
        ∧ cryptPieces (· ^^^ ·) (prefixKey (keystream bundleKey (bundleIv sha256 name))) offset
            pieces
          = plains := by
  induction pieces generalizing offset plains with
  | nil => exact absurd rfl some
  | cons piece rest ih =>
      simp only [decryptPieces, cryptPieces, bind_ok, pure_ok, decrypt_ok]
      cases rest with
      | nil =>
          simp only [decryptPieces, cryptPieces, Except.ok.injEq]
          constructor
          · rintro ⟨plain, ⟨allowed, rfl⟩, _, rfl, rfl⟩
            exact ⟨allowed, rfl⟩
          · rintro ⟨allowed, rfl⟩
            exact ⟨_, ⟨allowed, rfl⟩, _, rfl, rfl⟩
      | cons second others =>
          simp only [ih (List.cons_ne_nil second others)]
          constructor
          · rintro ⟨plain, ⟨allowed, rfl⟩, _, ⟨-, rfl⟩, rfl⟩
            exact ⟨allowed, rfl⟩
          · rintro ⟨allowed, rfl⟩
            exact ⟨_, ⟨allowed, rfl⟩, _, ⟨allowed, rfl⟩, rfl⟩

/-- However data are cut into pieces, decrypting the pieces at their running offsets and putting
them together decrypts the whole. Where there are no pieces, nothing looks at the name.
-/
theorem decryptPieces_flatten {pieces : List (List UInt8)}
    (given : pieces ≠ [] ∨ basenameAllowed name = true)
    : (decryptPieces sha256 keystream name offset pieces).toOption.map List.flatten
      = (decrypt sha256 keystream pieces.flatten name offset).toOption := by
  by_cases none : pieces = []
  · subst none
    have allowed := given.resolve_left fun some => some rfl
    rw [List.flatten_nil, show decrypt sha256 keystream [] name offset = .ok [] from
      decrypt_ok.mpr ⟨allowed, rfl⟩]
    rfl
  refine Option.ext fun plain => ?_
  have piecewise : ∀ plains, (decryptPieces sha256 keystream name offset pieces).toOption
      = Option.some plains ↔ decryptPieces sha256 keystream name offset pieces = .ok plains := by
    intro plains
    cases decryptPieces sha256 keystream name offset pieces <;> simp [Except.toOption]
  have whole : (decrypt sha256 keystream pieces.flatten name offset).toOption = Option.some plain
      ↔ decrypt sha256 keystream pieces.flatten name offset = .ok plain := by
    cases decrypt sha256 keystream pieces.flatten name offset <;> simp [Except.toOption]
  rw [whole, decrypt_ok, ← cryptPieces_flatten, Option.map_eq_some_iff]
  simp only [piecewise, decryptPieces_ok none]
  constructor
  · rintro ⟨_, ⟨allowed, rfl⟩, rfl⟩
    exact ⟨allowed, rfl⟩
  · rintro ⟨allowed, rfl⟩
    exact ⟨_, ⟨allowed, rfl⟩, rfl⟩

end Pieces

-----------------------------------------------------------------------------------------
-- What is stored
-----------------------------------------------------------------------------------------

section Stored

variable {sha256 : List UInt8 → List UInt8} {keystream : List UInt8 → List UInt8 → Nat → UInt8}
  {name : String} {location : Location} {size : Nat} {chunk : List UInt8}

/-- What the file holds of the bytes received: the bytes, or their decryption. -/
def stored (sha256 : List UInt8 → List UInt8)
    (keystream : List UInt8 → List UInt8 → Nat → UInt8) (location : Location) (name : String)
    (raw : List UInt8)
    : List UInt8 :=
  if encrypted location name then
    crypt (· ^^^ ·) (prefixKey (keystream bundleKey (bundleIv sha256 name))) 0 raw
  else raw

/-- What holds of the chunks received so far. -/
structure Receiving.Lawful (sha256 : List UInt8 → List UInt8)
    (keystream : List UInt8 → List UInt8 → Nat → UInt8) (location : Location) (name : String)
    (chunks : List (List UInt8)) (state : Receiving)
    : Prop where
  hashed : state.hashed = chunks.flatten
  file : state.file = stored sha256 keystream location name chunks.flatten
  received : state.received = chunks.flatten.length
  allowed : encrypted location name = true → chunks ≠ [] → basenameAllowed name = true

/-- Nothing was received yet. -/
theorem Receiving.Lawful.start
    : Receiving.Lawful sha256 keystream location name [] ⟨[], [], 0⟩ where
  hashed := rfl
  file := by
    rw [stored]
    split <;> rfl
  received := rfl
  allowed := fun _ some => absurd rfl some

/-- A chunk received adds its bytes to the digest and to the file, where they are decrypted from
the position they have in the response.
-/
theorem Receiving.Lawful.receive {chunks : List (List UInt8)} {state after : Receiving}
    (lawful : Receiving.Lawful sha256 keystream location name chunks state)
    (step : receiveChunk sha256 keystream location name size state chunk = .ok after)
    : Receiving.Lawful sha256 keystream location name (chunks ++ [chunk]) after := by
  simp only [receiveChunk, bind_ok, pure_ok] at step
  obtain ⟨_, -, bytes, decrypted, rfl⟩ := step
  obtain ⟨hashed, file, received, allowed⟩ := lawful
  have flat : (chunks ++ [chunk]).flatten = chunks.flatten ++ chunk := by
    rw [List.flatten_append, List.flatten_singleton]
  refine ⟨?_, ?_, ?_, ?_⟩
  · rw [flat, hashed]
  · rw [flat, file, stored, stored]
    rw [chunkBytes] at decrypted
    split at decrypted
    case isTrue kind =>
      obtain ⟨-, rfl⟩ := decrypt_ok.mp decrypted
      rw [if_pos kind, if_pos kind, crypt_append, Nat.zero_add, received]
    case isFalse kind =>
      obtain rfl := Except.ok.inj decrypted
      rw [if_neg kind, if_neg kind]
  · rw [flat, List.length_append, received]
  · intro kind _
    rw [chunkBytes, if_pos kind] at decrypted
    exact (decrypt_ok.mp decrypted).1

/-- What a download stores: all of the declared length, decrypted as a whole when its provider is
the encrypted one and the bundle is not built in, and the digest of what was received.
-/
structure Download.Faithful (sha256 : List UInt8 → List UInt8)
    (keystream : List UInt8 → List UInt8 → Nat → UInt8) (location : Location) (raw : List UInt8)
    (download : Download)
    : Prop where
  declared
    : ∃ options,
        location.options = some options
        ∧ raw.length = options.size.toNat
        ∧ download.payload.length = options.size.toNat
  decrypted
    : ∃ name,
        basename location.internal = some name
        ∧ (location.provider = cryptProvider ∧ builtin name = false
          → decrypt sha256 keystream raw name 0 = .ok download.payload)
        ∧ (location.provider ≠ cryptProvider ∨ builtin name = true → download.payload = raw)
  digest : download.rawSha256 = hexEncode (sha256 raw)

/-- A download that succeeds is faithful, however its response was cut into chunks. -/
theorem download_faithful {parse : String → Except Failure Url} {cdn : Cdn} {inputBytes : Nat}
    {room : Except Failure Unit} {response : Response} {result : Download}
    (done : download sha256 keystream parse cdn inputBytes room location response = .ok result)
    : result.Faithful sha256 keystream location response.body := by
  simp only [download, bind_ok, context_ok, ensure_ok, pure_ok] at done
  obtain ⟨options, offered, _, sized, _, -, name, based, _, -, _, -, _, -, _, -, _, -, last,
    received, _, -, _, whole, rfl⟩ := done
  have lawful := foldlM_invariant (P := Receiving.Lawful sha256 keystream location name) received
    .start fun lawful step => lawful.receive step
  have length : response.body.length = options.size.toNat := by
    rw [Response.body, ← lawful.received]
    exact beq_iff_eq.mp whole
  have file : last.file = stored sha256 keystream location name response.body := lawful.file
  refine ⟨⟨options, offered, length, ?_⟩, ⟨name, based, ?_, ?_⟩, ?_⟩
  · show last.file.length = _
    rw [file, stored, ← length]
    split
    case isTrue => exact crypt_length _
    case isFalse => rfl
  · rintro ⟨provider, custom⟩
    have secret : encrypted location name = true := by
      rw [encrypted, provider, custom]
      rfl
    refine decrypt_ok.mpr ⟨lawful.allowed secret fun none => ?_, ?_⟩
    · rw [Response.body, none, List.flatten_nil, List.length_nil] at length
      rw [Bool.and_eq_true, decide_eq_true_eq, decide_eq_true_eq] at sized
      omega
    · rw [file, stored, if_pos secret]
  · intro plain
    have bare : ¬ encrypted location name = true := by
      rw [encrypted, Bool.and_eq_true, beq_iff_eq, Bool.not_eq_true']
      rintro ⟨provider, custom⟩
      rcases plain with other | known
      · exact other provider
      · cases custom.symm.trans known
    rw [file, stored, if_neg bare]
  · rw [Response.body, ← lawful.hashed]

end Stored

/-- What a download stores does not depend on how the response was cut into chunks; nor does
decryption depend on how the data are cut into pieces. It changes no byte behind the prefix, and
undoes itself.
-/
theorem download_whole (sha256 : List UInt8 → List UInt8)
    (keystream : List UInt8 → List UInt8 → Nat → UInt8)
    : (∀ (parse : String → Except Failure Url) (cdn : Cdn) (inputBytes : Nat)
          (room : Except Failure Unit) (location : Location) (response : Response)
          (result : Download),
        download sha256 keystream parse cdn inputBytes room location response = .ok result
        → result.Faithful sha256 keystream location response.body)
      ∧ (∀ (name : String) (offset : Nat) (pieces : List (List UInt8)),
          pieces ≠ [] ∨ basenameAllowed name = true
          → (decryptPieces sha256 keystream name offset pieces).toOption.map List.flatten
            = (decrypt sha256 keystream pieces.flatten name offset).toOption)
      ∧ (∀ (name : String) (offset : Nat) (data plain : List UInt8),
          decrypt sha256 keystream data name offset = .ok plain
          → (∀ i, encryptedPrefix ≤ offset + i → plain[i]? = data[i]?)
            ∧ decrypt sha256 keystream plain name offset = .ok data) :=
  ⟨fun _ _ _ _ _ _ _ done => download_faithful done,
    fun _ _ _ given => decryptPieces_flatten given,
    fun _ _ _ _ done => ⟨fun _ behind => decrypt_behind done behind, decrypt_decrypt done⟩⟩

/-- A bundle of three bytes. -/
def tinyBundle : Location :=
  {
    id := 1, key := "bundle", internal := "https://h/asset/Android/a.bundle"
    provider := cryptProvider, resourceType := "IAssetBundleResource", dependencies := []
    options := some { hash := "", bundleName := "a", crc := 0, size := 3 }
  }

/-- The CDN of the bundle. -/
def tinyCdn : Cdn := { cdnRoot := "https://c", allowLoopbackHttp := false }

/-- A parser that reads the URLs of the bundle. -/
def tinyParse (text : String) : Except Failure Url :=
  let url (host path : String) : Url :=
    {
      text, scheme := "https", username := "", password := none, host := some host
      origin := "https://" ++ host, path, query := none, fragment := none
    }
  if text = "https://h/asset/Android/a.bundle" then .ok (url "h" "/asset/Android/a.bundle")
  else if text = "https://c" then .ok { url "c" "/" with text := "https://c/" }
  else if text = "https://c/asset/Android/a.bundle" then .ok (url "c" "/asset/Android/a.bundle")
  else .error (.error "relative URL without a base")

/-- It is stored decrypted from chunks, one of which is empty. -/
theorem download_tinyBundle
    : ∃ result,
        download id (fun _ _ _ => 0xFF) tinyParse tinyCdn 8 (.ok ()) tinyBundle
            ⟨200, none, [[1], [], [2, 3]], true⟩
          = .ok result
        ∧ result.payload = [254, 253, 252]
        ∧ result.Faithful id (fun _ _ _ => 0xFF) tinyBundle [1, 2, 3] := by
  have stored : (download id (fun _ _ _ => 0xFF) tinyParse tinyCdn 8 (.ok ()) tinyBundle
      ⟨200, none, [[1], [], [2, 3]], true⟩).toOption.map Download.payload
        = some [254, 253, 252] := by
    decide +kernel
  cases done : download id (fun _ _ _ => 0xFF) tinyParse tinyCdn 8 (.ok ()) tinyBundle
      ⟨200, none, [[1], [], [2, 3]], true⟩ with
  | error failure =>
      rw [done] at stored
      cases stored
  | ok result =>
      rw [done] at stored
      exact ⟨result, rfl, Option.some.inj stored,
        (download_whole id fun _ _ _ => 0xFF).1 tinyParse tinyCdn 8 (.ok ()) tinyBundle _ result
          done⟩

end MoenotesAssets.Downloads
