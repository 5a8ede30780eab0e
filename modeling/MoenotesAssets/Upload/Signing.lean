import MoenotesAssets.Foundation.Percent
import MoenotesAssets.Snapshots.Record
import MoenotesAssets.Upload.Client

/-! How the requests of an upload are signed: the URL of an object, the canonical request, and what
two requests have in common that carry the same signature.
-/

namespace MoenotesAssets.Upload
open Foundation Foundation.Bytes ObjectTree

-----------------------------------------------------------------------------------------
-- Texts of a request
-----------------------------------------------------------------------------------------

/-- The bytes that stand for themselves in a URL. -/
def unreserved (byte : UInt8) : Bool :=
  isAsciiAlphanumeric (Char.ofNat byte.toNat) || "-_.~".toList.contains (Char.ofNat byte.toNat)

/-- `encode` -/
def encode (value : String) : List Char :=
  Percent.encode upperHexDigit unreserved (textBytes value)

/-- `tm`, as `gmtime_r` fills it. -/
structure Tm where
  year : Nat
  mon : Nat
  mday : Nat
  hour : Nat
  min : Nat
  sec : Nat

/-- `{:0w}` of a number. -/
def padded (width value : Nat) : List Char := (Nat.toDigits 10 value).leftpad width '0'

/-- `timestamp` -/
def Tm.stamp (tm : Tm) : List Char :=
  padded 4 (tm.year + 1900) ++ padded 2 (tm.mon + 1) ++ padded 2 tm.mday ++ 'T'
    :: padded 2 tm.hour ++ padded 2 tm.min ++ padded 2 tm.sec ++ ['Z']

/-- `&stamp[..8]` -/
def Tm.date (tm : Tm) : List Char := tm.stamp.take 8

structure Credentials where
  access : String
  secret : String
  token : Option String

/-- `S3`, as far as its requests depend on it. -/
structure S3 where
  endpoint : String
  bucket : String
  region : String
  credentials : Credentials

/-- `url::Url`: its host with the port, and its path. -/
structure Url where
  host : String
  path : String

/-- `endpoint.trim_end_matches('/')` -/
def S3.base (s3 : S3) : List Char := trimEnd '/' s3.endpoint

/-- The text of a URL below the endpoint. -/
def S3.below (s3 : S3) (parts : List (List Char)) : String :=
  String.ofList (s3.base ++ '/' :: ['/'].intercalate parts)

/-- The parts of the URL of an object that its key gives. -/
def keyParts (key : String) : List (List Char) := (splitPath key).map encode

/-- `split_whitespace`, joined by blanks. -/
def collapse (value : String) : List Char :=
  [' '].intercalate ((value.toList.splitOnP Snapshots.isWhitespace).filter (· ≠ []))

/-- The names of the headers that are signed. -/
def signedNames (headers : Std.TreeMap String String) : List Char :=
  [';'].intercalate (headers.keys.map String.toList)

/-- The line of a header. -/
def headerLine (entry : String × String) : List Char :=
  entry.1.toList ++ ':' :: collapse entry.2 ++ ['\n']

/-- `canonical` -/
def canonical (method path : String) (headers : Std.TreeMap String String) (sha : String)
    : List Char :=
  method.toList ++ '\n' :: path.toList ++ '\n' :: '\n' :: headers.toList.flatMap headerLine
    ++ '\n' :: signedNames headers ++ '\n' :: sha.toList

/-- `scope` -/
def S3.scope (s3 : S3) (tm : Tm) : List Char :=
  tm.date ++ '/' :: s3.region.toList ++ "/s3/aws4_request".toList

/-- `reqwest::RequestBuilder` before its body. -/
structure Request where
  method : String
  url : Url
  authorization : List Char
  headers : Std.TreeMap String String

section Sha

variable (sha256 : List UInt8 → List UInt8)

/-- `hmac`; a digest is no longer than the 64 bytes of a block. -/
def hmac (key data : List UInt8) : List UInt8 :=
  let key := if 64 < key.length then sha256 key else key
  let k := key ++ List.replicate (64 - key.length) 0
  sha256 (k.map (· ^^^ 0x5C) ++ sha256 (k.map (· ^^^ 0x36) ++ data))

/-- What is hashed of the data that is signed. -/
def hmacTexts (key data : List UInt8) : List (List UInt8) :=
  let key := if 64 < key.length then sha256 key else key
  let k := key ++ List.replicate (64 - key.length) 0
  [k.map (· ^^^ 0x5C) ++ sha256 (k.map (· ^^^ 0x36) ++ data), k.map (· ^^^ 0x36) ++ data]

/-- `sign` -/
def S3.signText (s3 : S3) (tm : Tm) (canonical : List Char) : List Char :=
  "AWS4-HMAC-SHA256\n".toList ++ tm.stamp ++ '\n' :: s3.scope tm ++ '\n'
    :: (digest sha256 (textBytes (String.ofList canonical))).toList

/-- `signing` -/
def S3.signingKey (s3 : S3) (tm : Tm) : List UInt8 :=
  let dateKey := hmac sha256 (textBytes ("AWS4" ++ s3.credentials.secret))
    (textBytes (String.ofList tm.date))
  let region := hmac sha256 dateKey (textBytes s3.region)
  let service := hmac sha256 region (textBytes "s3")
  hmac sha256 service (textBytes "aws4_request")

/-- `auth` -/
def S3.authorization (s3 : S3) (tm : Tm) (method path : String)
    (headers : Std.TreeMap String String) (sha : String)
    : List Char :=
  let text := s3.signText sha256 tm (canonical method path headers sha)
  let signature :=
    hexEncode (hmac sha256 (s3.signingKey sha256 tm) (textBytes (String.ofList text)))
  "AWS4-HMAC-SHA256 Credential=".toList ++ s3.credentials.access.toList ++ '/' :: s3.scope tm
    ++ ", SignedHeaders=".toList ++ signedNames headers ++ ", Signature=".toList
    ++ signature.toList

/-- What is hashed of the canonical request and of the text that is signed. -/
def S3.signedTexts (s3 : S3) (tm : Tm) (canonical : List Char) : List (List UInt8) :=
  textBytes (String.ofList canonical)
    :: hmacTexts sha256 (s3.signingKey sha256 tm)
      (textBytes (String.ofList (s3.signText sha256 tm canonical)))

/-- The headers that are signed. -/
def S3.signedHeaders (s3 : S3) (tm : Tm) (url : Url) (sha : String)
    (extra : Std.TreeMap String String)
    : Std.TreeMap String String :=
  let headers := ((extra.insert "host" url.host).insert "x-amz-content-sha256" sha).insert
    "x-amz-date" (String.ofList tm.stamp)
  match s3.credentials.token with
  | some token => headers.insert "x-amz-security-token" token
  | none => headers

/-- `S3::request`, where `parse` is `url::Url::parse`. -/
def S3.request (s3 : S3) (parse : String → Except String Url) (tm : Tm) (method key sha : String)
    (extra : Std.TreeMap String String)
    : Except String Request := do
  let url ← parse (s3.below (encode s3.bucket :: keyParts key))
  let headers := s3.signedHeaders tm url sha extra
  return {
    method
    url
    authorization := s3.authorization sha256 tm method url.path headers sha
    headers
  }

/-- What is hashed of a request, when its URL is read. -/
def S3.requestTexts (s3 : S3) (parse : String → Except String Url) (tm : Tm)
    (method key sha : String) (extra : Std.TreeMap String String)
    : List (List UInt8) :=
  match parse (s3.below (encode s3.bucket :: keyParts key)) with
  | .ok url =>
      s3.signedTexts sha256 tm
        (canonical method url.path (s3.signedHeaders tm url sha extra) sha)
  | .error _ => []

/-- A request that `S3` sends for an object: `S3::verify` or `S3::put`. -/
inductive Call where
  | verify (o : Object)
  | put (o : Object)

/-- The object of a call. -/
def Call.object : Call → Object
  | .verify o => o
  | .put o => o

/-- The headers that `S3::put` adds to those of every request. -/
def putHeaders (o : Object) : Std.TreeMap String String :=
  .ofList [("if-none-match", "*"), ("content-type", o.contentType),
    ("x-amz-meta-sha256", o.sha256)]

/-- The signed request of a call. -/
def S3.sign (s3 : S3) (parse : String → Except String Url) (tm : Tm)
    : Call → Except String Request
  | .verify o => s3.request sha256 parse tm "GET" o.objectKey (digest sha256 []) ∅
  | .put o => s3.request sha256 parse tm "PUT" o.objectKey o.sha256 (putHeaders o)

/-- What is hashed of a call. -/
def S3.texts (s3 : S3) (parse : String → Except String Url) (tm : Tm) : Call → List (List UInt8)
  | .verify o => s3.requestTexts sha256 parse tm "GET" o.objectKey (digest sha256 []) ∅
  | .put o => s3.requestTexts sha256 parse tm "PUT" o.objectKey o.sha256 (putHeaders o)

end Sha

-----------------------------------------------------------------------------------------
-- URLs of objects
-----------------------------------------------------------------------------------------

/-- The letters of an encoded text. -/
def isSegmentLetter (letter : Char) : Bool :=
  isAsciiAlphanumeric letter || "-_.~%".toList.contains letter

/-- A part of a path as it is encoded, which a URL keeps: none that is a dot name, and no escaped
dot.
-/
def IsSegment (part : List Char) : Prop := ∃ value, value ≠ "." ∧ value ≠ ".." ∧ part = encode value

/-- What `url::Url::parse` reads below the bucket: the host of the endpoint, and a path that ends in
the encoded parts as they are.
-/
structure S3.Reads (s3 : S3) (parse : String → Except String Url) (host : String)
    (root : List Char)
    : Prop where
  plain : '\n' ∉ root
  parts : ∀ parts : List (List Char), parts ≠ [] → (∀ part ∈ parts, IsSegment part)
    → parse (s3.below (encode s3.bucket :: parts))
      = .ok { host, path := String.ofList (root ++ '/' :: ['/'].intercalate parts) }

/-- The letters of an encoded text are digits, letters and marks that a URL keeps. -/
theorem encode_letters (value : String)
    : ∀ letter ∈ encode value, isSegmentLetter letter = true := by
  intro letter member
  rw [← Bool.not_eq_false]
  intro other
  have digits : ∀ value < 16, isSegmentLetter (upperHexDigit value) = true := by decide
  have escaped : ∀ byte : Fin 256, unreserved (UInt8.ofNat byte) = true
      → isSegmentLetter (Char.ofNat (UInt8.ofNat byte).toNat) = true := by
    decide +kernel
  refine Percent.encode_lacks ?_ ?_ ?_ (textBytes value) member
  · rintro value small rfl
    rw [digits value small] at other
    cases other
  · rintro rfl
    cases other
  · rintro byte itself rfl
    have kept := escaped ⟨byte.toNat, byte.toNat_lt⟩
    rw [UInt8.ofNat_toNat] at kept
    rw [kept itself] at other
    cases other

/-- Encoded texts are told apart. -/
theorem encode_injective : Function.Injective encode := by
  have readable : Percent.Readable upperHexDigit unreserved := ⟨by decide, by decide⟩
  exact fun _ _ same => textBytes_injective (readable.injective same)

/-- The parts of a safe key are kept in a URL. -/
theorem keyParts_segments {key : String} (safe : isSafePath key = true)
    : ∀ part ∈ keyParts key, IsSegment part := by
  intro part member
  obtain ⟨text, given, rfl⟩ := List.mem_map.mp member
  simp only [isSafePath, Bool.and_eq_true, List.all_eq_true] at safe
  have proper := safe.2 text given
  simp only [decide_eq_true_eq] at proper
  exact ⟨text, proper.1.2, proper.2, rfl⟩

/-- The parts of a key are not empty. -/
theorem keyParts_ne_nil (key : String) : keyParts key ≠ [] := by
  rw [keyParts, ne_eq, List.map_eq_nil_iff]
  exact splitPath_ne_nil key

/-- The joined parts of a key determine it. -/
theorem keyParts_inj {left right : String}
    (same : ['/'].intercalate (keyParts left) = ['/'].intercalate (keyParts right))
    : left = right := by
  have split : ∀ key : String, (['/'].intercalate (keyParts key)).splitOn '/' = keyParts key := by
    intro key
    rw [List.splitOn_intercalate]
    case hx =>
      intro part member slash
      obtain ⟨text, -, rfl⟩ := List.mem_map.mp member
      exact absurd (encode_letters text _ slash) (by decide)
    case hls => exact keyParts_ne_nil key
  have parts := split left
  rw [same, split right] at parts
  exact splitPath_injective (encode_injective.list_map parts.symm)

/-- The path of a safe key is one line. -/
theorem keyPath_plain {root : List Char} (plain : '\n' ∉ root) (key : String)
    : '\n' ∉ (String.ofList (root ++ '/' :: ['/'].intercalate (keyParts key))).toList := by
  rw [String.toList_ofList, List.mem_append, List.mem_cons]
  rintro (above | slash | below)
  · exact plain above
  · exact absurd slash (by decide)
  · rcases mem_joined below with slash | ⟨part, among, found⟩
    · exact absurd slash (by decide)
    · obtain ⟨text, -, rfl⟩ := List.mem_map.mp among
      exact absurd (encode_letters text _ found) (by decide)

-----------------------------------------------------------------------------------------
-- What the signed texts determine
-----------------------------------------------------------------------------------------

/-- The parts around separators have none, by induction on the list. -/
theorem splitOnP_plain {α : Type} {isMark : α → Bool} {list part : List α}
    (among : part ∈ list.splitOnP isMark)
    : ∀ member ∈ part, isMark member = false := by
  induction list generalizing part with
  | nil =>
      rw [List.splitOnP_nil] at among
      obtain rfl := List.mem_singleton.mp among
      exact fun _ none => absurd none List.not_mem_nil
  | cons first rest ih =>
      rw [List.splitOnP_cons_eq_if_modifyHead] at among
      split at among
      case isTrue =>
        rcases List.mem_cons.mp among with rfl | later
        · exact fun _ none => absurd none List.not_mem_nil
        · exact ih later
      case isFalse other =>
        cases parts : rest.splitOnP isMark with
        | nil => exact absurd parts (List.splitOnP_ne_nil isMark rest)
        | cons head others =>
            rw [parts, List.modifyHead_cons, List.mem_cons] at among
            rcases among with rfl | later
            · intro member found
              rcases List.mem_cons.mp found with rfl | behind
              · exact Bool.eq_false_iff.mpr other
              · exact ih (parts ▸ List.mem_cons_self) member behind
            · exact ih (parts ▸ List.mem_cons_of_mem _ later)

/-- No line of a header is broken by its value. -/
theorem collapse_plain (value : String) : '\n' ∉ collapse value := by
  intro member
  rcases mem_joined member with blank | ⟨word, among, found⟩
  · exact absurd blank (by decide)
  · obtain ⟨given, -⟩ := List.mem_filter.mp among
    exact absurd (splitOnP_plain given _ found) (by decide)

/-- A padded number is as long as asked for. -/
theorem padded_length (width value : Nat) : width ≤ (padded width value).length := by
  rw [padded, List.length_leftpad]
  exact Nat.le_max_left _ _

/-- A time stamp is one line. -/
theorem Tm.stamp_plain (tm : Tm) : '\n' ∉ tm.stamp := by
  have digits : ∀ width value, '\n' ∉ padded width value := fun width value member =>
    absurd (leftpad_digits width value _ member) (by decide)
  simp [Tm.stamp, digits]

/-- The date of a time stamp has eight digits. -/
theorem Tm.date_length (tm : Tm) : tm.date.length = 8 := by
  have year := padded_length 4 (tm.year + 1900)
  have month := padded_length 2 (tm.mon + 1)
  have day := padded_length 2 tm.mday
  rw [Tm.date, List.length_take, Tm.stamp]
  simp only [List.length_append, List.length_cons]
  omega

section Sha

variable {sha256 : List UInt8 → List UInt8}

/-- Without collisions, a key signs data differently. -/
theorem hmac_inj {key left right : List UInt8} {inputs : List (List UInt8)}
    (secure : NoCollision sha256 inputs) (among : hmacTexts sha256 key left ⊆ inputs)
    (among' : hmacTexts sha256 key right ⊆ inputs)
    (same : hmac sha256 key left = hmac sha256 key right)
    : left = right := by
  have outer := secure _ (among List.mem_cons_self) _ (among' List.mem_cons_self) same
  have inner := secure _ (among (List.mem_cons_of_mem _ List.mem_cons_self)) _
    (among' (List.mem_cons_of_mem _ List.mem_cons_self)) (List.append_cancel_left outer)
  exact List.append_cancel_left inner

end Sha

/-- A name that separates from others in the list of signed names. -/
def IsHeaderName (name : String) : Prop := ';' ∉ name.toList ∧ ',' ∉ name.toList

/-- The signed names determine the names of the headers. -/
theorem signedNames_keys {headers headers' : Std.TreeMap String String}
    (named : ∀ name ∈ headers.keys, IsHeaderName name)
    (named' : ∀ name ∈ headers'.keys, IsHeaderName name)
    (some : headers.keys ≠ []) (some' : headers'.keys ≠ [])
    (same : signedNames headers = signedNames headers')
    : headers.keys = headers'.keys := by
  have split : ∀ names : List String, (∀ name ∈ names, IsHeaderName name) → names ≠ []
      → ([';'].intercalate (names.map String.toList)).splitOn ';' = names.map String.toList := by
    intro names plain nonempty
    rw [List.splitOn_intercalate]
    case hx =>
      intro letters member
      obtain ⟨name, given, rfl⟩ := List.mem_map.mp member
      exact (plain name given).1
    case hls => simpa using nonempty
  have texts := split _ named some
  rw [← signedNames, same, signedNames, split _ named' some'] at texts
  exact (List.map_injective_iff.mpr (fun _ _ => String.toList_inj.mp) texts).symm

/-- The signed names have no comma. -/
theorem signedNames_plain {headers : Std.TreeMap String String}
    (named : ∀ name ∈ headers.keys, IsHeaderName name)
    : ',' ∉ signedNames headers := by
  intro member
  rcases mem_joined member with mark | ⟨letters, among, found⟩
  · exact absurd mark (by decide)
  · obtain ⟨name, given, rfl⟩ := List.mem_map.mp among
    exact (named name given).2 found

/-- The lines of headers with the same names determine their values, as far as these are signed,
and what follows the lines; by induction on the names.
-/
theorem headerLines_inj {entries entries' : List (String × String)} {rest rest' : List Char}
    (names : entries.map Prod.fst = entries'.map Prod.fst)
    (same : entries.flatMap headerLine ++ rest = entries'.flatMap headerLine ++ rest')
    : entries.map (fun entry => (entry.1, collapse entry.2))
        = entries'.map (fun entry => (entry.1, collapse entry.2))
      ∧ rest = rest' := by
  induction entries generalizing entries' with
  | nil =>
      obtain rfl := List.map_eq_nil_iff.mp names.symm
      exact ⟨rfl, same⟩
  | cons entry others ih =>
      cases entries' with
      | nil => cases names
      | cons entry' others' =>
          obtain ⟨name, value⟩ := entry
          obtain ⟨name', value'⟩ := entry'
          obtain ⟨rfl, later⟩ := List.cons.inj names
          simp only [List.flatMap_cons, headerLine, List.append_assoc, List.cons_append,
            List.nil_append] at same
          have behind := (List.cons.inj (List.append_cancel_left same)).2
          obtain ⟨value, following⟩ :=
            separated_inj (collapse_plain value) (collapse_plain value') behind
          obtain ⟨values, final⟩ := ih later following
          refine ⟨?_, final⟩
          rw [List.map_cons, List.map_cons, values, value]

-----------------------------------------------------------------------------------------
-- One signature, one call
-----------------------------------------------------------------------------------------

/-- A canonical request of which the method and the path are single lines. -/
theorem canonical_inj {method method' path path' sha sha' : String}
    {headers headers' : Std.TreeMap String String}
    (verb : '\n' ∉ method.toList) (verb' : '\n' ∉ method'.toList)
    (line : '\n' ∉ path.toList) (line' : '\n' ∉ path'.toList)
    (names : headers.keys = headers'.keys)
    (same : canonical method path headers sha = canonical method' path' headers' sha')
    : method = method'
      ∧ path = path'
      ∧ headers.toList.map (fun entry => (entry.1, collapse entry.2))
        = headers'.toList.map (fun entry => (entry.1, collapse entry.2))
      ∧ sha = sha' := by
  simp only [canonical, List.append_assoc, List.cons_append] at same
  obtain ⟨methods, behind⟩ := separated_inj verb verb' same
  obtain ⟨paths, behind⟩ := separated_inj line line' behind
  have fronts : headers.toList.map Prod.fst = headers'.toList.map Prod.fst := by
    rw [Std.TreeMap.map_fst_toList_eq_keys, Std.TreeMap.map_fst_toList_eq_keys, names]
  obtain ⟨values, behind⟩ := headerLines_inj fronts (List.cons.inj behind).2
  rw [signedNames, signedNames, names] at behind
  have shas := (List.cons.inj (List.append_cancel_left (List.cons.inj behind).2)).2
  exact ⟨String.toList_inj.mp methods, String.toList_inj.mp paths, values,
    String.toList_inj.mp shas⟩

section Sha

variable {sha256 : List UInt8 → List UInt8} {s3 : S3} {tm tm' : Tm}

/-- Without collisions, an authorization determines the names that are signed, the time stamp and
the canonical request.
-/
theorem S3.authorization_inj {method method' path path' sha sha' : String}
    {headers headers' : Std.TreeMap String String}
    (secure
      : NoCollision sha256
          (s3.signedTexts sha256 tm (canonical method path headers sha)
            ++ s3.signedTexts sha256 tm' (canonical method' path' headers' sha')))
    (named : ∀ name ∈ headers.keys, IsHeaderName name)
    (named' : ∀ name ∈ headers'.keys, IsHeaderName name)
    (same : s3.authorization sha256 tm method path headers sha
      = s3.authorization sha256 tm' method' path' headers' sha')
    : signedNames headers = signedNames headers'
      ∧ tm.stamp = tm'.stamp
      ∧ canonical method path headers sha = canonical method' path' headers' sha' := by
  have comma : ∃ rest, ", Signature=".toList = ',' :: rest := ⟨_, rfl⟩
  obtain ⟨rest, comma⟩ := comma
  unfold S3.authorization at same
  rw [S3.scope, S3.scope, comma] at same
  generalize "AWS4-HMAC-SHA256 Credential=".toList = front, ", SignedHeaders=".toList = middle,
    "/s3/aws4_request".toList = service at same
  simp only [List.append_assoc, List.cons_append] at same
  -- the dates have one length, and what stands around them is the same on both sides
  have dated := (List.cons.inj (List.append_cancel_left (List.append_cancel_left same))).2
  obtain ⟨dates, behind⟩ := List.append_inj dated (tm.date_length.trans tm'.date_length.symm)
  have names := List.append_cancel_left (List.append_cancel_left
    (List.append_cancel_left (List.cons.inj behind).2))
  obtain ⟨signed, behind⟩ :=
    separated_inj (signedNames_plain named) (signedNames_plain named') names
  have signatures := hexEncode_injective (String.toList_inj.mp (List.append_cancel_left behind))
  have keys : s3.signingKey sha256 tm = s3.signingKey sha256 tm' := by
    rw [S3.signingKey, S3.signingKey, dates]
  rw [keys] at signatures
  have among : hmacTexts sha256 (s3.signingKey sha256 tm')
        (textBytes (String.ofList (s3.signText sha256 tm (canonical method path headers sha))))
      ⊆ s3.signedTexts sha256 tm (canonical method path headers sha) := by
    rw [← keys]
    exact List.subset_cons_self _ _
  have texts := hmac_inj secure (List.subset_append_of_subset_left _ among)
    (List.subset_append_of_subset_right _ (List.subset_cons_self _ _)) signatures
  have texts := String.ofList_injective (textBytes_injective texts)
  unfold S3.signText at texts
  rw [S3.scope, S3.scope, dates] at texts
  generalize "AWS4-HMAC-SHA256\n".toList = front, "/s3/aws4_request".toList = service at texts
  simp only [List.append_assoc, List.cons_append] at texts
  obtain ⟨stamps, behind⟩ :=
    separated_inj tm.stamp_plain tm'.stamp_plain (List.append_cancel_left texts)
  have digests := (List.cons.inj (List.append_cancel_left (List.append_cancel_left
    (List.cons.inj (List.append_cancel_left behind)).2))).2
  have canonicals := digest_inj secure (List.mem_append_left _ List.mem_cons_self)
    (List.mem_append_right _ List.mem_cons_self) (String.toList_inj.mp digests)
  exact ⟨signed, stamps, String.ofList_injective (textBytes_injective canonicals)⟩

/-- The names of the signed headers separate when those of the call do. -/
theorem S3.signedHeaders_names {url : Url} {sha : String} {extra : Std.TreeMap String String}
    (named : ∀ name ∈ extra, IsHeaderName name)
    : ∀ name ∈ (s3.signedHeaders tm url sha extra).keys, IsHeaderName name := by
  intro name member
  rw [Std.TreeMap.mem_keys, S3.signedHeaders] at member
  have common : ∀ name ∈ ((extra.insert "host" url.host).insert "x-amz-content-sha256" sha).insert
      "x-amz-date" (String.ofList tm.stamp), IsHeaderName name := by
    intro name member
    simp only [Std.TreeMap.mem_insert, Std.compare_eq_iff_eq] at member
    rcases member with rfl | rfl | rfl | given
    · exact ⟨by decide, by decide⟩
    · exact ⟨by decide, by decide⟩
    · exact ⟨by decide, by decide⟩
    · exact named name given
  split at member
  · rw [Std.TreeMap.mem_insert, Std.compare_eq_iff_eq] at member
    rcases member with rfl | other
    · exact ⟨by decide, by decide⟩
    · exact common name other
  · exact common name member

/-- A header that is signed for every request. -/
theorem S3.signedHeaders_some (url : Url) (sha : String) (extra : Std.TreeMap String String)
    : (s3.signedHeaders tm url sha extra).keys ≠ [] := by
  have host : "host" ∈ (s3.signedHeaders tm url sha extra).keys := by
    rw [Std.TreeMap.mem_keys, S3.signedHeaders]
    split <;> simp [Std.TreeMap.mem_insert]
  exact List.ne_nil_of_mem host

/-- Headers with the same lines have the same values, as far as these are signed. -/
theorem values_eq {headers headers' : Std.TreeMap String String}
    (same : headers.toList.map (fun entry => (entry.1, collapse entry.2))
      = headers'.toList.map (fun entry => (entry.1, collapse entry.2)))
    {name value value' : String} (found : headers[name]? = some value)
    (found' : headers'[name]? = some value')
    : collapse value = collapse value' := by
  have listed := List.mem_map_of_mem
    (f := fun entry : String × String => (entry.1, collapse entry.2))
    (Std.TreeMap.mem_toList_iff_getElem?_eq_some.mpr found)
  rw [same] at listed
  obtain ⟨⟨other, value''⟩, member, shape⟩ := List.mem_map.mp listed
  obtain ⟨rfl, values⟩ := Prod.mk.inj shape
  rw [Std.TreeMap.mem_toList_iff_getElem?_eq_some, found'] at member
  rw [← values, Option.some.inj member]

/-- A header of the call is signed as it is given, if it is none of those of every request. -/
theorem S3.signedHeaders_extra (url : Url) (sha : String) (extra : Std.TreeMap String String)
    {name : String}
    (other : name ∉ ["host", "x-amz-content-sha256", "x-amz-date", "x-amz-security-token"])
    : (s3.signedHeaders tm url sha extra)[name]? = extra[name]? := by
  simp only [List.mem_cons, List.not_mem_nil, or_false, not_or] at other
  obtain ⟨host, content, date, token⟩ := other
  rw [S3.signedHeaders]
  split <;> simp [Std.TreeMap.getElem?_insert, Ne.symm host, Ne.symm content, Ne.symm date,
    Ne.symm token]

variable {parse : String → Except String Url} {host : String} {root : List Char}

/-- The authorization of a request for a safe key, the path that it signs and what is hashed. -/
theorem S3.request_signed (reads : s3.Reads parse host root) {method key sha : String}
    {extra : Std.TreeMap String String} {request : Request} (safe : isSafePath key = true)
    (sent : s3.request sha256 parse tm method key sha extra = .ok request)
    : ∃ url : Url,
        url.path = String.ofList (root ++ '/' :: ['/'].intercalate (keyParts key))
        ∧ request.authorization
          = s3.authorization sha256 tm method url.path (s3.signedHeaders tm url sha extra) sha
        ∧ s3.requestTexts sha256 parse tm method key sha extra
          = s3.signedTexts sha256 tm
            (canonical method url.path (s3.signedHeaders tm url sha extra) sha) := by
  have read := reads.parts _ (keyParts_ne_nil key) (keyParts_segments safe)
  rw [S3.request, read] at sent
  obtain rfl := pure_ok.mp sent
  rw [S3.requestTexts, read]
  exact ⟨{ host, path := _ }, rfl, rfl, rfl⟩

/-- Two signed requests for objects with safe keys that carry the same authorization have the same
time stamp, method, key and digest, and the same headers, as far as these are signed.
-/
theorem S3.request_inj (reads : s3.Reads parse host root)
    {method method' key key' sha sha' : String} {extra extra' : Std.TreeMap String String}
    {request request' : Request}
    (secure
      : NoCollision sha256
          (s3.requestTexts sha256 parse tm method key sha extra
            ++ s3.requestTexts sha256 parse tm' method' key' sha' extra'))
    (verb : '\n' ∉ method.toList) (verb' : '\n' ∉ method'.toList)
    (safe : isSafePath key = true) (safe' : isSafePath key' = true)
    (named : ∀ name ∈ extra, IsHeaderName name) (named' : ∀ name ∈ extra', IsHeaderName name)
    (sent : s3.request sha256 parse tm method key sha extra = .ok request)
    (sent' : s3.request sha256 parse tm' method' key' sha' extra' = .ok request')
    (same : request.authorization = request'.authorization)
    : tm.stamp = tm'.stamp
      ∧ method = method'
      ∧ key = key'
      ∧ sha = sha'
      ∧ ∀ name ∉ ["host", "x-amz-content-sha256", "x-amz-date", "x-amz-security-token"],
          ∀ value value', extra[name]? = some value → extra'[name]? = some value'
            → collapse value = collapse value' := by
  obtain ⟨url, path, signature, texts⟩ := S3.request_signed reads safe sent
  obtain ⟨url', path', signature', texts'⟩ := S3.request_signed reads safe' sent'
  rw [signature, signature'] at same
  rw [texts, texts'] at secure
  have names := @S3.signedHeaders_names s3 tm url sha extra named
  have names' := @S3.signedHeaders_names s3 tm' url' sha' extra' named'
  obtain ⟨signed, stamps, texts⟩ := S3.authorization_inj secure names names' same
  have keys := signedNames_keys names names' (S3.signedHeaders_some url sha extra)
    (S3.signedHeaders_some url' sha' extra') signed
  have line := path ▸ keyPath_plain reads.plain key
  have line' := path' ▸ keyPath_plain reads.plain key'
  obtain ⟨methods, paths, values, shas⟩ := canonical_inj verb verb' line line' keys texts
  rw [path, path'] at paths
  have below := (List.cons.inj (List.append_cancel_left (String.ofList_injective paths))).2
  refine ⟨stamps, methods, keyParts_inj below, shas, ?_⟩
  intro name other value value' given given'
  exact values_eq values ((S3.signedHeaders_extra url sha extra other).trans given)
    ((S3.signedHeaders_extra url' sha' extra' other).trans given')

/-- Calls that are the same, as far as they are signed: to create an object under one key, with one
digest and content type, or to read what one key holds.
-/
def Call.Same : Call → Call → Prop
  | .verify o, .verify p => o.objectKey = p.objectKey
  | .put o, .put p =>
      o.objectKey = p.objectKey
      ∧ o.sha256 = p.sha256
      ∧ collapse o.contentType = collapse p.contentType
  | _, _ => False

/-- The names of the headers that `S3::put` adds separate. -/
theorem putHeaders_names (o : Object) : ∀ name ∈ putHeaders o, IsHeaderName name := by
  intro name member
  simp only [putHeaders, Std.TreeMap.mem_ofList, List.map_cons, List.map_nil,
    List.contains_cons, List.contains_nil, Bool.or_false, Bool.or_eq_true, beq_iff_eq] at member
  rcases member with rfl | rfl | rfl <;> exact ⟨by decide, by decide⟩

/-- The content type of an object is among the headers of its `PUT`. -/
theorem putHeaders_type (o : Object) : (putHeaders o)["content-type"]? = some o.contentType := by
  refine Std.TreeMap.getElem?_ofList_of_mem (Std.compare_eq_iff_eq.mpr rfl) ?_
    (List.mem_cons_of_mem _ List.mem_cons_self)
  simp

/-- An authorization stands for one call at one time. -/
theorem authorization_authorizes_one_call (reads : s3.Reads parse host root)
    {call call' : Call} {request request' : Request}
    (secure
      : NoCollision sha256 (s3.texts sha256 parse tm call ++ s3.texts sha256 parse tm' call'))
    (safe : isSafePath call.object.objectKey = true)
    (safe' : isSafePath call'.object.objectKey = true)
    (sent : s3.sign sha256 parse tm call = .ok request)
    (sent' : s3.sign sha256 parse tm' call' = .ok request')
    (same : request.authorization = request'.authorization)
    : tm.stamp = tm'.stamp ∧ call.Same call' := by
  have bare : ∀ name ∈ (∅ : Std.TreeMap String String), IsHeaderName name := fun name member =>
    absurd member Std.TreeMap.not_mem_emptyc
  have get : '\n' ∉ "GET".toList := by decide
  have put : '\n' ∉ "PUT".toList := by decide
  cases call with
  | verify o =>
      cases call' with
      | verify p =>
          obtain ⟨stamps, -, keys, -⟩ := S3.request_inj reads secure get get safe safe'
            bare bare sent sent' same
          exact ⟨stamps, keys⟩
      | put p =>
          obtain ⟨-, methods, -⟩ := S3.request_inj reads secure get put safe safe'
            bare (putHeaders_names p) sent sent' same
          exact absurd methods (by decide)
  | put o =>
      cases call' with
      | verify p =>
          obtain ⟨-, methods, -⟩ := S3.request_inj reads secure put get safe safe'
            (putHeaders_names o) bare sent sent' same
          exact absurd methods (by decide)
      | put p =>
          obtain ⟨stamps, -, keys, shas, values⟩ := S3.request_inj reads secure put put
            safe safe' (putHeaders_names o) (putHeaders_names p) sent sent' same
          have types := values "content-type" (by decide) o.contentType p.contentType
            (putHeaders_type o) (putHeaders_type p)
          exact ⟨stamps, keys, shas, types⟩

end Sha

section Example

/-- A client of a store on this machine. -/
private def localStore : S3 where
  endpoint := "http://127.0.0.1:9000/"
  bucket := "assets"
  region := "test"
  credentials := { access := "test", secret := "secret", token := none }

/-- What stands behind the host of a URL of the store, which is 21 letters long. -/
private def parseLocal (text : String) : Except String Url :=
  .ok { host := "127.0.0.1:9000", path := String.ofList (text.toList.drop 21) }

/-- The store is read below its bucket. -/
private theorem localStore_reads
    : localStore.Reads parseLocal "127.0.0.1:9000" "/assets".toList where
  plain := by decide
  parts parts nonempty _ := by
    have base : localStore.base = "http://127.0.0.1:9000".toList := by decide
    have bucket : encode localStore.bucket = "assets".toList := by decide
    obtain ⟨first, rest, rfl⟩ := List.exists_cons_of_ne_nil nonempty
    rw [parseLocal, S3.below, String.toList_ofList, base, bucket, List.intercalate_cons_cons]
    rfl

/-- A text in the store. -/
private def text (contentType : String) : Object where
  objectKey := "a/b c.txt"
  assetKey := "a"
  artifactId := "1"
  label := "a"
  contentType
  bytes := 5
  sha256 := "d0"
  snapshot := "s"
  profile := "p"
  role := "asset"
  exportId := "e"

/-- A time. -/
private def noon : Tm where
  year := 124
  mon := 0
  mday := 31
  hour := 12
  min := 0
  sec := 0

/-- Texts whose types differ in their blanks are put with one authorization. -/
theorem authorization_of_text
    : noon.stamp = noon.stamp
      ∧ (Call.put (text "text/plain; charset=utf-8")).Same
          (Call.put (text "text/plain;  charset=utf-8")) :=
  @authorization_authorizes_one_call id _ _ _ _ _ _ localStore_reads _ _ _ _
    (fun _ _ _ _ same => same) (by decide) (by decide) rfl rfl rfl

end Example

end MoenotesAssets.Upload
