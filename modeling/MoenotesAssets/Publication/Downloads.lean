import MoenotesAssets.Publication.Files

/-! Downloads of published files: requests for all of a file or for the rest of it, and those that
depend on what the client has already.
-/

namespace MoenotesAssets.Publication

open Foundation Foundation.Bytes MoenotesAssets.Export MoenotesAssets.Service

variable {settings : Settings}

-----------------------------------------------------------------------------------------
-- Conditions
-----------------------------------------------------------------------------------------

/-- An entity tag as a client writes it. -/
structure EntityTag where
  weak : Bool
  value : String

/-- The letters of an entity tag. -/
def EntityTag.letters (tag : EntityTag) : List Char :=
  (if tag.weak then ['W', '/'] else []) ++ (quote tag.value).toList

/-- Blanks around a text that begins and ends with other letters are trimmed. -/
theorem trim_padded {first last : Char} {inner : List Char}
    (solid : Snapshots.isWhitespace first = false) (solid' : Snapshots.isWhitespace last = false)
    (before behind : Nat)
    : Snapshots.trim
        (String.ofList (List.replicate before ' ' ++ (first :: inner ++ [last])
          ++ List.replicate behind ' '))
      = String.ofList (first :: inner ++ [last]) := by
  have blank : ∀ n, ∀ letter ∈ List.replicate n ' ', Snapshots.isWhitespace letter = true := by
    intro n letter member
    rw [List.eq_of_mem_replicate member]
    decide
  have reversed : ((first :: inner ++ [last]) ++ List.replicate behind ' ').reverse
      = List.replicate behind ' ' ++ (last :: inner.reverse ++ [first]) := by
    simp [List.reverse_replicate]
  rw [Snapshots.trim, String.toList_ofList, List.append_assoc,
    List.dropWhile_append_of_pos (blank before), List.cons_append, List.cons_append,
    List.dropWhile_cons_of_neg (by simp [solid]), ← List.cons_append, ← List.cons_append, reversed,
    List.dropWhile_append_of_pos (blank behind), List.cons_append,
    List.dropWhile_cons_of_neg (by simp [solid'])]
  simp

/-- The letters of a quoted text. -/
theorem quote_letters (hash : String) : (quote hash).toList = '"' :: hash.toList ++ ['"'] := by
  simp [quote]

/-- A text is determined by its quotation. -/
theorem quote_injective {left right : String} (same : quote left = quote right) : left = right := by
  have letters := congrArg String.toList same
  rw [quote_letters, quote_letters] at letters
  exact String.toList_inj.mp (by simpa using letters)

/-- The piece of an entity tag, without its blanks. -/
theorem EntityTag.trimmed (tag : EntityTag) (before behind : Nat)
    : Snapshots.trim (String.ofList
        (List.replicate before ' ' ++ tag.letters ++ List.replicate behind ' '))
      = String.ofList tag.letters := by
  rw [letters, quote_letters]
  cases tag.weak with
  | false => exact trim_padded (by decide) (by decide) before behind
  | true =>
      have shape : ['W', '/'] ++ ('"' :: tag.value.toList ++ ['"'])
          = 'W' :: ('/' :: '"' :: tag.value.toList) ++ ['"'] := rfl
      rw [if_pos rfl, shape]
      exact trim_padded (by decide) (by decide) before behind

/-- The mark of a weak tag is left out. -/
theorem EntityTag.stripped (tag : EntityTag)
    : stripWeak (String.ofList tag.letters) = quote tag.value := by
  rw [stripWeak, String.toList_ofList, letters, quote_letters]
  cases tag.weak with
  | false =>
      rw [if_neg Bool.false_ne_true, if_neg (by simp)]
      exact String.toList_inj.mp (by rw [String.toList_ofList, List.nil_append, quote_letters])
  | true =>
      rw [if_pos rfl, if_pos (by simp)]
      refine String.toList_inj.mp ?_
      rw [String.toList_ofList, String.toList_ofList, quote_letters]
      rfl

/-- An entity tag is no asterisk. -/
theorem EntityTag.ne_any (tag : EntityTag) : String.ofList tag.letters ≠ "*" := by
  intro same
  have length := congrArg (fun text => text.toList.length) same
  simp only [letters, quote_letters, String.toList_ofList, List.length_append,
    List.length_cons] at length
  have one : "*".toList.length = 1 := rfl
  omega

/-- A piece of `if-none-match` that is an entity tag between blanks. -/
def Writes (piece : List Char) (tag : EntityTag) : Prop :=
  ',' ∉ tag.value.toList
  ∧ ∃ before behind,
      piece = List.replicate before ' ' ++ tag.letters ++ List.replicate behind ' '

/-- The value of `if-none-match` for a list of entity tags. -/
def Lists (value : String) (tags : List EntityTag) : Prop :=
  ∃ pieces, value.toList = [','].intercalate pieces ∧ List.Forall₂ Writes pieces tags

/-- An entity tag between blanks has no comma. -/
theorem Writes.plain {piece : List Char} {tag : EntityTag} (writes : Writes piece tag)
    : ',' ∉ piece := by
  obtain ⟨plain, before, behind, rfl⟩ := writes
  rw [EntityTag.letters, quote_letters]
  cases tag.weak <;> simp [plain]

/-- An entity tag between blanks stands for its value. -/
theorem Writes.standsFor {piece : List Char} {tag : EntityTag} (writes : Writes piece tag)
    (hash : String)
    : standsFor (quote hash) piece = true ↔ tag.value = hash := by
  obtain ⟨-, before, behind, rfl⟩ := writes
  simp only [Publication.standsFor, tag.trimmed, tag.stripped, tag.ne_any, decide_false,
    Bool.or_false, decide_eq_true_eq]
  exact ⟨quote_injective, congrArg quote⟩

/-- A list of entity tags lists the tags of its values. -/
theorem listsTag_iff {value : String} {tags : List EntityTag} (lists : Lists value tags)
    (hash : String)
    : listsTag value (quote hash) = true ↔ ∃ tag ∈ tags, tag.value = hash := by
  obtain ⟨pieces, whole, written⟩ := lists
  rw [listsTag, whole]
  rcases pieces with _ | ⟨first, pieces⟩
  · cases written
    have blank : quote hash ≠ "" := by
      intro same
      have letters := congrArg String.toList same
      rw [quote_letters] at letters
      cases letters
    simp [standsFor, stripWeak, Snapshots.trim, blank.symm]
  · have plain : ∀ piece ∈ first :: pieces, ',' ∉ piece := by
      intro piece member
      obtain ⟨tag, -, writes⟩ := forall₂_comes written.flip member
      exact Writes.plain writes
    rw [List.splitOn_intercalate ',' plain (List.cons_ne_nil _ _), List.any_eq_true]
    constructor
    · rintro ⟨piece, member, stands⟩
      obtain ⟨tag, listed, writes⟩ := forall₂_comes written.flip member
      exact ⟨tag, listed, (Writes.standsFor writes hash).mp stands⟩
    · rintro ⟨tag, listed, same⟩
      obtain ⟨piece, member, writes⟩ := forall₂_comes written listed
      exact ⟨piece, member, (writes.standsFor hash).mpr same⟩

-----------------------------------------------------------------------------------------
-- Downloads
-----------------------------------------------------------------------------------------

/-- A range of bytes as a client asks for it: between two positions, from a position on, or that
many at the end.
-/
inductive ByteRange where
  | between (first last : Nat)
  | onward (first : Nat)
  | suffix (count : Nat)

/-- The numbers before and behind the hyphen. -/
def ByteRange.bounds : ByteRange → Option Nat × Option Nat
  | between first last => (some first, some last)
  | onward first => (some first, none)
  | suffix count => (none, some count)

/-- A number, if there is one. -/
def boundText : Option Nat → String
  | some bound => toString bound
  | none => ""

/-- The value of `range`. -/
def ByteRange.value (range : ByteRange) : List UInt8 :=
  textBytes ("bytes=" ++ (boundText range.bounds.1 ++ "-" ++ boundText range.bounds.2))

/-- A range that lies within a number of bytes. -/
def ByteRange.Inside (length : Nat) : ByteRange → Prop
  | between first last => first ≤ last ∧ last < length
  | onward first => first < length
  | suffix count => 0 < count ∧ count ≤ length

/-- The first position of a range. -/
def ByteRange.start (length : Nat) : ByteRange → Nat
  | between first _ => first
  | onward first => first
  | suffix count => length - count

/-- The last position of a range. -/
def ByteRange.stop (length : Nat) : ByteRange → Nat
  | between _ last => last
  | onward _ => length - 1
  | suffix _ => length - 1

/-- The bytes of a range. -/
def ByteRange.cut (range : ByteRange) (content : List UInt8) : List UInt8 :=
  (content.take (range.stop content.length + 1)).drop (range.start content.length)

/-- The value of `content-range` for a range of a content. -/
def ByteRange.place (range : ByteRange) (length : Nat) : List UInt8 :=
  textBytes ("bytes " ++ toString (range.start length) ++ "-" ++ toString (range.stop length) ++ "/"
    ++ toString length)

/-- A request without conditions on a date. -/
structure Undated (request : Headers) : Prop where
  modified : request["if-modified-since"]? = none
  unmodified : request["if-unmodified-since"]? = none

/-- What `ServeFile` answers for a regular file: all of it, or the range of it that was asked for,
and where that lies.
-/
structure Serves (serve : ServeFile) : Prop where
  whole
    : ∀ {content : List UInt8} {request : Headers},
        Undated request
        → request["range"]? = none
        → ∃ response,
            serve (some content) request = .ok response
            ∧ response.status = 200
            ∧ response.body = content
  part
    : ∀ {content : List UInt8} {request : Headers} {range : ByteRange},
        Undated request
        → request["range"]? = some [range.value]
        → range.Inside content.length
        → ∃ response,
            serve (some content) request = .ok response
            ∧ response.status = 206
            ∧ response.body = range.cut content
            ∧ response.headers["content-range"]? = some [range.place content.length]

/-- An answer of a status, with a body, under the tag of a file. -/
def Tagged (hash : String) (status : Nat) (body : List UInt8) (result : Except Failure Response)
    : Prop :=
  ∃ response,
    result = .ok response
    ∧ response.status = status
    ∧ response.body = body
    ∧ response.headers["etag"]? = some [textBytes (quote hash)]

/-- The answer to a request for a range of a content, under the tag of a file. -/
def Ranged (hash : String) (range : ByteRange) (content : List UInt8)
    (result : Except Failure Response)
    : Prop :=
  ∃ response,
    result = .ok response
    ∧ response.status = 206
    ∧ response.body = range.cut content
    ∧ response.headers["etag"]? = some [textBytes (quote hash)]
    ∧ response.headers["content-range"]? = some [range.place content.length]

/-- The texts of a row can be sent. -/
structure FileRow.Sendable (row : FileRow) : Prop where
  hash : headerValue (quote row.hash) = .ok (textBytes (quote row.hash))
  mime : headerValue row.mime = .ok (textBytes row.mime)

/-- A text of printable letters can be sent. -/
theorem headerValue_printable {text : String}
    (printable : ∀ letter ∈ text.toList, 32 ≤ letter.toNat ∧ letter.toNat < 127)
    : headerValue text = .ok (textBytes text) := by
  have passes :
      (textBytes text).all (fun byte => byte = 9 || (32 ≤ byte && byte ≠ 127)) = true := by
    rw [List.all_eq_true]
    intro byte member
    rw [← String.ofList_toList (s := text), textBytes_ofList, List.mem_flatMap] at member
    obtain ⟨letter, among, here⟩ := member
    obtain ⟨least, most⟩ := printable letter among
    rw [utf8EncodeChar_ascii (by omega), List.mem_singleton] at here
    have value : byte.toNat = letter.toNat := by
      rw [here, Nat.toUInt8, UInt8.toNat_ofNat', Nat.mod_eq_of_lt (by omega)]
    have above : (32 : UInt8) ≤ byte := by
      rw [UInt8.le_iff_toNat_le, value]
      exact least
    have other : byte ≠ 127 := by
      rintro rfl
      exact absurd value (by have : (127 : UInt8).toNat = 127 := rfl; omega)
    simp [above, other]
  rw [headerValue, ensure_passes passes]
  rfl

/-- A success of `ServeFile` is sent under the tag of the row. -/
theorem answer_served {serve : ServeFile} {row : FileRow} {opened : Option (List UInt8)}
    {request : Headers} {response : Response} (sendable : row.Sendable)
    (fresh : ((headerText request "if-none-match").any fun value =>
      listsTag value (quote row.hash)) = false)
    (served : serve opened
      (if (headerText request "if-range").any fun value => value ≠ quote row.hash then
        request.erase "range"
      else request) = .ok response)
    (success : 200 ≤ response.status ∧ response.status < 300)
    : ∃ sent,
        answer serve row opened request = .ok sent
        ∧ sent.status = response.status
        ∧ sent.body = response.body
        ∧ sent.headers["etag"]? = some [textBytes (quote row.hash)]
        ∧ sent.headers["content-range"]? = response.headers["content-range"]? := by
  simp only [answer, fresh, Bool.false_eq_true, if_false, served, ok_bind, success,
    and_self, if_true, sendable.hash, sendable.mime]
  refine ⟨_, rfl, rfl, rfl, ?_, ?_⟩
  · simp only [Response.insert]
    rw [Table.insert_other _ _ (by decide), Table.insert_other _ _ (by decide),
      Table.insert_other _ _ (by decide), Table.insert_self]
  · simp only [Response.insert]
    rw [Table.insert_other _ _ (by decide), Table.insert_other _ _ (by decide),
      Table.insert_other _ _ (by decide), Table.insert_other _ _ (by decide)]

/-- A tag that is listed is only confirmed. -/
theorem answer_confirmed {serve : ServeFile} {row : FileRow} {opened : Option (List UInt8)}
    {request : Headers} (sendable : row.Sendable)
    (listed : ((headerText request "if-none-match").any fun value =>
      listsTag value (quote row.hash)) = true)
    : Tagged row.hash 304 [] (answer serve row opened request) := by
  simp only [Tagged, answer, listed, if_true, notModified, sendable.hash]
  refine ⟨_, rfl, rfl, rfl, ?_⟩
  rw [Table.insert_other _ _ (by decide), Table.insert_self]

/-- All of a file is sent to a request without a range, or for a range of something else. -/
theorem answer_whole {serve : ServeFile} (serves : Serves serve) {row : FileRow}
    {content : List UInt8} {request : Headers} (sendable : row.Sendable)
    (undated : Undated request)
    (fresh : ((headerText request "if-none-match").any fun value =>
      listsTag value (quote row.hash)) = false)
    (whole : request["range"]? = none
      ∨ ∃ tag, headerText request "if-range" = some tag ∧ tag ≠ quote row.hash)
    : Tagged row.hash 200 content (answer serve row (some content) request) := by
  have undated' : Undated (request.erase "range") := by
    constructor
    · rw [Std.TreeMap.getElem?_erase, if_neg (by decide), undated.modified]
    · rw [Std.TreeMap.getElem?_erase, if_neg (by decide), undated.unmodified]
  have erased : (request.erase "range")["range"]? = none := by
    rw [Std.TreeMap.getElem?_erase, if_pos (by decide)]
  obtain ⟨response, served, success, rfl⟩ : ∃ response,
      serve (some content)
        (if (headerText request "if-range").any fun value => value ≠ quote row.hash then
          request.erase "range"
        else request) = .ok response
      ∧ response.status = 200 ∧ response.body = content := by
    split
    · exact serves.whole undated' erased
    · rename_i same
      rcases whole with plain | ⟨tag, given, other⟩
      · exact serves.whole undated plain
      · exact absurd (by simp [given, other]) same
  obtain ⟨sent, answered, status, body, tag, -⟩ :=
    answer_served sendable fresh served (by omega)
  exact ⟨sent, answered, status.trans success, body, tag⟩

/-- A range of a file is sent to a request for it, unless it is for a range of something else. -/
theorem answer_part {serve : ServeFile} (serves : Serves serve) {row : FileRow}
    {content : List UInt8} {request : Headers} {range : ByteRange} (sendable : row.Sendable)
    (undated : Undated request)
    (fresh : ((headerText request "if-none-match").any fun value =>
      listsTag value (quote row.hash)) = false)
    (ranged : request["range"]? = some [range.value]) (inside : range.Inside content.length)
    (same : ∀ tag, headerText request "if-range" = some tag → tag = quote row.hash)
    : Ranged row.hash range content (answer serve row (some content) request) := by
  obtain ⟨response, served, success, body, place⟩ := serves.part undated ranged inside
  have own : ¬((headerText request "if-range").any fun value => value ≠ quote row.hash) = true := by
    rw [Option.any_eq_true]
    rintro ⟨tag, given, other⟩
    exact absurd (same tag given) (of_decide_eq_true other)
  have kept : serve (some content)
      (if (headerText request "if-range").any fun value => value ≠ quote row.hash then
        request.erase "range"
      else request) = .ok response := by
    rwa [if_neg own]
  obtain ⟨sent, answered, status, body', tag, place'⟩ :=
    answer_served sendable fresh kept (by omega)
  exact ⟨sent, answered, status.trans success, body'.trans body, tag, place'.trans place⟩

/-- What the clients of a published file get, in every state from a given one on. -/
structure Downloads (settings : Settings) (serve : ServeFile) (state : State)
    (published : PublishedFile) (content : List UInt8)
    : Prop where
  length : content.length = published.artifact.bytes
  whole
    : ∀ {request : Headers} {result : Except Failure Response},
        Responds settings serve state published.id request result
        → Undated request
        → headerText request "if-none-match" = none
        → request["range"]? = none
        → Tagged published.artifact.sha256 200 content result
  /-- any range of it, also when the client insists on the tag that it came with -/
  ranged
    : ∀ {request : Headers} {result : Except Failure Response} {range : ByteRange},
        Responds settings serve state published.id request result
        → Undated request
        → headerText request "if-none-match" = none
        → request["range"]? = some [range.value]
        → range.Inside content.length
        → (∀ tag,
            headerText request "if-range" = some tag → tag = quote published.artifact.sha256)
        → Ranged published.artifact.sha256 range content result
  /-- all of it for a download of something else -/
  restarted
    : ∀ {request : Headers} {result : Except Failure Response} {tag : String},
        Responds settings serve state published.id request result
        → Undated request
        → headerText request "if-none-match" = none
        → headerText request "if-range" = some tag
        → tag ≠ quote published.artifact.sha256
        → Tagged published.artifact.sha256 200 content result
  /-- nothing but a confirmation for a client that has it already -/
  confirmed
    : ∀ {request : Headers} {result : Except Failure Response} {value : String}
        {tags : List EntityTag},
        Responds settings serve state published.id request result
        → headerText request "if-none-match" = some value
        → Lists value tags
        → (∃ tag ∈ tags, tag.value = published.artifact.sha256)
        → Tagged published.artifact.sha256 304 [] result
  /-- all of it for a client that has other things only -/
  refreshed
    : ∀ {request : Headers} {result : Except Failure Response} {value : String}
        {tags : List EntityTag},
        Responds settings serve state published.id request result
        → Undated request
        → request["range"]? = none
        → headerText request "if-none-match" = some value
        → Lists value tags
        → (∀ tag ∈ tags, tag.value ≠ published.artifact.sha256)
        → Tagged published.artifact.sha256 200 content result

/-- A content that a file is answered from can be downloaded, in one go or in pieces. -/
theorem downloads_of_answered {serve : ServeFile} (serves : Serves serve) {state : State}
    {id : String} {published : PublishedFile} {content : List UInt8}
    (length : content.length = published.artifact.bytes)
    (sendable : (fileRow id published).Sendable)
    (answered
      : ∀ {request : Headers} {result : Except Failure Response},
          Responds settings serve state published.id request result
          → result = answer serve (fileRow id published) (some content) request)
    : Downloads settings serve state published content := by
  constructor
  case length => exact length
  case whole =>
    intro request result responds undated fresh plain
    rw [answered responds]
    exact answer_whole serves sendable undated (by rw [fresh]; rfl) (.inl plain)
  case ranged =>
    intro request result range responds undated fresh ranged inside same
    rw [answered responds]
    exact answer_part serves sendable undated (by rw [fresh]; rfl) ranged inside same
  case restarted =>
    intro request result tag responds undated fresh given other
    rw [answered responds]
    exact answer_whole serves sendable undated (by rw [fresh]; rfl) (.inr ⟨tag, given, other⟩)
  case confirmed =>
    intro request result value tags responds given lists listed
    rw [answered responds]
    refine answer_confirmed sendable ?_
    rw [given]
    exact (listsTag_iff lists _).mpr listed
  case refreshed =>
    intro request result value tags responds undated plain given lists others
    rw [answered responds]
    refine answer_whole serves sendable undated ?_ (.inl plain)
    rw [given, Option.any_some, ← Bool.not_eq_true, fileRow, listsTag_iff lists]
    rintro ⟨tag, listed, same⟩
    exact others tag listed same

/-- The letters of a number, if there is one. -/
theorem boundText_letters (bound : Option Nat)
    : (boundText bound).toList = (bound.map (Nat.toDigits 10)).getD [] := by
  cases bound with
  | none => rfl
  | some bound => simp [boundText, Nat.repr]

/-- The number before or behind the hyphen has no hyphen. -/
theorem boundText_plain (bound : Option Nat) : '-' ∉ (boundText bound).toList := by
  rw [boundText_letters]
  cases bound with
  | none => exact List.not_mem_nil
  | some bound =>
      intro member
      exact absurd (Nat.isDigit_of_mem_toDigits (by decide) (by decide) member) (by decide)

/-- A number is determined by its text. -/
theorem boundText_injective : Function.Injective boundText := by
  intro left right same
  have letters := congrArg String.toList same
  rw [boundText_letters, boundText_letters] at letters
  cases left with
  | none =>
      cases right with
      | none => rfl
      | some right => exact absurd letters.symm Nat.toDigits_ne_nil
  | some left =>
      cases right with
      | none => exact absurd letters Nat.toDigits_ne_nil
      | some right => exact congrArg some (digits_injective letters)

/-- A range is determined by its value. -/
theorem ByteRange.value_injective : Function.Injective ByteRange.value := by
  intro left right same
  have texts := congrArg String.toList (textBytes_injective same)
  simp only [String.toList_append, List.append_assoc] at texts
  obtain ⟨first, last⟩ := separated_inj (boundText_plain _) (boundText_plain _)
    (List.append_cancel_left texts)
  have first := boundText_injective (String.toList_inj.mp first)
  have last := boundText_injective (String.toList_inj.mp last)
  cases left <;> cases right <;> simp_all [ByteRange.bounds]

/-- The ranges that lie within a number of bytes. -/
def ranges (length : Nat) : List ByteRange :=
  (List.range length).flatMap (fun first =>
    .onward first :: .suffix (first + 1)
      :: ((List.range length).filter fun last => first ≤ last).map fun last => .between first last)

/-- They are all there. -/
theorem mem_ranges {length : Nat} {range : ByteRange} (inside : range.Inside length)
    : range ∈ ranges length := by
  rw [ranges, List.mem_flatMap]
  cases range with
  | between first last =>
      obtain ⟨ordered, below⟩ := inside
      refine ⟨first, List.mem_range.mpr (by omega), ?_⟩
      simp [ordered, below]
  | onward first => exact ⟨first, List.mem_range.mpr inside, List.mem_cons_self⟩
  | suffix count =>
      obtain ⟨some, within⟩ := inside
      refine ⟨count - 1, List.mem_range.mpr (by omega), ?_⟩
      rw [Nat.sub_add_cancel some]
      exact List.mem_cons_of_mem _ List.mem_cons_self

/-- A server of whole files and of ranges of files. -/
def plainServe : ServeFile := fun opened request =>
  match opened with
  | none => .ok { status := 404, headers := ∅, body := [] }
  | some content =>
      match request["range"]? with
      | none => .ok { status := 200, headers := ∅, body := content }
      | some values =>
          match (ranges content.length).find? fun range => values = [range.value] with
          | some range =>
              .ok
                {
                  status := 206
                  headers := (∅ : Headers).insert "content-range" [range.place content.length]
                  body := range.cut content
                }
          | none => .ok { status := 416, headers := ∅, body := [] }

/-- The plain server serves. -/
theorem plainServe_serves : Serves plainServe where
  whole := fun {content request} _ plain =>
    ⟨{ status := 200, headers := ∅, body := content }, by rw [plainServe, plain], rfl, rfl⟩
  part := fun {content request range} _ ranged inside => by
    let fits : ByteRange → Bool := fun other => [range.value] = [other.value]
    cases found : (ranges content.length).find? fits with
    | none =>
        rw [List.find?_eq_none] at found
        exact absurd (decide_eq_true rfl) (found range (mem_ranges inside))
    | some other =>
        have fitting : fits other = true := List.find?_some found
        have same : [range.value] = [other.value] := of_decide_eq_true fitting
        obtain rfl := ByteRange.value_injective (List.singleton_inj.mp same)
        exact ⟨_, by rw [plainServe, ranged]; simp only; rw [found], rfl, rfl,
          Table.insert_self _ _ _⟩

/-- The settings of a service that publishes a file of two bytes. -/
def pairSettings : Settings :=
  { outputBytes := 9, digest := fun text => text, encode := fun _ => [] }

/-- The file. -/
def pairFile : Artifact := ⟨"00000.bin", "key", "mime", 2, "hash", none, none, none⟩

/-- A request for it was answered. -/
theorem pair_reported
    : ∃ state manifest,
        (system pairSettings).Reachable state
        ∧ { key := "key", exportId := some "ab", error := none } ∈ state.results
        ∧ state.store.index.exports["ab"]? = some manifest
        ∧ manifest.files = [{ artifact := pairFile, id := "ab:00000.bin" }] := by
  let sys := system pairSettings
  let output : Directory :=
    {
      entries := (∅ : Std.TreeMap String Entry).insert "00000.bin" (.file [1, 2] false)
      synced := false
    }
  let result : WorkerResult := { files := [pairFile], error := none, empty := false }
  have named : result.Named := by
    intro artifact member
    obtain rfl := List.mem_singleton.mp member
    exact ⟨0, "bin", by decide⟩
  have start : sys.Execution [] .fresh := ⟨_, rfl, .here⟩
  have boot := start.next (.opening (.boot rfl))
  have opened := boot.next (.opening (.opened rfl))
  have request := opened.next (.request rfl (.request ⟨"ab", "snapshot", "key"⟩))
  have miss := request.next (.request rfl (@RequestStep.miss _ 0 _ rfl rfl (by decide)))
  have spawn := miss.next (.request rfl (@RequestStep.spawn _ 0 _ rfl rfl))
  have enter := spawn.next (.producer rfl (@ProducerStep.enterMap _ _ 0 _ rfl rfl))
  have acquire := enter.next (.producer rfl (@ProducerStep.acquire _ _ 0 _ 0 rfl rfl rfl (by
    intro producer member _
    obtain rfl := List.mem_singleton.mp member
    rfl)))
  have absent := acquire.next (.producer rfl (@ProducerStep.work _ _ 0 _ _ _ _ rfl
    (.absent (by decide))))
  have works := absent.next (.producer rfl (@ProducerStep.work _ _ 0 _ _ _ _ rfl .startWorker))
  have finish := works.next (.producer rfl (@ProducerStep.work _ _ 0 _ _ _ _ rfl
    (@WorkStep.finishWorker _ _ _ output _ named)))
  have accept := finish.next (.producer rfl (@ProducerStep.work _ _ 0 _ _ _ _ rfl (.accept rfl)))
  have rename := accept.next (.producer rfl (@ProducerStep.work _ _ 0 _ _ _ _ rfl
    (.rename (fun held => by cases held))))
  have sync := rename.next (.producer rfl (@ProducerStep.work _ _ 0 _ _ _ _ rfl .sync))
  have commit := sync.next (.producer rfl (@ProducerStep.work _ _ 0 _ _ _ _ rfl (.commit rfl)))
  have unlock := commit.next (.producer rfl (@ProducerStep.unlock _ _ 0 _ _ rfl rfl))
  have drop := unlock.next (.producer rfl (@ProducerStep.drop _ _ 0 _ _ rfl rfl))
  have receive := drop.next (.request rfl (@RequestStep.receive _ 0 _ 0 _ _ rfl rfl rfl rfl))
  let manifest : Manifest :=
    {
      id := "ab"
      snapshot := "snapshot"
      key := "key"
      profile := workerProfile
      files := [{ artifact := pairFile, id := "ab:00000.bin" }]
      empty := false
    }
  exact ⟨_, manifest, receive.reachable, List.mem_singleton.mpr rfl, by decide, rfl⟩

/-- Its row can be sent. -/
theorem pair_sendable
    : (fileRow "ab" { artifact := pairFile, id := "ab:00000.bin" }).Sendable := by
  constructor <;> rfl

/-- Whatever is answered but an error is a file of a committed export, and all of it is there. -/
theorem found_files_are_published {serve : ServeFile} {state : State}
    (reached : (system settings).Reachable state) {id : String} {request : Headers}
    {response : Response} (responds : Responds settings serve state id request (.ok response))
    : ∃ (trace : List Label) (later : State) (manifest : Manifest) (published : PublishedFile)
        (content : List UInt8),
        (system settings).Path state trace later
        ∧ later.store.index.exports[manifest.id]? = some manifest
        ∧ published ∈ manifest.files
        ∧ published.id = id
        ∧ content.length = published.artifact.bytes
        ∧ answer serve (fileRow manifest.id published) (some content) request = .ok response := by
  obtain ⟨_, _, _, first, second, third, before, between, behind, answered⟩ := responds
  have there := reached.append before
  have asked := answered.symm
  simp only [file, bind_ok, context_ok] at asked
  obtain ⟨row, found, -⟩ := asked
  have filed := filed_of_reachable there
  obtain ⟨manifest, published, listed, member, same, -⟩ := filed.owned found
  rw [← filed.named listed] at listed
  obtain ⟨content, length, served⟩ := published_answered serve there listed member
  have whole := served ⟨_, _, _, first, second, third, .here, between, behind, same ▸ answered⟩
  exact ⟨_, first, manifest, published, content, before, listed, member, same, length,
    whole.symm⟩

/-- The file of two bytes is found in the export that it belongs to. -/
theorem pair_found
    : ∃ (state later : State) (trace : List Label) (manifest : Manifest)
        (published : PublishedFile),
        (system pairSettings).Path state trace later
        ∧ later.store.index.exports[manifest.id]? = some manifest
        ∧ published ∈ manifest.files
        ∧ published.id = "ab:00000.bin" := by
  obtain ⟨state, manifest, reached, -, row, files⟩ := pair_reported
  have member : { artifact := pairFile, id := "ab:00000.bin" } ∈ manifest.files := by
    rw [files]
    exact List.mem_singleton.mpr rfl
  obtain ⟨content, -, answered⟩ := published_answered plainServe reached row member
  have undated : Undated ∅ := ⟨rfl, rfl⟩
  obtain ⟨response, served, -⟩ := @answer_whole plainServe plainServe_serves _ content _
    pair_sendable undated rfl (.inl rfl)
  have responds : Responds pairSettings plainServe state "ab:00000.bin" ∅ (.ok response) :=
    ⟨[], [], [], state, state, state, .here, .here, .here,
      served.symm.trans (answered ⟨[], [], [], state, state, state, .here, .here, .here, rfl⟩).symm⟩
  obtain ⟨trace, later, found, published, -, path, listed, among, same, -⟩ :=
    found_files_are_published reached responds
  exact ⟨state, later, trace, found, published, path, listed, among, same⟩

end MoenotesAssets.Publication
