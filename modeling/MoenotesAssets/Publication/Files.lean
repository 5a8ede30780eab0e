import MoenotesAssets.Publication.Protocol
import MoenotesAssets.Snapshots.Record

/-! `GET /v1/files/{id}`: the rows of `files`, what the handler makes of a request, and what a
published file is answered with, from its commit on.
-/

namespace MoenotesAssets.Publication

open Foundation Foundation.Bytes MoenotesAssets.Export MoenotesAssets.Service

-----------------------------------------------------------------------------------------
-- The rows of files
-----------------------------------------------------------------------------------------

/-- The rows of `files` are those of the files of the rows of `exports`. -/
structure Index.Filed (index : Index) : Prop where
  named
    : ∀ {id : String} {manifest : Manifest},
        index.exports[id]? = some manifest → manifest.id = id
  listed
    : ∀ {id : String} {manifest : Manifest} {file : PublishedFile},
        index.exports[id]? = some manifest
        → file ∈ manifest.files
        → index.files[file.id]? = some (fileRow id file)
  owned
    : ∀ {id : String} {row : FileRow},
        index.files[id]? = some row
        → ∃ manifest file,
            index.exports[row.exportId]? = some manifest
            ∧ file ∈ manifest.files
            ∧ file.id = id
            ∧ row = fileRow row.exportId file

/-- The inserts of one transaction keep the rows before them, by induction on the files. -/
theorem insertFiles_keeps {exportId : String} {table after : Std.TreeMap String FileRow}
    {files : List PublishedFile} {id : String} {row : FileRow}
    (inserted : insertFiles exportId table files = some after) (held : table[id]? = some row)
    : after[id]? = some row := by
  induction files generalizing table with
  | nil =>
      obtain rfl := Option.some.inj inserted
      exact held
  | cons file rest ih =>
      simp only [insertFiles, List.foldlM_cons, Option.bind_eq_bind,
        Option.bind_eq_some_iff] at inserted
      obtain ⟨middle, first, later⟩ := inserted
      exact ih later (Table.insertNew_keeps first held)

/-- Every file of a transaction has its row, by induction on the files. -/
theorem insertFiles_listed {exportId : String} {table after : Std.TreeMap String FileRow}
    {files : List PublishedFile} (inserted : insertFiles exportId table files = some after)
    {file : PublishedFile} (member : file ∈ files)
    : after[file.id]? = some (fileRow exportId file) := by
  induction files generalizing table with
  | nil => cases member
  | cons head rest ih =>
      simp only [insertFiles, List.foldlM_cons, Option.bind_eq_bind,
        Option.bind_eq_some_iff] at inserted
      obtain ⟨middle, first, later⟩ := inserted
      rcases List.mem_cons.mp member with rfl | among
      · exact insertFiles_keeps later (Table.insertNew_self first)
      · exact ih later among

/-- A row after a transaction is that of one of its files or was there before, by induction on
the files.
-/
theorem insertFiles_owned {exportId : String} {table after : Std.TreeMap String FileRow}
    {files : List PublishedFile} {id : String} {row : FileRow}
    (inserted : insertFiles exportId table files = some after) (held : after[id]? = some row)
    : (∃ file ∈ files, file.id = id ∧ row = fileRow exportId file) ∨ table[id]? = some row := by
  induction files generalizing table with
  | nil =>
      obtain rfl := Option.some.inj inserted
      exact Or.inr held
  | cons file rest ih =>
      simp only [insertFiles, List.foldlM_cons, Option.bind_eq_bind,
        Option.bind_eq_some_iff] at inserted
      obtain ⟨middle, first, later⟩ := inserted
      rcases ih later with ⟨other, among, owned⟩ | old
      · exact Or.inl ⟨other, List.mem_cons_of_mem file among, owned⟩
      · rcases Table.insertNew_cases first old with ⟨same, same'⟩ | older
        · exact Or.inl ⟨file, List.mem_cons_self, same.symm, same'⟩
        · exact Or.inr older

/-- A publication files what it publishes. -/
theorem Index.Filed.publish {index after : Index} {manifest : Manifest} (filed : index.Filed)
    (published : index.publish manifest = some after)
    : after.Filed := by
  simp only [Index.publish, Option.bind_eq_bind, Option.bind_eq_some_iff, Option.pure_def,
    Option.some.injEq] at published
  obtain ⟨exports, inserted, files, rows, rfl⟩ := published
  constructor
  case named =>
    intro id other held
    rcases Table.insertNew_cases inserted held with ⟨rfl, rfl⟩ | old
    · rfl
    · exact filed.named old
  case listed =>
    intro id other file held member
    rcases Table.insertNew_cases inserted held with ⟨rfl, rfl⟩ | old
    · exact insertFiles_listed rows member
    · exact insertFiles_keeps rows (filed.listed old member)
  case owned =>
    intro id row held
    rcases insertFiles_owned rows held with ⟨file, member, same, rfl⟩ | old
    · exact ⟨manifest, file, Table.insertNew_self inserted, member, same, rfl⟩
    · obtain ⟨other, file, listed, rest⟩ := filed.owned old
      exact ⟨other, file, Table.insertNew_keeps inserted listed, rest⟩

variable {settings : Settings}

/-- A step of an export changes the database by its commit only. -/
theorem WorkStep.index_cases {job : Job} {phase phase' : Phase} {store store' : Store}
    {label : WorkLabel} (moved : WorkStep settings job phase store label phase' store')
    : store'.index = store.index
      ∨ ∃ manifest, store.index.publish manifest = some store'.index := by
  cases moved with
  | commit inserted => exact Or.inr ⟨_, inserted⟩
  | _ => exact Or.inl rfl

/-- The database is only changed by a publication. -/
theorem Step.index_cases {state after : State} {label : Label}
    (taken : Step settings state label after)
    : after.store.index = state.store.index
      ∨ ∃ manifest, state.store.index.publish manifest = some after.store.index := by
  cases taken with
  | opening taken => cases taken <;> exact Or.inl rfl
  | request serves taken => cases taken <;> exact Or.inl rfl
  | producer serves taken =>
      cases taken with
      | work found moved => exact moved.index_cases
      | enterMap =>
          obtain ⟨gate, locks, gates, same, -⟩ := State.enterMap_spec state _ _
          exact Or.inl (by rw [same])
      | _ => exact Or.inl rfl
  | kill | flush | crash => exact Or.inl rfl

/-- The rows of `files` are those of the published files, in every reachable state. -/
theorem filed_of_reachable {state : State} (reached : (system settings).Reachable state)
    : state.store.index.Filed := by
  obtain ⟨trace, start, rfl, path⟩ := reached
  refine path.preserves (P := fun state => state.store.index.Filed) (fun taken filed => ?_) ?_
  · rcases Step.index_cases taken with same | ⟨manifest, published⟩
    · rwa [same]
    · exact filed.publish published
  · constructor <;> simp [State.fresh]

-----------------------------------------------------------------------------------------
-- The handler
-----------------------------------------------------------------------------------------

/-- `HeaderMap`: the values of each name, the first of which `get` finds. -/
abbrev Headers := Std.TreeMap String (List (List UInt8))

/-- `HeaderMap::get` and `HeaderValue::to_str` -/
def headerText (headers : Headers) (name : String) : Option String := do
  let value ← (← headers[name]?).head?
  if value.all fun byte => byte = 9 || (32 ≤ byte && byte < 127) then some (asciiText value)
  else none

/-- `HeaderValue::from_str` -/
def headerValue (text : String) : Except Failure (List UInt8) := do
  ensure ((textBytes text).all fun byte => byte = 9 || (32 ≤ byte && byte ≠ 127))
    (.error "failed to parse header value")
  return textBytes text

structure Response where
  status : Nat
  headers : Headers
  body : List UInt8

/-- `HeaderMap::insert` on a response. -/
def Response.insert (name : String) (value : List UInt8) (response : Response) : Response :=
  { response with headers := response.headers.insert name [value] }

/-- `ServeFile`: what it answers to the headers of a request for the content of a regular file,
or for a path without one.
-/
abbrev ServeFile := Option (List UInt8) → Headers → Except Failure Response

/-- The value of `cache-control` for what never changes. -/
def immutableCache : String := "public, max-age=31536000, immutable"

/-- `format!("\"{hash}\"")` -/
def quote (hash : String) : String := "\"" ++ hash ++ "\""

/-- `strip_prefix("W/")`, or all of the text. -/
def stripWeak (text : String) : String :=
  if "W/".toList.isPrefixOf text.toList then String.ofList (text.toList.drop 2) else text

/-- A piece of `if-none-match` between commas stands for a tag. -/
def standsFor (tag : String) (piece : List Char) : Bool :=
  let text := Snapshots.trim (String.ofList piece)
  stripWeak text = tag || text = "*"

/-- The value of `if-none-match` lists a tag. -/
def listsTag (value tag : String) : Bool := (value.toList.splitOn ',').any (standsFor tag)

/-- The answer without a body; a tag that is no header value makes it an internal error. -/
def notModified (tag : String) : Response :=
  match headerValue tag with
  | .ok value =>
      {
        status := 304
        headers :=
          ((∅ : Headers).insert "etag" [value]).insert "cache-control" [textBytes immutableCache]
        body := []
      }
  | .error _ =>
      {
        status := 500
        headers := (∅ : Headers).insert "content-type" [textBytes "text/plain; charset=utf-8"]
        body := textBytes "failed to parse header value"
      }

/-- `file` behind its look at the database and at the path. -/
def answer (serve : ServeFile) (row : FileRow) (opened : Option (List UInt8)) (request : Headers)
    : Except Failure Response := do
  let tag := quote row.hash
  if (headerText request "if-none-match").any fun value => listsTag value tag then
    return notModified tag
  else
    let response ← serve opened
      (if (headerText request "if-range").any fun value => value ≠ tag then
        request.erase "range"
      else request)
    if 200 ≤ response.status ∧ response.status < 300 then
      let tag ← headerValue tag
      let mime ← headerValue row.mime
      return (((response.insert "etag" tag).insert "content-type" mime).insert "cache-control"
        (textBytes immutableCache)).insert "x-content-type-options" (textBytes "nosniff")
    else
      return response.insert "cache-control" (textBytes "no-store")

/-- The content of the regular file at the path of a row. -/
def fileContent (disk : Std.TreeMap String Directory) (row : FileRow) : Option (List UInt8) :=
  match disk[row.exportId]?.bind fun directory => directory.entries[row.name]? with
  | some (.file content _) => some content
  | _ => none

/-- `file`: the query, `symlink_metadata` and `ServeFile` each see their own moment. -/
def file (serve : ServeFile) (files : Std.TreeMap String FileRow)
    (checked opened : Std.TreeMap String Directory) (id : String) (request : Headers)
    : Except Failure Response := do
  let row ← context files[id]? (.error "file not found")
  ensure (fileContent checked row).isSome (.error "file not found")
  answer serve row (fileContent opened row) request

-----------------------------------------------------------------------------------------
-- Published files
-----------------------------------------------------------------------------------------

/-- A published file has its row and its content in every later state. -/
theorem content_stays {state : State} (reached : (system settings).Reachable state) {id : String}
    {manifest : Manifest} {published : PublishedFile}
    (row : state.store.index.exports[id]? = some manifest) (member : published ∈ manifest.files)
    : ∃ content,
        content.length = published.artifact.bytes
        ∧ ∀ {trace : List Label} {after : State},
            (system settings).Path state trace after
            → after.store.index.files[published.id]? = some (fileRow id published)
              ∧ fileContent after.store.disk (fileRow id published) = some content := by
  have consistent := consistent_of_reachable reached
  obtain ⟨⟨-, directory, held, holds⟩, -⟩ := consistent.stored.published row
  obtain ⟨content, stable, length⟩ := holds published member
  refine ⟨content, length, fun {trace after} path => ?_⟩
  have committed := Committed.path consistent row held path
  have filed := filed_of_reachable (reached.append path)
  obtain ⟨later, there, keeps⟩ := committed.kept
  refine ⟨filed.listed committed.row member, ?_⟩
  rw [fileContent, fileRow, there, Option.bind_some, (keeps stable).2]

/-- A result of the handler whose three looks at the stores come after a state. -/
def Responds (settings : Settings) (serve : ServeFile) (state : State) (id : String)
    (request : Headers) (result : Except Failure Response)
    : Prop :=
  ∃ before between behind first second third,
    (system settings).Path state before first
    ∧ (system settings).Path first between second
    ∧ (system settings).Path second behind third
    ∧ result
      = file serve first.store.index.files second.store.disk third.store.disk id request

/-- A file that stays is answered from its content, whatever happens before the query and between
it, the check of the path and the opening of the file.
-/
theorem stays_answered (serve : ServeFile) {state : State} {id : String}
    {published : PublishedFile} {content : List UInt8}
    (stays
      : ∀ {trace : List Label} {after : State},
          (system settings).Path state trace after
          → after.store.index.files[published.id]? = some (fileRow id published)
            ∧ fileContent after.store.disk (fileRow id published) = some content)
    {request : Headers} {result : Except Failure Response}
    (responds : Responds settings serve state published.id request result)
    : result = answer serve (fileRow id published) (some content) request := by
  obtain ⟨_, _, _, first, second, third, before, between, behind, rfl⟩ := responds
  have found := (stays before).1
  have checked := (stays (before.append between)).2
  have opened := (stays ((before.append between).append behind)).2
  simp only [file, found, checked, opened, context, ensure, Option.isSome_some, ok_bind,
    if_true]

/-- A published file is answered from its recorded content for good. -/
theorem published_answered (serve : ServeFile) {state : State}
    (reached : (system settings).Reachable state) {id : String} {manifest : Manifest}
    {published : PublishedFile} (row : state.store.index.exports[id]? = some manifest)
    (member : published ∈ manifest.files)
    : ∃ content,
        content.length = published.artifact.bytes
        ∧ ∀ {request : Headers} {result : Except Failure Response},
            Responds settings serve state published.id request result
            → result = answer serve (fileRow id published) (some content) request := by
  obtain ⟨content, length, stays⟩ := content_stays reached row member
  exact ⟨content, length, stays_answered serve stays⟩

end MoenotesAssets.Publication
