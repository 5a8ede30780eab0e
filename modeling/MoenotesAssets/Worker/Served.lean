import MoenotesAssets.Publication.Downloads
import MoenotesAssets.Publication.Provenance
import MoenotesAssets.Worker.Playback

/-! From the runs of the worker to the clients of `GET /v1/files/{id}`: every file that is served
was converted by a run that succeeded, under its digest, and the sounds, videos and masks among
them play.
-/

namespace MoenotesAssets.Worker.Run

open Foundation Foundation.Bytes Foundation.Machine Foundation.Program
open Export (Artifact Manifest PublishedFile)
open ObjectTree (digest)
open Publication (Directory Headers ServeFile State answer)

-----------------------------------------------------------------------------------------
-- Deliveries
-----------------------------------------------------------------------------------------

/-- What a process of the worker leaves: the result of its run, and the files of the run in its
output directory.
-/
def Delivered (sha256 : List UInt8 → List UInt8) (admits : Tools → Job → Prop)
    : Publication.Supply :=
  fun _ output result =>
    ∃ tools job,
      admits tools job
      ∧ workerResult (run sha256 tools job Stage.empty).result = some result
      ∧ ∀ {name : String} {content : List UInt8},
          (run sha256 tools job Stage.empty).last.directory[name]? = some content
          → output.content name = some content

/-- A directory of a run has its files. -/
theorem Stage.toDirectory_content {stage : Stage} {name : String} {content : List UInt8}
    (held : stage.directory[name]? = some content)
    : stage.toDirectory.content name = some content := by
  rw [Directory.content, Stage.toDirectory, Std.TreeMap.getElem?_map, held]
  rfl

section Served

variable {sha256 : List UInt8 → List UInt8} {admits : Tools → Job → Prop}
  {settings : Publication.Settings}

/-- A run that leaves a result without an error succeeded with its files. -/
theorem workerResult_ok {ended : Except Failure (List Artifact)}
    {result : Publication.WorkerResult} (left : workerResult ended = some result)
    (fine : result.error = none)
    : ended = .ok result.files := by
  cases ended with
  | ok files =>
      rw [← Option.some.inj left]
  | error failure =>
      cases failure with
      | error message =>
          rw [← Option.some.inj left] at fine
          cases fine
      | panic => cases left

/-- The worker names its files by `Output::path`, whatever it leaves. -/
theorem workerResult_named {tools : Tools} {job : Job} {result : Publication.WorkerResult}
    (left : workerResult (run sha256 tools job Stage.empty).result = some result)
    : result.Named := by
  cases ended : (run sha256 tools job Stage.empty).result with
  | ok files =>
      rw [ended] at left
      have evolves : Evolves _ _ (run sha256 tools job) _ := run_evolves
      obtain ⟨sound, rfl⟩ := evolves.returns .empty ended
      rw [← Option.some.inj left]
      intro artifact member
      obtain ⟨i, found⟩ := List.mem_iff_getElem?.mp member
      have named
          : (run sha256 tools job Stage.empty).last.names[i]? = some artifact.name := by
        rw [Stage.names, List.getElem?_map, found, Option.map_some]
      obtain ⟨extension, name⟩ := sound.named named
      exact ⟨i, extension, name⟩
  | error failure =>
      rw [ended] at left
      cases failure with
      | error message =>
          rw [← Option.some.inj left]
          intro artifact member
          cases member
      | panic => cases left

/-- (Converted sha256 admits tools job artifact content) holds when a run succeeded with an artifact
and left a content for it, of the recorded length and digest.
-/
structure Converted (sha256 : List UInt8 → List UInt8) (admits : Tools → Job → Prop)
    (tools : Tools) (job : Job) (artifact : Artifact) (content : List UInt8)
    : Prop where
  admitted : admits tools job
  succeeded
    : (run sha256 tools job Stage.empty).result
      = .ok (run sha256 tools job Stage.empty).last.out.files
  listed : artifact ∈ (run sha256 tools job Stage.empty).last.out.files
  held : (run sha256 tools job Stage.empty).last.directory[artifact.name]? = some content
  length : content.length = artifact.bytes
  digested : digest sha256 content = artifact.sha256

/-- A file of an export whose output was delivered was converted. -/
theorem converted_of_delivered {origin : Publication.Job} {output sealed : Directory}
    {result : Publication.WorkerResult} {manifest : Manifest} {published : PublishedFile}
    {content : List UInt8} (delivered : Delivered sha256 admits origin output result)
    (done : Publication.sealOutput settings origin result output = .ok (sealed, manifest))
    (member : published ∈ manifest.files)
    (worked : output.content published.artifact.name = some content)
    : ∃ tools job, Converted sha256 admits tools job published.artifact content := by
  obtain ⟨tools, job, admitted, left, files⟩ := delivered
  have succeeded := workerResult_ok left (Publication.sealOutput_fine done)
  have evolves : Evolves _ _ (run sha256 tools job) _ := run_evolves
  obtain ⟨sound, same⟩ := evolves.returns .empty succeeded
  have listed : published.artifact ∈ (run sha256 tools job Stage.empty).last.out.files := by
    rw [← same, ← (Publication.sealOutput_ids done).2.1]
    exact List.mem_map_of_mem member
  obtain ⟨content', held, length, digested⟩ := sound.recorded _ listed
  obtain rfl := Option.some.inj (worked.symm.trans (files held))
  exact ⟨tools, job, admitted, same ▸ succeeded, listed, held, length, digested⟩

/-- The digest and the media type of a converted file can be sent. -/
theorem Converted.sendable {tools : Tools} {job : Job} {artifact : Artifact}
    {content : List UInt8} (converted : Converted sha256 admits tools job artifact content)
    (exportId id : String)
    : (Publication.fileRow exportId { artifact, id }).Sendable := by
  have evolves : Evolves _ _ (run sha256 tools job) _ := run_evolves
  obtain ⟨sound, -⟩ := evolves.returns .empty converted.succeeded
  constructor
  case hash =>
    refine Publication.headerValue_printable fun letter member => ?_
    rw [Publication.fileRow, Publication.quote_letters, ← converted.digested] at member
    have digit : ∀ value < 16, 32 ≤ (hexDigit value).toNat ∧ (hexDigit value).toNat < 127 := by
      decide
    rcases List.mem_cons.mp member with rfl | inner
    · decide
    rcases List.mem_append.mp inner with among | last
    · rw [digest, hexEncode, String.toList_ofList, List.mem_flatMap] at among
      obtain ⟨byte, -, found⟩ := among
      have bound := byte.toNat_lt
      rcases List.mem_cons.mp found with rfl | low
      · exact digit _ (by omega)
      · rw [List.mem_singleton.mp low]
        exact digit _ (by omega)
    · rw [List.mem_singleton.mp last]
      decide
  case mime =>
    have printable : ∀ media ∈ outputTypes,
        media.toList.all (fun letter => 32 ≤ letter.toNat && letter.toNat < 127) = true := by
      decide
    refine Publication.headerValue_printable fun letter member => ?_
    have all := printable artifact.mediaType (sound.typed artifact converted.listed)
    simpa using List.all_eq_true.mp all letter member

-----------------------------------------------------------------------------------------
-- Downloads
-----------------------------------------------------------------------------------------

/-- Every file of an export that an item reports can be downloaded from then on, in one go or in
ranges, and whatever happens to the service in between. Its tag is the digest of what is sent.
-/
theorem reported_exports_download {serve : ServeFile} (serves : Publication.Serves serve)
    {state : State}
    (reached : (Publication.supplied settings (Delivered sha256 admits)).Reachable state)
    {item : Service.ItemResult} {id : String} (reported : item ∈ state.results)
    (named : item.exportId = some id)
    : ∃ manifest,
        state.store.index.exports[id]? = some manifest
        ∧ ∀ published ∈ manifest.files,
            ∃ content,
              digest sha256 content = published.artifact.sha256
              ∧ Publication.Downloads settings serve state published content := by
  have protocol := Publication.reachable_of_supplied reached
  have consistent := Publication.consistent_of_reachable protocol
  obtain ⟨manifest, row⟩ := consistent.results reported named
  refine ⟨manifest, row, fun published member => ?_⟩
  obtain ⟨origin, output, result, sealed, content, delivered, done, worked, stays⟩ :=
    Publication.published_delivered reached row member
  obtain ⟨tools, job, converted⟩ := converted_of_delivered delivered done member worked
  exact ⟨content, converted.digested, Publication.downloads_of_answered serves converted.length
    (converted.sendable id published.id) (Publication.stays_answered serve stays)⟩

-----------------------------------------------------------------------------------------
-- Answers
-----------------------------------------------------------------------------------------

/-- A success is sent under the tag and the media type of its row. -/
theorem answer_headers {serve : ServeFile} {row : Publication.FileRow}
    {opened : Option (List UInt8)} {request : Headers} {response : Publication.Response}
    (answered : answer serve row opened request = .ok response)
    (success : 200 ≤ response.status ∧ response.status < 300)
    : response.headers["etag"]? = some [textBytes (Publication.quote row.hash)]
      ∧ response.headers["content-type"]? = some [textBytes row.mime] := by
  have plain : ∀ {text : String} {value : List UInt8},
      Publication.headerValue text = .ok value → value = textBytes text := by
    intro text value read
    simp only [Publication.headerValue, bind_ok, pure_ok] at read
    obtain ⟨_, -, rfl⟩ := read
    rfl
  rw [answer] at answered
  split at answered
  · -- a confirmation is no success
    obtain rfl := Except.ok.inj answered
    rw [Publication.notModified] at success
    split at success <;> exact absurd success.2 (by simp)
  · obtain ⟨served, -, answered⟩ := bind_ok.mp answered
    split at answered
    · simp only [bind_ok, pure_ok] at answered
      obtain ⟨tag, tagged, mime, typed, rfl⟩ := answered
      obtain rfl := plain tagged
      obtain rfl := plain typed
      simp only [Publication.Response.insert]
      rw [Table.insert_other _ _ (by decide), Table.insert_other _ _ (by decide),
        Table.insert_other _ _ (by decide), Table.insert_self, Table.insert_other _ _ (by decide),
        Table.insert_other _ _ (by decide), Table.insert_self]
      exact ⟨rfl, rfl⟩
    · rename_i failure
      obtain rfl := Except.ok.inj answered
      exact absurd success failure

/-- (Comes sha256 admits serve id request response tools job artifact content) holds when an answer
is that for a converted file: a success is sent under its digest and its media type.
-/
structure Comes (sha256 : List UInt8 → List UInt8) (admits : Tools → Job → Prop)
    (serve : ServeFile) (id : String) (request : Headers) (response : Publication.Response)
    (tools : Tools) (job : Job) (artifact : Artifact) (content : List UInt8)
    : Prop extends Converted sha256 admits tools job artifact content where
  answered
    : ∃ exportId,
        answer serve (Publication.fileRow exportId { artifact, id }) (some content) request
          = .ok response
  headed
    : 200 ≤ response.status ∧ response.status < 300
      → response.headers["etag"]? = some [textBytes (Publication.quote (digest sha256 content))]
        ∧ response.headers["content-type"]? = some [textBytes artifact.mediaType]

/-- What is answered but an error comes from a run of the worker. -/
theorem comes_of_answered {serve : ServeFile} {id : String} {request : Headers}
    {response : Publication.Response}
    (answered
      : Publication.Answered settings (Delivered sha256 admits) serve id request response)
    : ∃ tools job artifact content,
        Comes sha256 admits serve id request response tools job artifact content := by
  obtain ⟨origin, output, result, sealed, manifest, published, content, delivered, done, member,
    rfl, worked, sent⟩ := answered.delivered
  obtain ⟨tools, job, converted⟩ := converted_of_delivered delivered done member worked
  refine ⟨tools, job, published.artifact, content, converted, ⟨_, sent⟩, fun success => ?_⟩
  rw [converted.digested]
  exact answer_headers sent success

/-- Successes of one tag are those of one content. -/
theorem Comes.unique {serve : ServeFile} {id id' : String} {request request' : Headers}
    {response response' : Publication.Response} {tools tools' : Tools} {job job' : Job}
    {artifact artifact' : Artifact} {content content' : List UInt8}
    (comes : Comes sha256 admits serve id request response tools job artifact content)
    (comes' : Comes sha256 admits serve id' request' response' tools' job' artifact' content')
    (success : 200 ≤ response.status ∧ response.status < 300)
    (success' : 200 ≤ response'.status ∧ response'.status < 300)
    (same : response.headers["etag"]? = response'.headers["etag"]?)
    (secure : ObjectTree.NoCollision sha256 [content, content'])
    : content = content' := by
  have tag := (comes.headed success).1
  have tag' := (comes'.headed success').1
  have values := List.singleton_inj.mp (Option.some.inj (tag.symm.trans (same.trans tag')))
  have digests := Publication.quote_injective (textBytes_injective values)
  exact ObjectTree.digest_inj secure (by simp) (by simp) digests

/-- Whatever steps, failures and crashes there are, each answer but an error is that for an artifact
of a run of the worker that succeeded, with the content that the run left; so answers of one tag
are those of one content.
-/
theorem served_files_converted {serve : ServeFile} {id : String} {request : Headers}
    {response : Publication.Response}
    (answered
      : Publication.Answered settings (Delivered sha256 admits) serve id request response)
    : ∃ tools job artifact content,
        Comes sha256 admits serve id request response tools job artifact content
        ∧ ∀ {id' : String} {request' : Headers} {response' : Publication.Response},
            Publication.Answered settings (Delivered sha256 admits) serve id' request' response'
            → (200 ≤ response.status ∧ response.status < 300)
            → (200 ≤ response'.status ∧ response'.status < 300)
            → response.headers["etag"]? = response'.headers["etag"]?
            → ∃ tools' job' artifact' content',
                Comes sha256 admits serve id' request' response' tools' job' artifact' content'
                ∧ (ObjectTree.NoCollision sha256 [content, content'] → content = content') := by
  obtain ⟨tools, job, artifact, content, comes⟩ := comes_of_answered answered
  refine ⟨tools, job, artifact, content, comes, ?_⟩
  intro id' request' response' answered' success success' same
  obtain ⟨tools', job', artifact', content', comes'⟩ := comes_of_answered answered'
  exact ⟨tools', job', artifact', content', comes', comes.unique comes' success success' same⟩

end Served

end MoenotesAssets.Worker.Run

namespace MoenotesAssets.Worker.Media

open Foundation Foundation.Machine
open Export (Artifact)
open Publication (Headers ServeFile answer)
open Run (Delivered)

-----------------------------------------------------------------------------------------
-- Sounds, videos and masks
-----------------------------------------------------------------------------------------

/-- A worker with the media tools of an installation, under any settings. -/
def Installed (externals : Externals) (tools : Run.Tools) (job : Job) : Prop :=
  ∃ c base, Hears externals c ∧ tools = mediaTools externals c base job.target.key

/-- (Playing externals c key kind file) holds when a file of a media type plays: a sound is that of
a waveform, a video that of a container, and a mask that of a container with a mask.
-/
inductive Playing (externals : Externals) (c : Settings) (key : String)
    : String → Option (List UInt8) → Prop where
  | other {kind : String} {file : Option (List UInt8)} (silent : kind ∉ mediaTypes)
    : Playing externals c key kind file
  | sound {i channels : Nat} {w : Wave} {content file : List UInt8} {source : Value} {p : String}
    (decoded : decodeWave externals c i w = .ok (channels, content, source))
    (passes : Passes externals c (HasSound source) p file)
    : Playing externals c key "audio/mp4" (some file)
  | video {content file : List UInt8} {streams : List Track} {s : Source} {p : String}
    (sourced : Sourced externals c key content streams s)
    (passes
      : Passes externals c (HasVideo s.info (s.audio.map Prod.snd)) p file)
    : Playing externals c key "video/mp4" (some file)
  | mask {content file : List UInt8} {streams : List Track} {s : Source} {alpha : Track}
    {p : String} (sourced : Sourced externals c key content streams s)
    (split : s.alpha = some alpha) (passes : Passes externals c (HasMask s.info) p file)
    : Playing externals c key "video/x-matroska" (some file)

/-- Each file of playable artifacts plays, by induction on the artifacts. -/
theorem Playable.playing {externals : Externals} {c : Settings} {key : String} {entries : Entries}
    (playable : Playable externals c key entries) {kind : String} {file : Option (List UInt8)}
    (member : (kind, file) ∈ entries)
    : Playing externals c key kind file := by
  induction playable with
  | none => cases member
  | other played silent ih =>
      rcases List.mem_append.mp member with before | last
      · exact ih before
      · obtain ⟨rfl, rfl⟩ := Prod.mk.inj (List.mem_singleton.mp last)
        exact .other silent
  | sound played decoded passes ih =>
      rcases List.mem_append.mp member with before | last
      · exact ih before
      · obtain ⟨rfl, rfl⟩ := Prod.mk.inj (List.mem_singleton.mp last)
        exact .sound decoded passes
  | video played sourced whole passes ih =>
      rcases List.mem_append.mp member with before | last
      · exact ih before
      · obtain ⟨rfl, rfl⟩ := Prod.mk.inj (List.mem_singleton.mp last)
        exact .video sourced passes
  | masked played sourced split passes masks ih =>
      rcases List.mem_append.mp member with before | last
      · rcases List.mem_append.mp before with early | color
        · exact ih early
        · obtain ⟨rfl, rfl⟩ := Prod.mk.inj (List.mem_singleton.mp color)
          exact .video sourced passes
      · obtain ⟨rfl, rfl⟩ := Prod.mk.inj (List.mem_singleton.mp last)
        exact .mask sourced split masks

/-- A converted file plays. -/
theorem playing_of_converted {externals : Externals} {sha256 : List UInt8 → List UInt8}
    {tools : Run.Tools} {job : Job} {artifact : Artifact} {content : List UInt8}
    (converted : Run.Converted sha256 (Installed externals) tools job artifact content)
    : ∃ c, Playing externals c job.target.key artifact.mediaType (some content) := by
  obtain ⟨c, base, hears, rfl⟩ := converted.admitted
  have empty : Holding sha256 job.limits.toConfig (Playable externals c job.target.key)
      Run.Stage.empty := ⟨.empty, .none⟩
  have playable := ((run_plays hears).returns empty converted.succeeded).held
  refine ⟨c, playable.playing (List.mem_map.mpr ⟨artifact, converted.listed, ?_⟩)⟩
  rw [converted.held]

/-- A service that publishes the video of the sample. -/
def movieSettings : Publication.Settings :=
  { outputBytes := 2 ^ 20, digest := fun text => text, encode := fun _ => [] }

/-- The last stage of the run for the video. -/
def movieStage : Run.Stage := (Run.run List.reverse sampleTools sampleJob Run.Stage.empty).last

/-- What the worker leaves of it. -/
def movieResult : Publication.WorkerResult :=
  { files := movieStage.out.files, error := none, empty := movieStage.out.files.isEmpty }

/-- The video as it is published. -/
def movieFile : Artifact :=
  ⟨"00000.mp4", "movie", "video/mp4", 1, "01", some "video-color", some "color", none⟩

/-- Its mask. -/
def movieMask : Artifact :=
  ⟨"00001.mkv", "movie.alpha", "video/x-matroska", 1, "02", some "video-alpha",
    some "alpha-mask", none⟩

/-- The files of the export. -/
def movieFiles : List Export.PublishedFile :=
  [{ artifact := movieFile, id := "ab:00000.mp4" }, { artifact := movieMask, id := "ab:00001.mkv" }]

/-- The manifest of the export. -/
def movieManifest : Export.Manifest :=
  {
    id := "ab"
    snapshot := "snapshot"
    key := "movie"
    profile := Export.workerProfile
    files := movieFiles
    empty := false
  }

/-- The video is published. -/
theorem movie_published
    : ∃ state : Publication.State,
        (Publication.supplied movieSettings
          (Delivered List.reverse (Installed sampleExternals))).Reachable state
        ∧ state.store.index.exports["ab"]? = some movieManifest
        ∧ ∃ item ∈ state.results, item.exportId = some "ab" := by
  let origin : Publication.Job := ⟨"ab", "snapshot", "movie"⟩
  have succeeds
      : (Run.run List.reverse sampleTools sampleJob Run.Stage.empty).result.isOk = true := by
    decide +kernel
  obtain ⟨outputs, ran⟩ := ok_of_isOk succeeds
  have orderly := @Run.run_orderly List.reverse sampleTools sampleJob
  have same : outputs = movieStage.out.files := by
    rw [movieStage]
    exact orderly.yields ran
  have left : Run.workerResult (Run.run List.reverse sampleTools sampleJob Run.Stage.empty).result
      = some movieResult := by
    rw [ran, same]
    rfl
  have delivered : Delivered List.reverse (Installed sampleExternals) origin
      movieStage.toDirectory movieResult :=
    ⟨sampleTools, sampleJob, ⟨sampleSettings, _, sample_hears, rfl⟩, left,
      Run.Stage.toDirectory_content⟩
  have seals : (Publication.sealOutput movieSettings origin movieResult
      movieStage.toDirectory).toOption.map Prod.snd = some movieManifest := by decide +kernel
  obtain ⟨⟨sealed, manifest⟩, accepted, is⟩ := Option.map_eq_some_iff.mp seals
  obtain rfl : manifest = movieManifest := is
  have accepted := toOption_eq_some.mp accepted
  have inserted := @Publication.Index.publish_fresh { exports := ∅, files := ∅ } movieManifest
    Std.TreeMap.not_mem_emptyc (by decide) fun _ _ => Std.TreeMap.not_mem_emptyc
  obtain ⟨state, reached, stored, reported⟩ := Publication.exists_published delivered
    (Run.workerResult_named left) accepted inserted
  refine ⟨state, reached, ?_, reported⟩
  rw [stored]
  exact Table.insert_self _ _ _

/-- The video is sent. -/
theorem movie_answered
    : ∃ response : Publication.Response,
        response.status = 200
        ∧ Publication.Answered movieSettings (Delivered List.reverse (Installed sampleExternals))
            Publication.plainServe "ab:00000.mp4" ∅ response := by
  obtain ⟨state, reached, row, -⟩ := movie_published
  have member : { artifact := movieFile, id := "ab:00000.mp4" } ∈ movieManifest.files :=
    List.mem_cons_self
  obtain ⟨content, -, answered⟩ := Publication.published_answered Publication.plainServe
    (Publication.reachable_of_supplied reached) row member
  have sendable : (Publication.fileRow "ab"
      { artifact := movieFile, id := "ab:00000.mp4" }).Sendable := by constructor <;> rfl
  have undated : Publication.Undated ∅ := ⟨rfl, rfl⟩
  obtain ⟨response, sent, status, -⟩ := @Publication.answer_whole Publication.plainServe
    Publication.plainServe_serves _ content _ sendable undated rfl (.inl rfl)
  refine ⟨response, status, [], [], state, state, state, reached, .here, .here, ?_⟩
  exact (answered ⟨[], [], [], state, state, state, .here, .here, .here, rfl⟩).trans sent

/-- The video of the sample and its mask can be downloaded. -/
theorem reported_exports_download_movie
    : ∃ (state : Publication.State) (manifest : Export.Manifest),
        manifest.files.map Export.PublishedFile.artifact = [movieFile, movieMask]
        ∧ ∀ published ∈ manifest.files,
            ∃ content,
              ObjectTree.digest List.reverse content = published.artifact.sha256
              ∧ Publication.Downloads movieSettings Publication.plainServe state published
                  content := by
  obtain ⟨state, reached, row, item, reported, named⟩ := movie_published
  obtain ⟨manifest, found, downloads⟩ := Run.reported_exports_download
    Publication.plainServe_serves reached reported named
  obtain rfl := Option.some.inj (row.symm.trans found)
  exact ⟨state, movieManifest, rfl, downloads⟩

/-- The video of the sample comes from the run that converted it. -/
theorem served_files_converted_movie
    : ∃ response tools job artifact content,
        Run.Comes List.reverse (Installed sampleExternals) Publication.plainServe "ab:00000.mp4" ∅
          response tools job artifact content := by
  obtain ⟨response, -, answered⟩ := movie_answered
  obtain ⟨tools, job, artifact, content, comes, -⟩ := Run.served_files_converted answered
  exact ⟨response, tools, job, artifact, content, comes⟩

end MoenotesAssets.Worker.Media
