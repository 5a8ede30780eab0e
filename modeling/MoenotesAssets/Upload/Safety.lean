import MoenotesAssets.Upload.Bucket

/-! What any interleaving of uploads leaves in a bucket: nothing stored changes, a manifest is
sent after its objects were read back, and successful uploads agree.
-/

namespace MoenotesAssets.Upload
open Foundation ObjectTree

variable {sha256 : List UInt8 → List UInt8}

-----------------------------------------------------------------------------------------
-- The store
-----------------------------------------------------------------------------------------

/-- What is stored under a key stays there. -/
def Keeps (store later : String → Option (List UInt8)) : Prop :=
  ∀ key content, store key = some content → later key = some content

/-- The server keeps what it has when a request only creates. -/
theorem serve_keeps {store : String → Option (List UInt8)} {request : PutRequest}
    (conditional : request.ifNoneMatch = some "*") (written : List UInt8)
    : Keeps store (serve store request written) := by
  intro key content stored
  rw [serve]
  split
  case isTrue => exact stored
  case isFalse vacant =>
      rw [Function.update_of_ne]
      · exact stored
      · rintro rfl
        exact vacant ⟨conditional, by rw [stored]; rfl⟩

/-- (ReadBack sha256 o stored response) holds when a response for an object was verified over
what is stored: it ended with bytes that the object describes, and they are all of what is
stored if it stated its length.
-/
structure ReadBack (sha256 : List UInt8 → List UInt8) (o : Object)
    (stored : Option (List UInt8)) (response : Response)
    : Prop where
  status : response.status = 200
  ended : response.ended = true
  described : Describes sha256 o response.body
  there
    : ∃ content,
        stored = some content ∧ (response.body <+: content ∨ content <+: response.body)
  framed : response.contentLength ≠ none → stored = some response.body

/-- A verified response was read back over what is stored. -/
theorem readBack_delivered {stored : Option (List UInt8)} {o : Object} {response : Response}
    {done : Unit} (delivered : Delivers stored response)
    (verified : verifyResponse sha256 o response = .ok done)
    : ReadBack sha256 o stored response := by
  obtain ⟨status, length, ended, described⟩ := verifyResponse_ok verified
  obtain ⟨content, found, stated, part⟩ := delivered status
  refine ⟨status, ended, described, ⟨content, found, part⟩, fun sized => ?_⟩
  obtain ⟨n, declared⟩ := Option.ne_none_iff_exists'.mp sized
  have same : response.body.length = content.length := by
    rw [described.bytes, ← length n declared, stated n declared]
  rcases part with cut | more
  · rw [found, cut.eq_of_length same]
  · rw [found, more.eq_of_length same.symm]

/-- What was read back stays so while what is stored stays. -/
theorem ReadBack.later {store after : String → Option (List UInt8)} {o : Object} {key : String}
    {response : Response} (read : ReadBack sha256 o (store key) response)
    (keeps : Keeps store after)
    : ReadBack sha256 o (after key) response where
  status := read.status
  ended := read.ended
  described := read.described
  there := by
    obtain ⟨content, stored, part⟩ := read.there
    exact ⟨content, keeps key content stored, part⟩
  framed := fun sized => keeps key _ (read.framed sized)

-----------------------------------------------------------------------------------------
-- Steps of a call
-----------------------------------------------------------------------------------------

section Calls

variable {store : String → Option (List UInt8)} {tree : Disk} {cancelled : Bool} {path : Path}
  {object : Object} {work later : Work} {event : Event}

/-- A call sends conditional requests for its object. -/
theorem Work.Step.sends {request : PutRequest}
    (step : Work.Step sha256 store tree cancelled path object work (.sent request) later)
    : request.ifNoneMatch = some "*" ∧ request.key = object.objectKey := by
  cases step with
  | send begun =>
      simp only [beginPut, bind_ok] at begun
      obtain ⟨_, -, body, -, begun⟩ := begun
      obtain rfl := pure_ok.mp begun
      exact ⟨rfl, rfl⟩

/-- What a call reads back was verified over what is stored. -/
theorem Work.Step.reads {response : Response}
    (step : Work.Step sha256 store tree cancelled path object work (.readBack response) later)
    : ReadBack sha256 object (store object.objectKey) response := by
  cases step with
  | readBack delivered verified => exact readBack_delivered delivered verified

/-- An attempt that was not verified does not settle as verified. -/
theorem settle_verified (cancelled : Bool) (attempt : Nat) (verified : Bool)
    : (settle cancelled attempt verified).verified = verified := by
  unfold settle
  split
  case isTrue holds => exact holds.symm
  case isFalse fails =>
      rw [Bool.not_eq_true] at fails
      rw [fails]
      split
      · rfl
      · split <;> rfl

/-- A call becomes verified by reading its object back. -/
theorem Work.Step.verifies
    (step : Work.Step sha256 store tree cancelled path object work event later)
    (verified : later.verified = true)
    : work.verified = true ∨ ∃ response, event = .readBack response := by
  cases step with
  | send => cases verified
  | @answer attempt status =>
      cases accepted : acceptsStatus status <;> simp [accepted, Work.verified] at verified
  | readBack => exact Or.inr ⟨_, rfl⟩
  | refuse => cases verified
  | fail => cases verified
  | record =>
      rw [settle_verified] at verified
      exact Or.inl verified
  | unrecorded => cases verified
  | sleep => cases verified
  | wake => cases verified

end Calls

-----------------------------------------------------------------------------------------
-- Steps of a run
-----------------------------------------------------------------------------------------

/-- A run has read back what its phase relies on; `verified` says which slots it has. -/
def Phase.Sound (sha256 : List UInt8 → List UInt8) (objects : List Object)
    (verified : Slot → Prop) : Phase → Prop
  | .uploading tasks =>
      tasks.map Task.object = objects
      ∧ ∀ task ∈ tasks, task.work.verified = true → verified (.object task.object)
  | .publishing bytes task =>
      task.object = manifestObject sha256 bytes
      ∧ (∀ o ∈ objects, verified (.object o))
      ∧ (task.work.verified = true → verified (.manifest bytes))
  | .returned (some bytes) => (∀ o ∈ objects, verified (.object o)) ∧ verified (.manifest bytes)
  | .returned none => True
  | .died => True

section Runs

variable {store : String → Option (List UInt8)} {run after : Run} {action : Action}
  {objects : List Object} {verified more : Slot → Prop}

/-- A phase relies on no more when more has been read back. -/
theorem Phase.Sound.mono {phase : Phase} (sound : phase.Sound sha256 objects verified)
    (grows : ∀ slot, verified slot → more slot)
    : phase.Sound sha256 objects more := by
  cases phase with
  | uploading tasks =>
      exact ⟨sound.1, fun task member holds => grows _ (sound.2 task member holds)⟩
  | publishing bytes task =>
      obtain ⟨same, all, own⟩ := sound
      exact ⟨same, fun o member => grows _ (all o member), fun holds => grows _ (own holds)⟩
  | returned manifest =>
      cases manifest with
      | none => trivial
      | some bytes => exact ⟨fun o member => grows _ (sound.1 o member), grows _ sound.2⟩
  | died => trivial

/-- Changing how far one call is keeps the objects of the calls. -/
theorem objects_replace (before : List Task) (task : Task) (after : List Task) (work : Work)
    : (before ++ { task with work } :: after).map Task.object
        = (before ++ task :: after).map Task.object := by
  simp only [List.map_append, List.map_cons]

/-- A sound list of calls stays sound when one of them moves on. -/
theorem sound_replace {before after : List Task} {task : Task} {work : Work}
    (sound : (Phase.uploading (before ++ task :: after)).Sound sha256 objects verified)
    (moved : work.verified = true → verified (.object task.object))
    : (Phase.uploading (before ++ { task with work } :: after)).Sound sha256 objects verified := by
  obtain ⟨same, claims⟩ := sound
  refine ⟨(objects_replace before task after work).trans same, ?_⟩
  intro other member
  rcases List.mem_append.mp member with earlier | here
  · exact claims other (List.mem_append_left _ earlier)
  · rcases List.mem_cons.mp here with rfl | behind
    · exact moved
    · exact claims other (List.mem_append_right _ (List.mem_cons_of_mem _ behind))

/-- A step keeps the index of a run. -/
theorem Run.Step.objects_eq (step : Run.Step sha256 store run action after)
    : after.objects = run.objects := by
  cases step <;> rfl

/-- A step keeps a run sound when what it reads back counts. -/
theorem Run.Step.sound (step : Run.Step sha256 store run action after)
    (sound : run.phase.Sound sha256 run.objects verified)
    (reads : ∀ slot response, action = .call slot (.readBack response) → verified slot)
    : after.phase.Sound sha256 after.objects verified := by
  cases step with
  | start phase waits earlier room =>
      rw [phase] at sound
      exact sound_replace sound fun absurd' => by cases absurd'
  | work phase step =>
      rw [phase] at sound
      refine sound_replace sound fun holds => ?_
      rcases step.verifies holds with before | ⟨response, rfl⟩
      · exact sound.2 _ List.mem_append_cons_self before
      · exact reads _ response rfl
  | errors => trivial
  | readManifest phase all read =>
      rw [phase] at sound
      obtain ⟨same, claims⟩ := sound
      refine ⟨rfl, ?_, fun absurd' => by cases absurd'⟩
      intro o member
      rw [← same] at member
      obtain ⟨task, given, rfl⟩ := List.mem_map.mp member
      exact claims task given (by rw [all task given]; rfl)
  | manifestUnread => trivial
  | publish phase step =>
      rw [phase] at sound
      obtain ⟨same, all, own⟩ := sound
      refine ⟨same, all, fun holds => ?_⟩
      rcases step.verifies holds with before | ⟨response, rfl⟩
      · exact own before
      · exact reads _ response rfl
  | @finish bytes task outcome phase returned =>
      rw [phase] at sound
      obtain ⟨-, all, own⟩ := sound
      cases outcome with
      | false => trivial
      | true => exact ⟨all, own (by rw [returned]; rfl)⟩
  | cancel => exact sound
  | edit => exact sound
  | die => trivial

/-- What a run reads back was verified over what is stored, for the object of the slot. -/
theorem Run.Step.reads {slot : Slot} {response : Response}
    (step : Run.Step sha256 store run (.call slot (.readBack response)) after)
    (sound : run.phase.Sound sha256 run.objects verified)
    : ReadBack sha256 (slot.described sha256) (store (slot.described sha256).objectKey)
        response := by
  cases step with
  | work phase step => exact step.reads
  | publish phase step =>
      rw [phase] at sound
      have read := step.reads
      rwa [sound.1] at read

/-- A run sends conditional requests for the object of the slot. -/
theorem Run.Step.sends {slot : Slot} {request : PutRequest}
    (step : Run.Step sha256 store run (.call slot (.sent request)) after)
    (sound : run.phase.Sound sha256 run.objects verified)
    : request.ifNoneMatch = some "*" ∧ request.key = (slot.described sha256).objectKey := by
  cases step with
  | work phase step => exact step.sends
  | publish phase step =>
      rw [phase] at sound
      have sent := step.sends
      rwa [sound.1] at sent

/-- The calls for objects are for those of the index. -/
theorem Run.Step.listed {o : Object} {event : Event}
    (step : Run.Step sha256 store run (.call (.object o) event) after)
    (sound : run.phase.Sound sha256 run.objects verified)
    : o ∈ run.objects := by
  cases step with
  | start phase waits earlier room =>
      rw [phase] at sound
      rw [← sound.1]
      exact List.mem_map_of_mem List.mem_append_cons_self
  | work phase step =>
      rw [phase] at sound
      rw [← sound.1]
      exact List.mem_map_of_mem List.mem_append_cons_self

/-- The call for the manifest acts after every object was read back. -/
theorem Run.Step.publishes {bytes : List UInt8} {request : PutRequest}
    (step : Run.Step sha256 store run (.call (.manifest bytes) (.sent request)) after)
    (sound : run.phase.Sound sha256 run.objects verified)
    : ∀ o ∈ run.objects, verified (.object o) := by
  cases step with
  | publish phase step =>
      rw [phase] at sound
      exact sound.2.1

/-- A run that has returned does nothing more. -/
theorem Run.Step.returned_stays {manifest : Option (List UInt8)}
    (step : Run.Step sha256 store run action after) (returned : run.phase = .returned manifest)
    : after.phase = .returned manifest := by
  cases step with
  | cancel => exact returned
  | edit => exact returned
  | die running => exact absurd returned (running manifest)
  | start phase => cases returned.symm.trans phase
  | work phase => cases returned.symm.trans phase
  | errors phase => cases returned.symm.trans phase
  | readManifest phase => cases returned.symm.trans phase
  | manifestUnread phase => cases returned.symm.trans phase
  | publish phase => cases returned.symm.trans phase
  | finish phase => cases returned.symm.trans phase

/-- A run that returns is in that phase. -/
theorem Run.Step.returns {manifest : Option (List UInt8)}
    (step : Run.Step sha256 store run (.returned manifest) after)
    : after.phase = .returned manifest := by
  cases step <;> rfl

end Runs

-----------------------------------------------------------------------------------------
-- Histories of a bucket
-----------------------------------------------------------------------------------------

section Histories

variable {decode : List UInt8 → Except String Index} {trace : List Label} {bucket after : Bucket}
  {label : Label} {id : Nat} {slot : Slot}

/-- A run has read the object of a slot back, over what stands in the bucket. -/
def Verified (sha256 : List UInt8 → List UInt8) (trace : List Label) (bucket : Bucket) (id : Nat)
    (slot : Slot) : Prop :=
  ∃ response,
    Label.did id (.call slot (.readBack response)) ∈ trace
    ∧ ReadBack sha256 (slot.described sha256) (bucket.store (slot.described sha256).objectKey)
        response

/-- The responses that runs accepted without a length were all of what is stored. -/
def ReadsWhole (sha256 : List UInt8 → List UInt8) (trace : List Label) (bucket : Bucket) : Prop :=
  ∀ id slot response,
    Label.did id (.call slot (.readBack response)) ∈ trace
    → response.contentLength = none
    → bucket.store (slot.described sha256).objectKey = some response.body

/-- An index that lists the manifest it stands in, with the digest of that manifest. -/
def ListsItself (sha256 : List UInt8 → List UInt8) (decode : List UInt8 → Except String Index)
    (objects : List Object) : Prop :=
  ∃ bytes index,
    decode bytes = .ok index
    ∧ index.objects = objects
    ∧ ∃ o ∈ objects, o.objectKey = manifestKey ∧ o.sha256 = digest sha256 bytes

/-- What a run has verified stays so. -/
theorem Verified.later {more : List Label} (verified : Verified sha256 trace bucket id slot)
    (keeps : Keeps bucket.store after.store)
    : Verified sha256 (trace ++ more) after id slot := by
  obtain ⟨response, seen, read⟩ := verified
  exact ⟨response, List.mem_append_left more seen, read.later keeps⟩

/-- When whole responses were accepted, what is stored is what the object describes. -/
theorem Verified.stored (verified : Verified sha256 trace bucket id slot)
    (whole : ReadsWhole sha256 trace bucket)
    : ∃ content,
        bucket.store (slot.described sha256).objectKey = some content
        ∧ Describes sha256 (slot.described sha256) content := by
  obtain ⟨response, seen, read⟩ := verified
  refine ⟨response.body, ?_, read.described⟩
  by_cases sized : response.contentLength = none
  · exact whole id slot response seen sized
  · exact read.framed sized

/-- What holds along every execution of uploads. -/
structure Lawful (sha256 : List UInt8 → List UInt8) (decode : List UInt8 → Except String Index)
    (trace : List Label) (bucket : Bucket) : Prop where
  conditional : ∀ request ∈ bucket.requests, request.ifNoneMatch = some "*"
  opened
    : ∀ id objects, Label.opened id objects ∈ trace
      → ∃ run, bucket.runs id = some run ∧ run.objects = objects
  listed
    : ∀ id objects, Label.opened id objects ∈ trace
      → (∃ o ∈ objects, o.objectKey = manifestKey)
      → ListsItself sha256 decode objects
  sound
    : ∀ id run, bucket.runs id = some run
      → Label.opened id run.objects ∈ trace
        ∧ run.phase.Sound sha256 run.objects (Verified sha256 trace bucket id)
  returned
    : ∀ id manifest, Label.did id (.returned manifest) ∈ trace
      → ∃ run, bucket.runs id = some run ∧ run.phase = .returned manifest

/-- Before anything happened, nothing is claimed. -/
theorem Lawful.initial (first : (uploads sha256 decode).initial bucket)
    : Lawful sha256 decode [] bucket where
  conditional := by
    intro request member
    rw [first.1] at member
    cases member
  opened := fun _ _ absurd' => by cases absurd'
  listed := fun _ _ absurd' => by cases absurd'
  sound := by
    intro id run held
    cases (first.2 id).symm.trans held
  returned := fun _ _ absurd' => by cases absurd'

/-- Under the law, no step changes what is stored. -/
theorem Bucket.Step.keeps (step : Bucket.Step sha256 decode bucket label after)
    (lawful : Lawful sha256 decode trace bucket)
    : Keeps bucket.store after.store := by
  cases step with
  | opens => exact fun _ _ stored => stored
  | acts => exact fun _ _ stored => stored
  | @serves request written sent => exact serve_keeps (lawful.conditional request sent) written

/-- The law survives the beginning of a run. -/
theorem Lawful.opens {tree : Disk} {config : Config} {prepared : Prepared} {cancelled : Bool}
    (lawful : Lawful sha256 decode trace bucket)
    (fresh : bucket.runs id = none)
    (prepares : prepare sha256 decode tree = .ok prepared)
    : Lawful sha256 decode
        (trace ++ [.opened id (prepared.selected.map Selected.object)]) {
          bucket with
          runs := Function.update bucket.runs id (some (.start tree prepared config cancelled))
        } := by
  have kept : ∀ {other run}, bucket.runs other = some run →
      Function.update bucket.runs id (some (.start tree prepared config cancelled)) other
        = some run := by
    intro other run held
    rw [Function.update_of_ne]
    · exact held
    · rintro rfl
      cases fresh.symm.trans held
  refine ⟨lawful.conditional, ?opened, ?listed, ?sound, ?returned⟩
  case opened =>
    intro other objects member
    rcases System.mem_concat_cases member with before | new
    · obtain ⟨run, held, same⟩ := lawful.opened other objects before
      exact ⟨run, kept held, same⟩
    · cases new
      exact ⟨_, Function.update_self .., rfl⟩
  case listed =>
    intro other objects member
    rcases System.mem_concat_cases member with before | new
    · exact lawful.listed other objects before
    · cases new
      rintro ⟨o, given, key⟩
      obtain ⟨bytes, index, decoded, same, sha⟩ := prepare_lists_manifest prepares given key
      exact ⟨bytes, index, decoded, same, o, given, key, sha⟩
  case sound =>
    intro other run held
    rcases Table.update_cases held with ⟨rfl, rfl⟩ | ⟨-, before⟩
    · refine ⟨List.mem_append_right _ List.mem_cons_self, ?_, ?_⟩
      · rw [List.map_map]
        rfl
      · intro task member claims
        obtain ⟨selected, -, rfl⟩ := List.mem_map.mp member
        cases claims
    · obtain ⟨began, sound⟩ := lawful.sound other run before
      exact ⟨List.mem_append_left _ began,
        sound.mono fun slot verified => verified.later fun _ _ stored => stored⟩
  case returned =>
    intro other manifest member
    rcases System.mem_concat_cases member with before | new
    · obtain ⟨run, held, phase⟩ := lawful.returned other manifest before
      exact ⟨run, kept held, phase⟩
    · cases new

/-- The law survives the step of a run. -/
theorem Lawful.acts {run next : Run} {action : Action}
    (lawful : Lawful sha256 decode trace bucket)
    (held : bucket.runs id = some run)
    (step : Run.Step sha256 bucket.store run action next)
    : Lawful sha256 decode (trace ++ [.did id action]) {
        bucket with
        requests := bucket.requests ++ action.requests
        runs := Function.update bucket.runs id (some next)
      } := by
  obtain ⟨began, sound⟩ := lawful.sound id run held
  -- a run keeps its index and its result, so what is known of it stays known
  have kept : ∀ {other found}, bucket.runs other = some found →
      ∃ later,
        Function.update bucket.runs id (some next) other = some later
        ∧ later.objects = found.objects
        ∧ ∀ manifest, found.phase = .returned manifest → later.phase = .returned manifest := by
    intro other found present
    by_cases here : other = id
    · subst here
      cases held.symm.trans present
      exact ⟨next, Function.update_self .., step.objects_eq, fun _ => step.returned_stays⟩
    · exact ⟨found, (Function.update_of_ne here _ _).trans present, rfl, fun _ same => same⟩
  refine ⟨?conditional, ?opened, ?listed, ?sound, ?returned⟩
  case conditional =>
    intro request member
    rcases List.mem_append.mp member with before | new
    · exact lawful.conditional request before
    · cases action with
      | call slot event =>
          cases event with
          | sent given =>
              cases List.mem_singleton.mp new
              exact (step.sends sound).1
          | readBack => cases new
          | silent => cases new
      | returned => cases new
      | silent => cases new
  case opened =>
    intro other objects member
    rcases System.mem_concat_cases member with before | new
    · obtain ⟨found, present, same⟩ := lawful.opened other objects before
      obtain ⟨later, stands, index, -⟩ := kept present
      exact ⟨later, stands, index.trans same⟩
    · cases new
  case listed =>
    intro other objects member
    rcases System.mem_concat_cases member with before | new
    · exact lawful.listed other objects before
    · cases new
  case sound =>
    intro other found present
    rcases Table.update_cases present with ⟨rfl, rfl⟩ | ⟨-, before⟩
    · refine ⟨?_, step.sound ?_ ?_⟩
      · rw [step.objects_eq]
        exact List.mem_append_left _ began
      · exact sound.mono fun slot verified => verified.later fun _ _ stored => stored
      · rintro slot response rfl
        exact ⟨response, List.mem_append_right _ List.mem_cons_self, step.reads sound⟩
    · obtain ⟨began, sound⟩ := lawful.sound other found before
      exact ⟨List.mem_append_left _ began,
        sound.mono fun slot verified => verified.later fun _ _ stored => stored⟩
  case returned =>
    intro other manifest member
    rcases System.mem_concat_cases member with before | new
    · obtain ⟨found, present, phase⟩ := lawful.returned other manifest before
      obtain ⟨later, stands, -, result⟩ := kept present
      exact ⟨later, stands, result manifest phase⟩
    · cases new
      exact ⟨next, Function.update_self .., step.returns⟩

/-- The law survives what the server does. -/
theorem Lawful.serves {request : PutRequest} {written : List UInt8}
    (lawful : Lawful sha256 decode trace bucket)
    (sent : request ∈ bucket.requests)
    : Lawful sha256 decode (trace ++ [.served request])
        { bucket with store := serve bucket.store request written } := by
  have keeps : Keeps bucket.store (serve bucket.store request written) :=
    serve_keeps (lawful.conditional request sent) written
  refine ⟨lawful.conditional, ?opened, ?listed, ?sound, ?returned⟩
  case opened =>
    intro other objects member
    rcases System.mem_concat_cases member with before | new
    · exact lawful.opened other objects before
    · cases new
  case listed =>
    intro other objects member
    rcases System.mem_concat_cases member with before | new
    · exact lawful.listed other objects before
    · cases new
  case sound =>
    intro other run held
    obtain ⟨began, sound⟩ := lawful.sound other run held
    exact ⟨List.mem_append_left _ began, sound.mono fun slot verified => verified.later keeps⟩
  case returned =>
    intro other manifest member
    rcases System.mem_concat_cases member with before | new
    · exact lawful.returned other manifest before
    · cases new

/-- The law holds along every execution, by induction on its steps. -/
theorem lawful_execution (run : (uploads sha256 decode).Execution trace bucket)
    : Lawful sha256 decode trace bucket := by
  refine System.Execution.history (I := Lawful sha256 decode) Lawful.initial ?_ run
  intro trace bucket label after _ lawful step
  cases step with
  | opens cancelled fresh valid prepares => exact lawful.opens fresh prepares
  | acts held step => exact lawful.acts held step
  | serves sent arrived => exact lawful.serves sent

end Histories

end MoenotesAssets.Upload
