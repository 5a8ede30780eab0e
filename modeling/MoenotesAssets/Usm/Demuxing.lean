import MoenotesAssets.Usm.Grammar

/-! What the chunks of one stream do to it, whatever is interleaved with them: they are taken
in when they spell a track, and the file of the stream is its demasked payloads.
-/

namespace MoenotesAssets.Usm

open Foundation Foundation.Machine Foundation.Demultiplex

-----------------------------------------------------------------------------------------
-- The steps of a stream
-----------------------------------------------------------------------------------------

/-- What a chunk does to its stream. -/
inductive Takes (masks : Option Masks) (id : StreamId) (chunk : Chunk) (s : Pending)
    : Pending → Prop where
  | payload (running : s.ended = false) (header : s.header = true) (kind : chunk.kind = 0)
    : Takes masks id chunk s
        {
          s with
          file := s.file ++ demask masks id.signature s.stream.audioCodec chunk.payload
          stream := { s.stream with chunks := s.stream.chunks + 1 }
        }
  | header {stream : Stream} (running : s.ended = false) (new : s.header = false)
    (kind : chunk.kind = 1)
    (read : readHeader id.signature chunk.payload s.stream = .ok stream)
    : Takes masks id chunk s { s with stream, header := true }
  | note (running : s.ended = false) (note : chunk.IsNote) : Takes masks id chunk s s
  | ends (running : s.ended = false) (last : chunk.IsEnd) (some : 0 < s.stream.chunks)
    : Takes masks id chunk s { s with ended := true }

/-- The payloads of two lists of chunks. -/
theorem payloads_append (chunks others : List Chunk)
    : payloads (chunks ++ others) = payloads chunks ++ payloads others := by
  simp [payloads]

/-- The media bytes of two lists of chunks. -/
theorem mediaSize_append (chunks others : List Chunk)
    : mediaSize (chunks ++ others) = mediaSize chunks + mediaSize others := by
  simp [mediaSize, payloads_append]

/-- The payload of a chunk of kind 0. -/
theorem payloads_of_media {chunk : Chunk} (kind : chunk.kind = 0)
    : payloads [chunk] = [chunk.payload] := by
  simp [payloads, kind]

/-- Another chunk has no payload. -/
theorem payloads_of_other {chunk : Chunk} (kind : chunk.kind ≠ 0) : payloads [chunk] = [] := by
  simp [payloads, kind]

/-- A note is no payload. -/
theorem Chunk.IsNote.kind_ne {chunk : Chunk} (note : chunk.IsNote) : chunk.kind ≠ 0 := by
  rcases note with ⟨kind, -⟩ | ⟨kind, -⟩ <;> omega

/-- The end is no payload. -/
theorem Chunk.IsEnd.kind_ne {chunk : Chunk} (last : chunk.IsEnd) : chunk.kind ≠ 0 := by
  obtain ⟨kind, -⟩ := last
  omega

/-- What `absorbStream` takes in is within the limit. -/
theorem takes_of_absorbStream {limit : UInt64} {masks : Option Masks} {id : StreamId}
    {chunk : Chunk} {total total' : Nat} {s s' : Pending}
    (absorbed
      : absorbStream limit masks id.signature chunk.kind chunk.payload total s
        = .ok (total', s'))
    : Takes masks id chunk s s'
      ∧ total' = total + mediaSize [chunk]
      ∧ (chunk.kind = 0 → total' ≤ limit.toNat) := by
  simp only [absorbStream, bind_ok, ensure_ok, Bool.not_eq_true'] at absorbed
  obtain ⟨_, running, absorbed⟩ := absorbed
  split at absorbed
  · rename_i kind
    simp only [bind_ok, ensure_ok, context_ok, pure_ok, Prod.mk.injEq, decide_eq_true_eq]
      at absorbed
    obtain ⟨_, header, sum, added, _, limited, rfl, rfl⟩ := absorbed
    obtain ⟨rfl, -⟩ := checkedAdd_eq_some added
    refine ⟨.payload running header kind, ?_, fun _ => limited⟩
    simp [mediaSize, payloads_of_media kind]
  · rename_i kind
    simp only [bind_ok, ensure_ok, Bool.not_eq_true', pure_ok, Prod.mk.injEq] at absorbed
    obtain ⟨_, new, stream, read, rfl, rfl⟩ := absorbed
    have other : chunk.kind ≠ 0 := by omega
    exact ⟨.header running new kind read, by simp [mediaSize, payloads_of_other other],
      fun media => absurd media other⟩
  · rename_i kind
    have other : chunk.kind ≠ 0 := by omega
    have size : mediaSize [chunk] = 0 := by simp [mediaSize, payloads_of_other other]
    split at absorbed
    · rename_i ends
      simp only [bind_ok, ensure_ok, pure_ok, Prod.mk.injEq, decide_eq_true_eq] at absorbed
      obtain ⟨_, some, rfl, rfl⟩ := absorbed
      have last : chunk.IsEnd := ⟨kind, List.isPrefixOf_iff_prefix.mp ends⟩
      exact ⟨.ends running last some, by omega, fun media => absurd media other⟩
    · rename_i goes
      simp only [bind_ok, ensure_ok, pure_ok, Prod.mk.injEq, Bool.or_eq_true,
        List.isPrefixOf_iff_prefix] at absorbed goes
      obtain ⟨_, known, rfl, rfl⟩ := absorbed
      exact ⟨.note running (Or.inl ⟨kind, goes, known⟩), by omega,
        fun media => absurd media other⟩
  · rename_i kind
    simp only [bind_ok, pure_ok, Prod.mk.injEq] at absorbed
    obtain ⟨content, read, rfl, rfl⟩ := absorbed
    have other : chunk.kind ≠ 0 := by omega
    exact ⟨.note running (Or.inr ⟨kind, content, read⟩),
      by simp [mediaSize, payloads_of_other other], fun media => absurd media other⟩
  · cases absorbed

/-- `absorbStream` takes in what is within the limit. -/
theorem absorbStream_of_takes {limit : UInt64} {masks : Option Masks} {id : StreamId}
    {chunk : Chunk} {total : Nat} {s s' : Pending} (takes : Takes masks id chunk s s')
    (budget : chunk.kind = 0 → total + mediaSize [chunk] ≤ limit.toNat)
    : absorbStream limit masks id.signature chunk.kind chunk.payload total s
      = .ok (total + mediaSize [chunk], s') := by
  simp only [absorbStream, bind_ok, ensure_ok, Bool.not_eq_true']
  cases takes with
  | payload running header kind =>
      have fits := budget kind
      have bound : limit.toNat ≤ max64 := Nat.le_pred_of_lt limit.toNat_lt
      have size : mediaSize [chunk] = chunk.payload.length := by
        simp [mediaSize, payloads_of_media kind]
      rw [size] at fits ⊢
      refine ⟨(), running, ?_⟩
      simp only [kind, bind_ok, ensure_ok, context_ok, pure_ok, Prod.mk.injEq, decide_eq_true_eq]
      exact ⟨(), header, _, if_pos (Nat.le_trans fits bound), (), fits, rfl, trivial⟩
  | header running new kind read =>
      have size : mediaSize [chunk] = 0 := by simp [mediaSize, payloads, kind]
      refine ⟨(), running, ?_⟩
      simp only [kind, bind_ok, ensure_ok, Bool.not_eq_true', pure_ok, size]
      exact ⟨(), new, _, read, rfl⟩
  | note running note =>
      have size : mediaSize [chunk] = 0 := by
        simp [mediaSize, payloads_of_other note.kind_ne]
      refine ⟨(), running, ?_⟩
      rcases note with ⟨kind, goes, known⟩ | ⟨kind, content, read⟩
      · have goes : contentsEnd.isPrefixOf chunk.payload = false := by
          rw [← Bool.not_eq_true, List.isPrefixOf_iff_prefix]
          exact goes
        simp only [kind, goes, Bool.false_eq_true, if_false, bind_ok, ensure_ok, pure_ok, size,
          Bool.or_eq_true, List.isPrefixOf_iff_prefix]
        exact ⟨(), known, rfl⟩
      · simp only [kind, bind_ok, pure_ok, size]
        exact ⟨content, read, rfl⟩
  | ends running last some =>
      obtain ⟨kind, ends⟩ := last
      have size : mediaSize [chunk] = 0 := by simp [mediaSize, payloads, kind]
      refine ⟨(), running, ?_⟩
      simp only [kind, List.isPrefixOf_iff_prefix.mpr ends, if_true, bind_ok, ensure_ok, pure_ok,
        size, decide_eq_true_eq]
      exact ⟨(), some, rfl⟩

-----------------------------------------------------------------------------------------
-- Tracks
-----------------------------------------------------------------------------------------

/-- The stream of a track after its last chunk. -/
def Pending.finished (masks : Option Masks) (id : StreamId) (chunks : List Chunk)
    (stream : Stream)
    : Pending :=
  {
    stream := { stream with chunks := (payloads chunks).length }
    file := (payloads chunks).flatMap (demask masks id.signature stream.audioCodec)
    ended := true
    header := true
  }

/-- A header leaves the number of payloads and the file. -/
theorem readHeader_keeps {signature : Signature} {payload : List UInt8} {stream after : Stream}
    (read : readHeader signature payload stream = .ok after)
    : after.chunks = stream.chunks ∧ after.path = stream.path := by
  simp only [readHeader, bind_ok] at read
  obtain ⟨⟨name, t⟩, -, read⟩ := read
  split at read
  · simp only [bind_ok, pure_ok] at read
    obtain ⟨_, -, _, -, rfl⟩ := read
    exact ⟨rfl, rfl⟩
  · simp only [bind_ok, pure_ok] at read
    obtain ⟨_, -, _, -, rfl⟩ := read
    exact ⟨rfl, rfl⟩

/-- A stream without a header reads the headers of its signature. -/
theorem readHeader_ok {id : StreamId} {payload : List UInt8} {stream : Stream}
    : readHeader id.signature payload (Pending.create id).stream = .ok stream
      ↔ IsHeader id payload stream := by
  simp only [readHeader, bind_ok]
  constructor
  · rintro ⟨⟨name, fields⟩, content, read⟩
    split at read
    · rename_i own
      simp only [bind_ok, ensure_ok, pure_ok, beq_iff_eq, Bool.or_eq_true] at read
      obtain ⟨_, rfl, _, known, rfl⟩ := read
      exact .audio own content rfl known
    · rename_i other
      simp only [bind_ok, ensure_ok, pure_ok, beq_iff_eq] at read
      obtain ⟨_, rfl, info, shown, rfl⟩ := read
      have own : id.signature = .sfv ∨ id.signature = .alp := by
        cases named : id.signature with
        | alp => exact Or.inr rfl
        | sfa => exact absurd named other
        | sfv => exact Or.inl rfl
      exact .video own content shown
  · intro header
    cases header with
    | audio own content named known =>
        subst named
        simp only [content, own, if_true, bind_ok, ensure_ok, pure_ok, beq_iff_eq,
          Bool.or_eq_true]
        exact ⟨_, rfl, (), rfl, (), known, rfl⟩
    | video own content shown =>
        have other : id.signature ≠ .sfa := by
          rcases own with own | own <;> rw [own] <;> decide
        simp only [content, other, if_false, bind_ok, ensure_ok, pure_ok, beq_iff_eq]
        exact ⟨_, rfl, (), rfl, _, shown, rfl⟩

/-- The code demasks the payloads by their signature and codec, as the grammar says. -/
theorem demask_eq_unmasked : demask = unmasked := by
  funext masks signature codec payload
  cases masks with
  | none => rfl
  | some masks =>
      cases signature with
      | alp => rfl
      | sfv => rfl
      | sfa =>
          by_cases two : codec = some 2
          · subst two
            rfl
          · rw [demask, unmasked]
            · simp [two]
            · exact two

/-- Where a stream is among the chunks of its track: before the header, among the payloads,
or behind the end.
-/
inductive Stage (masks : Option Masks) (id : StreamId) (chunks : List Chunk) : Pending → Prop where
  | lead (notes : ∀ chunk ∈ chunks, chunk.IsNote) : Stage masks id chunks (.create id)
  | body {lead body : List Chunk} {header : Chunk} {stream : Stream}
    (split : chunks = lead ++ header :: body)
    (notes : ∀ chunk ∈ lead, chunk.IsNote)
    (kind : header.kind = 1)
    (read : readHeader id.signature header.payload (Pending.create id).stream = .ok stream)
    (media : ∀ chunk ∈ body, chunk.kind = 0 ∨ chunk.IsNote)
    : Stage masks id chunks { Pending.finished masks id chunks stream with ended := false }
  | finished {stream : Stream} (track : IsTrack id chunks stream)
    : Stage masks id chunks (Pending.finished masks id chunks stream)

/-- Notes have no payload. -/
theorem payloads_of_notes {chunks : List Chunk} (notes : ∀ chunk ∈ chunks, chunk.IsNote)
    : payloads chunks = [] := by
  rw [payloads, List.map_eq_nil_iff, List.filter_eq_nil_iff]
  intro chunk member
  simpa using (notes chunk member).kind_ne

/-- The payloads of a track up to its body are those of the body. -/
theorem payloads_body {lead body : List Chunk} {header : Chunk}
    (notes : ∀ chunk ∈ lead, chunk.IsNote) (kind : header.kind = 1)
    : payloads (lead ++ header :: body) = payloads body := by
  have other : header.kind ≠ 0 := by omega
  have split : lead ++ header :: body = lead ++ ([header] ++ body) := rfl
  rw [split, payloads_append, payloads_append, payloads_of_notes notes, payloads_of_other other,
    List.nil_append, List.nil_append]

/-- A chunk that is taken in moves the stream on, by cases on the chunk. -/
theorem Stage.step {masks : Option Masks} {id : StreamId} {chunks : List Chunk} {chunk : Chunk}
    {s s' : Pending} (stage : Stage masks id chunks s) (takes : Takes masks id chunk s s')
    : Stage masks id (chunks ++ [chunk]) s' := by
  cases stage with
  | lead notes =>
      cases takes with
      | payload running header kind => cases header
      | header running new kind read =>
          have other : chunk.kind ≠ 0 := by omega
          have next : Stage masks id (chunks ++ [chunk]) _ :=
            .body (rfl : chunks ++ [chunk] = chunks ++ chunk :: []) notes kind read (by simp)
          have counted := (readHeader_keeps read).1
          simp only [Pending.finished, payloads_append, payloads_of_notes notes,
            payloads_of_other other, List.append_nil, List.length_nil, List.flatMap_nil] at next
          rw [← show (Pending.create id).stream.chunks = 0 from rfl, ← counted] at next
          exact next
      | note running note =>
          refine .lead fun other member => ?_
          rcases List.mem_append.mp member with before | last
          · exact notes other before
          · exact List.mem_singleton.mp last ▸ note
      | ends running last some => exact absurd some (Nat.lt_irrefl 0)
  | @body lead body header stream split notes kind read media =>
      subst split
      have grown : lead ++ header :: body ++ [chunk] = lead ++ header :: (body ++ [chunk]) := by
        simp
      have push : (chunk.kind = 0 ∨ chunk.IsNote) →
          ∀ other ∈ body ++ [chunk], other.kind = 0 ∨ other.IsNote := by
        intro here other member
        rcases List.mem_append.mp member with before | last
        · exact media other before
        · exact List.mem_singleton.mp last ▸ here
      cases takes with
      | payload running started kind' =>
          have next : Stage masks id (lead ++ header :: body ++ [chunk]) _ :=
            .body grown notes kind read (push (Or.inl kind'))
          simp only [Pending.finished, payloads_append _ [chunk], payloads_of_media kind',
            List.length_append, List.length_singleton, List.flatMap_append,
            List.flatMap_singleton] at next
          exact next
      | header running new kind' read' => cases new
      | note running note =>
          have next : Stage masks id (lead ++ header :: body ++ [chunk]) _ :=
            .body grown notes kind read (push (Or.inr note))
          simp only [Pending.finished, payloads_append _ [chunk], payloads_of_other note.kind_ne,
            List.append_nil] at next
          exact next
      | ends running last some =>
          have payload : ∃ other ∈ body, other.kind = 0 := by
            have counted : 0 < (payloads (lead ++ header :: body)).length := some
            rw [payloads_body notes kind, payloads, List.length_map,
              List.length_pos_iff_exists_mem] at counted
            obtain ⟨other, member⟩ := counted
            exact ⟨other, List.mem_of_mem_filter member, by
              simpa using (List.mem_filter.mp member).2⟩
          have next : Stage masks id (lead ++ header :: body ++ [chunk]) _ :=
            .finished ⟨lead, header, body, chunk, rfl, notes, kind, readHeader_ok.mp read, media,
              payload, last⟩
          simp only [Pending.finished, payloads_append _ [chunk], payloads_of_other last.kind_ne,
            List.append_nil] at next
          exact next
  | finished track =>
      cases takes with
      | payload running => cases running
      | header running => cases running
      | note running => cases running
      | ends running => cases running

/-- Notes change nothing. -/
theorem steps_of_notes {masks : Option Masks} {id : StreamId} {chunks : List Chunk} {s : Pending}
    (running : s.ended = false) (notes : ∀ chunk ∈ chunks, chunk.IsNote)
    : Steps (Takes masks id) chunks s s := by
  induction chunks with
  | nil => exact .nil s
  | cons chunk rest ih =>
      obtain ⟨note, notes⟩ := List.forall_mem_cons.mp notes
      exact .cons (.note running note) (ih notes)

/-- Payloads among notes are written in their order, by induction on the chunks. -/
theorem steps_of_media {masks : Option Masks} {id : StreamId} {chunks : List Chunk}
    {s : Pending} (running : s.ended = false) (header : s.header = true)
    (media : ∀ chunk ∈ chunks, chunk.kind = 0 ∨ chunk.IsNote)
    : Steps (Takes masks id) chunks s
        {
          s with
          file :=
            s.file
            ++ (payloads chunks).flatMap (demask masks id.signature s.stream.audioCodec)
          stream := { s.stream with chunks := s.stream.chunks + (payloads chunks).length }
        } := by
  induction chunks generalizing s with
  | nil =>
      simp only [payloads, List.filter_nil, List.map_nil, List.flatMap_nil, List.append_nil,
        List.length_nil, Nat.add_zero]
      exact .nil s
  | cons chunk rest ih =>
      obtain ⟨here, media⟩ := List.forall_mem_cons.mp media
      have split : payloads (chunk :: rest) = payloads [chunk] ++ payloads rest :=
        payloads_append [chunk] rest
      rcases here with kind | note
      · have later := ih (s := {
          s with
          file := s.file ++ demask masks id.signature s.stream.audioCodec chunk.payload
          stream := { s.stream with chunks := s.stream.chunks + 1 } }) running header media
        rw [split, payloads_of_media kind]
        simp only [List.append_assoc, Nat.add_assoc, List.singleton_append, List.flatMap_cons,
          List.length_cons, Nat.add_comm 1] at later ⊢
        exact .cons (.payload running header kind) later
      · rw [split, payloads_of_other note.kind_ne, List.nil_append]
        exact .cons (.note running note) (ih running header media)

/-- The chunks of a track are taken in. -/
theorem steps_of_track {masks : Option Masks} {id : StreamId} {chunks : List Chunk}
    {stream : Stream} (track : IsTrack id chunks stream)
    : Steps (Takes masks id) chunks (.create id) (.finished masks id chunks stream) := by
  obtain ⟨lead, head, body, last, rfl, notes, kind, header, media, ⟨one, member, payload⟩, ends⟩ :=
    track
  have read := readHeader_ok.mpr header
  have counted : stream.chunks = 0 := (readHeader_keeps read).1
  have own : payloads (lead ++ head :: body ++ [last]) = payloads body := by
    rw [payloads_append, payloads_body notes kind, payloads_of_other ends.kind_ne,
      List.append_nil]
  have some : 0 < (payloads body).length := by
    rw [payloads, List.length_map]
    exact List.length_pos_of_mem (List.mem_filter.mpr ⟨member, by simp [payload]⟩)
  rw [steps_append, Pending.finished, own]
  refine ⟨_, steps_append.mpr ⟨_, steps_of_notes rfl notes, .cons (.header rfl rfl kind read)
    (steps_of_media rfl rfl media)⟩, ?_⟩
  simp only [counted, Nat.zero_add]
  exact .cons (.ends rfl ends some) (.nil _)

/-- The chunks of a stream are taken in, with a header and an end, exactly when they spell a
track.
-/
theorem track_iff {masks : Option Masks} {id : StreamId} {chunks : List Chunk} {s : Pending}
    : Steps (Takes masks id) chunks (.create id) s ∧ s.header = true ∧ s.ended = true
      ↔ ∃ stream, IsTrack id chunks stream ∧ s = .finished masks id chunks stream := by
  constructor
  · rintro ⟨run, header, ended⟩
    have stage := run.invariant (P := Stage masks id) (.lead (by simp)) fun stage takes =>
      stage.step takes
    cases stage with
    | lead notes => cases header
    | body => cases ended
    | finished track => exact ⟨_, track, rfl⟩
  · rintro ⟨stream, track, rfl⟩
    exact ⟨steps_of_track track, rfl, rfl⟩

end MoenotesAssets.Usm
