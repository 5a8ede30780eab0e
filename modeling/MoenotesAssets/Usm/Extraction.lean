import MoenotesAssets.Usm.Demuxing
import MoenotesAssets.Usm.Totality
import Mathlib.Data.List.Nodup
import Mathlib.Data.List.Perm.Subperm

/-! `usm::extract` accepts the container grammar and nothing else, and writes the payloads of
every track. It ends for every file, without a panic.
-/

namespace MoenotesAssets.Usm

open Foundation Foundation.Bytes Foundation.Machine Foundation.Demultiplex

variable {limit : UInt64} {masks : Option Masks}

-----------------------------------------------------------------------------------------
-- One chunk
-----------------------------------------------------------------------------------------

/-- The state of every stream, also of those without a chunk yet. -/
def Demuxer.view (demuxer : Demuxer) (id : StreamId) : Pending :=
  demuxer.streams[id]?.getD (.create id)

/-- A stream that is there is viewed as it is. -/
theorem Demuxer.view_eq {demuxer : Demuxer} {id : StreamId} {s : Pending}
    (held : demuxer.streams[id]? = some s)
    : demuxer.view id = s := by
  rw [Demuxer.view, held, Option.getD_some]

/-- The chunk of a stream, by its key. -/
theorem Chunk.id_eq_some {chunk : Chunk} {id : StreamId}
    : chunk.id = some id ↔ chunk.tag = .stream id.signature ∧ chunk.channel = id.channel := by
  obtain ⟨tag, channel, kind, payload⟩ := chunk
  obtain ⟨signature, channel'⟩ := id
  cases tag <;> simp [Chunk.id]

/-- The directory chunks are those of no stream. -/
theorem Chunk.id_eq_none {chunk : Chunk} : chunk.id = none ↔ chunk.tag = .crid := by
  obtain ⟨tag, channel, kind, payload⟩ := chunk
  cases tag <;> simp [Chunk.id]

/-- What `absorb` does with the chunk of a stream. -/
structure Absorbs (limit : UInt64) (masks : Option Masks) (chunk : Chunk)
    (demuxer after : Demuxer) : Prop where
  step : Together (Takes masks) Chunk.id chunk demuxer.view after.view
  total : after.total = demuxer.total + mediaSize [chunk]
  limited : demuxer.total ≤ limit.toNat → after.total ≤ limit.toNat
  crid : after.crid = demuxer.crid
  declared : after.declared = demuxer.declared
  keys
    : ∀ {id : StreamId}, id ∈ after.streams ↔ id ∈ demuxer.streams ∨ chunk.id = some id

/-- The chunk of a stream changes that stream. -/
theorem absorbs_of_absorb {chunk : Chunk} {demuxer after : Demuxer} {id : StreamId}
    (keyed : chunk.id = some id) (absorbed : absorb limit masks demuxer chunk = .ok after)
    : Absorbs limit masks chunk demuxer after := by
  obtain ⟨tag, channel⟩ := Chunk.id_eq_some.mp keyed
  simp only [absorb, tag, channel, bind_ok, pure_ok, context_ok] at absorbed
  obtain ⟨opened, found, s, held, ⟨total, s'⟩, taken, rfl⟩ := absorbed
  obtain ⟨own, others, members⟩ := openStream_view found
  obtain rfl := Option.some.inj (held.symm.trans own)
  obtain ⟨takes, sum, limited⟩ := takes_of_absorbStream taken
  constructor
  case step =>
    refine ⟨id, keyed, ?_, fun other apart => ?_⟩
    · have seen : Demuxer.view { demuxer with total, streams := opened.insert id s' } id = s' :=
        Demuxer.view_eq (Table.insert_self opened id s')
      rw [seen]
      exact takes
    · rw [Demuxer.view, Table.insert_other _ _ apart, others apart, Demuxer.view]
  case total => exact sum
  case limited =>
    intro before
    by_cases media : chunk.kind = 0
    · exact limited media
    · rw [mediaSize, payloads_of_other media, List.map_nil, List.sum_nil, Nat.add_zero] at sum
      exact sum ▸ before
  case crid => rfl
  case declared => rfl
  case keys =>
    intro other
    rw [Std.TreeMap.mem_insert, Std.LawfulEqOrd.compare_eq_iff_eq, members, keyed,
      Option.some.injEq]
    tauto

/-- The chunk of a stream is taken in when the stream takes it, within the limit and with
room for the stream.
-/
theorem absorb_of_takes {chunk : Chunk} {demuxer : Demuxer} {view : StreamId → Pending}
    (step : Together (Takes masks) Chunk.id chunk demuxer.view view)
    (room : ∀ {id : StreamId}, chunk.id = some id → id ∈ demuxer.streams ∨ demuxer.streams.size < 3)
    (budget : demuxer.total + mediaSize [chunk] ≤ limit.toNat)
    : ∃ after, absorb limit masks demuxer chunk = .ok after ∧ after.view = view := by
  obtain ⟨id, keyed, takes, others⟩ := step
  obtain ⟨tag, channel⟩ := Chunk.id_eq_some.mp keyed
  obtain ⟨opened, found⟩ : ∃ opened, openStream demuxer.streams id = .ok opened :=
    ⟨_, openStream_ok.mpr ⟨room keyed, rfl⟩⟩
  obtain ⟨own, apart, -⟩ := openStream_view found
  have taken := absorbStream_of_takes takes fun _ => budget
  refine ⟨
    {
      demuxer with
      total := demuxer.total + mediaSize [chunk]
      streams := opened.insert id (view id)
    }, ?_, ?_⟩
  · simp only [absorb, tag, channel, bind_ok, pure_ok, context_ok]
    exact ⟨_, found, _, own, _, taken, rfl⟩
  · funext other
    by_cases same : other = id
    · subst same
      exact Demuxer.view_eq (Table.insert_self _ _ _)
    · rw [Demuxer.view, Table.insert_other _ _ same, apart same, others other same,
        Demuxer.view]

-----------------------------------------------------------------------------------------
-- All chunks after the directory
-----------------------------------------------------------------------------------------

/-- A second directory is not taken in. -/
theorem keyed_of_absorb {chunk : Chunk} {demuxer after : Demuxer} (crid : demuxer.crid = true)
    (absorbed : absorb limit masks demuxer chunk = .ok after)
    : ∃ id, chunk.id = some id := by
  refine Option.ne_none_iff_exists'.mp fun none => ?_
  simp only [absorb, Chunk.id_eq_none.mp none, crid, bind_ok, ensure_ok, Bool.not_true,
    Bool.false_and, Bool.false_eq_true, false_and, exists_false] at absorbed

/-- What the chunks after the directory have done. -/
structure AbsorbsAll (limit : UInt64) (masks : Option Masks) (chunks : List Chunk)
    (demuxer last : Demuxer) : Prop where
  steps : Steps (Together (Takes masks) Chunk.id) chunks demuxer.view last.view
  total : last.total = demuxer.total + mediaSize chunks
  limited : last.total ≤ limit.toNat
  crid : last.crid = true
  declared : last.declared = demuxer.declared
  keys
    : ∀ {id : StreamId},
        id ∈ last.streams ↔ id ∈ demuxer.streams ∨ ∃ chunk ∈ chunks, chunk.id = some id

/-- The chunks after the directory are those of streams, each of which takes its own ones, by
induction on the chunks.
-/
theorem absorbsAll_of_fold {chunks : List Chunk} {demuxer last : Demuxer}
    (crid : demuxer.crid = true) (within : demuxer.total ≤ limit.toNat)
    (folded : chunks.foldlM (absorb limit masks) demuxer = .ok last)
    : AbsorbsAll limit masks chunks demuxer last := by
  induction chunks generalizing demuxer with
  | nil =>
      obtain rfl := pure_ok.mp folded
      exact ⟨.nil _, rfl, within, crid, rfl, by simp⟩
  | cons chunk rest ih =>
      rw [List.foldlM_cons] at folded
      obtain ⟨middle, absorbed, folded⟩ := bind_ok.mp folded
      obtain ⟨id, keyed⟩ := keyed_of_absorb crid absorbed
      have here := absorbs_of_absorb keyed absorbed
      have later := ih (here.crid.trans crid) (here.limited within) folded
      constructor
      case steps => exact .cons here.step later.steps
      case total =>
        have split := mediaSize_append [chunk] rest
        rw [List.singleton_append] at split
        rw [later.total, here.total, split, Nat.add_assoc]
      case limited => exact later.limited
      case crid => exact later.crid
      case declared => exact later.declared.trans here.declared
      case keys =>
        intro other
        rw [later.keys, here.keys, List.exists_mem_cons_iff, or_assoc]

/-- Chunks that their streams take are taken in, within the limit and with room for their
streams, by induction on the chunks.
-/
theorem fold_of_steps {chunks : List Chunk} {demuxer : Demuxer} {view : StreamId → Pending}
    {ids : List StreamId} (crid : demuxer.crid = true)
    (steps : Steps (Together (Takes masks) Chunk.id) chunks demuxer.view view)
    (budget : demuxer.total + mediaSize chunks ≤ limit.toNat) (few : ids.length ≤ 3)
    (listed : ∀ {id : StreamId}, id ∈ demuxer.streams → id ∈ ids)
    (named : ∀ chunk ∈ chunks, ∀ {id : StreamId}, chunk.id = some id → id ∈ ids)
    : ∃ last,
        chunks.foldlM (absorb limit masks) demuxer = .ok last
        ∧ last.view = view := by
  induction chunks generalizing demuxer with
  | nil => exact ⟨demuxer, rfl, (steps_nil.mp steps).symm⟩
  | cons chunk rest ih =>
      obtain ⟨middle, step, later⟩ := steps_cons.mp steps
      obtain ⟨here, named⟩ := List.forall_mem_cons.mp named
      have split := mediaSize_append [chunk] rest
      rw [List.singleton_append] at split
      have room : ∀ {id : StreamId}, chunk.id = some id →
          id ∈ demuxer.streams ∨ demuxer.streams.size < 3 := by
        intro id keyed
        by_cases member : id ∈ demuxer.streams
        · exact Or.inl member
        · refine Or.inr (Nat.lt_of_lt_of_le ?_ few)
          have distinct : (id :: demuxer.streams.keys).Nodup :=
            List.nodup_cons.mpr
              ⟨fun inside => member (Std.TreeMap.mem_keys.mp inside), Std.TreeMap.nodup_keys⟩
          have within : id :: demuxer.streams.keys ⊆ ids := by
            intro other place
            rcases List.mem_cons.mp place with rfl | inside
            · exact here keyed
            · exact listed (Std.TreeMap.mem_keys.mp inside)
          have size := (List.subperm_of_subset distinct within).length_le
          rw [List.length_cons, Std.TreeMap.length_keys] at size
          exact size
      have fits : demuxer.total + mediaSize [chunk] ≤ limit.toNat := by omega
      obtain ⟨after, absorbed, rfl⟩ := absorb_of_takes step room fits
      obtain ⟨id, keyed, -⟩ := step
      have done := absorbs_of_absorb keyed absorbed
      obtain ⟨last, folded, viewed⟩ := ih (done.crid.trans crid) later
        (by rw [done.total]; omega)
        (fun {other} place => (done.keys.mp place).elim listed fun same => here same) named
      refine ⟨last, ?_, viewed⟩
      rw [List.foldlM_cons]
      exact bind_ok.mpr ⟨after, absorbed, folded⟩

-----------------------------------------------------------------------------------------
-- The directory
-----------------------------------------------------------------------------------------

/-- A row declares its stream, if it names one. -/
theorem declareRow_ok {payload : List UInt8} {declared after : Std.TreeSet StreamId}
    {index : Nat}
    : declareRow payload declared index = .ok after
      ↔ ∃ row,
          rowStream payload index = .ok row
          ∧ (∀ id ∈ row, id ∉ declared)
          ∧ after = row.elim declared declared.insert := by
  simp only [declareRow, bind_ok]
  refine exists_congr fun row => and_congr_right fun _ => ?_
  cases row with
  | none =>
      rw [pure_ok]
      simpa using eq_comm
  | some id =>
      simp only [bind_ok, ensure_ok, pure_ok, exists_const, Bool.not_eq_true', Option.mem_some_iff,
        forall_eq', Option.elim_some, ← Bool.not_eq_true, Std.TreeSet.contains_iff_mem]
      exact and_congr_right fun _ => eq_comm

/-- The declared streams are those of a list without repetitions. -/
def Lists (declared : Std.TreeSet StreamId) (ids : List StreamId) : Prop :=
  ids.Nodup ∧ ∀ {id : StreamId}, id ∈ declared ↔ id ∈ ids

/-- Another declared stream. -/
theorem lists_push {declared : Std.TreeSet StreamId} {ids : List StreamId}
    {row : Option StreamId} (lists : Lists declared ids) (new : ∀ id ∈ row, id ∉ declared)
    : Lists (row.elim declared declared.insert) (ids ++ row.toList) := by
  cases row with
  | none => simpa using lists
  | some id =>
      obtain ⟨distinct, members⟩ := lists
      refine ⟨List.nodup_append.mpr ⟨distinct, by simp, ?_⟩, fun {other} => ?_⟩
      · rintro other member last single rfl
        obtain rfl := List.mem_singleton.mp single
        exact new other rfl (members.mpr member)
      · rw [Option.elim_some, Std.TreeSet.mem_insert, Std.LawfulEqOrd.compare_eq_iff_eq, members,
          Option.toList_some, List.mem_append, List.mem_singleton, eq_comm, or_comm]

/-- The streams of one more row. -/
theorem rows_push (rows : List (Option StreamId)) (row : Option StreamId)
    : (rows ++ [row]).filterMap id = rows.filterMap id ++ row.toList := by
  cases row <;> simp

/-- What is read from the directory was declared. -/
theorem declares_of_readDirectory {payload : List UInt8} {declared : Std.TreeSet StreamId}
    (read : readDirectory payload ∅ = .ok declared)
    : ∃ ids, Declares payload ids ∧ Lists declared ids := by
  simp only [readDirectory, bind_ok, ensure_ok, beq_iff_eq, decide_eq_true_eq] at read
  obtain ⟨⟨name, fields⟩, content, _, named, count, counted, _, few, folded⟩ := read
  obtain ⟨rows, entered, lists⟩ := foldlM_invariant
    (P := fun done declared =>
      ∃ rows,
        List.Forall₂ (fun index row => rowStream payload index = .ok row) done rows
        ∧ Lists declared (rows.filterMap id))
    folded ⟨[], .nil, by simp [Lists]⟩ (by
      rintro done declared after index ⟨rows, entered, lists⟩ step
      obtain ⟨row, found, new, rfl⟩ := declareRow_ok.mp step
      refine ⟨rows ++ [row], List.rel_append entered (.cons found .nil), ?_⟩
      rw [rows_push]
      exact lists_push lists new)
  obtain rfl : name = "CRIUSF_DIR_STREAM" := named
  exact ⟨_, ⟨fields, count, rows, content, counted, few, entered, rfl, lists.1⟩, lists⟩

/-- Rows that name different streams are declared, by induction on the rows. -/
theorem fold_of_rows {payload : List UInt8} {indices : List Nat} {rows : List (Option StreamId)}
    {declared : Std.TreeSet StreamId} {ids : List StreamId}
    (entered : List.Forall₂ (fun index row => rowStream payload index = .ok row) indices rows)
    (lists : Lists declared ids) (distinct : (ids ++ rows.filterMap id).Nodup)
    : ∃ last,
        indices.foldlM (declareRow payload) declared = .ok last
        ∧ Lists last (ids ++ rows.filterMap id) := by
  induction entered generalizing declared ids with
  | nil => exact ⟨declared, rfl, by simpa using lists⟩
  | @cons index row indices rows found _ ih =>
      have split : ids ++ (row :: rows).filterMap id
          = ids ++ row.toList ++ rows.filterMap id := by
        cases row <;> simp
      rw [split] at distinct ⊢
      have new : ∀ id ∈ row, id ∉ declared := by
        rintro id rfl member
        have before := (List.nodup_append.mp distinct).1
        exact (List.nodup_append.mp before).2.2 id (lists.2.mp member) id (by simp) rfl
      obtain ⟨last, folded, lists'⟩ := ih (lists_push lists new) distinct
      refine ⟨last, ?_, lists'⟩
      rw [List.foldlM_cons]
      exact bind_ok.mpr ⟨_, declareRow_ok.mpr ⟨row, found, new, rfl⟩, folded⟩

/-- What was declared is read from the directory. -/
theorem readDirectory_of_declares {payload : List UInt8} {ids : List StreamId}
    (declares : Declares payload ids)
    : ∃ declared, readDirectory payload ∅ = .ok declared ∧ Lists declared ids := by
  obtain ⟨fields, count, rows, content, counted, few, entered, rfl, distinct⟩ := declares
  have nothing : Lists ∅ [] := by simp [Lists]
  obtain ⟨last, folded, lists⟩ := fold_of_rows entered nothing distinct
  refine ⟨last, ?_, lists⟩
  simp only [readDirectory, bind_ok, ensure_ok, beq_iff_eq, decide_eq_true_eq]
  exact ⟨_, content, (), rfl, count, counted, (), few, folded⟩

-----------------------------------------------------------------------------------------
-- The container
-----------------------------------------------------------------------------------------

/-- The locals after the directory. -/
def Demuxer.declaring (declared : Std.TreeSet StreamId) : Demuxer :=
  { Demuxer.start with declared, crid := true }

/-- The directory is taken in first. -/
theorem fold_directory {first : Chunk} {rest : List Chunk} {last : Demuxer}
    (tag : first.tag = .crid)
    : (first :: rest).foldlM (absorb limit masks) .start = .ok last
      ↔ first.kind = 1
        ∧ ∃ declared,
            readDirectory first.payload ∅ = .ok declared
            ∧ rest.foldlM (absorb limit masks) (.declaring declared) = .ok last := by
  simp only [List.foldlM_cons, bind_ok, absorb, tag, ensure_ok, pure_ok, Demuxer.start,
    Bool.not_false, Bool.true_and, beq_iff_eq, Demuxer.declaring]
  constructor
  · rintro ⟨_, ⟨_, kind, declared, read, rfl⟩, folded⟩
    exact ⟨kind, declared, read, folded⟩
  · rintro ⟨kind, declared, read, folded⟩
    exact ⟨_, ⟨(), kind, declared, read, rfl⟩, folded⟩

/-- A directory is no chunk of a stream. -/
theorem itemsOf_directory {first : Chunk} (rest : List Chunk) (tag : first.tag = .crid)
    (id : StreamId)
    : itemsOf Chunk.id id (first :: rest) = itemsOf Chunk.id id rest := by
  rw [itemsOf, List.filter_cons_of_neg (by simp [Chunk.id_eq_none.mpr tag]), itemsOf]

/-- A directory has no media bytes. -/
theorem mediaSize_directory {first : Chunk} (rest : List Chunk) (kind : first.kind = 1)
    : mediaSize (first :: rest) = mediaSize rest := by
  have other : first.kind ≠ 0 := by omega
  have split := mediaSize_append [first] rest
  rw [List.singleton_append] at split
  rw [split, mediaSize, payloads_of_other other, List.map_nil, List.sum_nil, Nat.zero_add]

/-- The checks after the last chunk. -/
structure Finished (last : Demuxer) : Prop where
  declared
    : last.declared.isEmpty = true
      ∨ last.declared.toList = last.streams.toList.map Prod.fst
  complete
    : last.crid = true
      ∧ ∀ entry ∈ last.streams.toList, entry.2.header = true ∧ entry.2.ended = true
  video : tracksOf last.streams .sfv = 1
  audio : tracksOf last.streams .sfa ≤ 1
  alpha : tracksOf last.streams .alp ≤ 1

/-- `finish` returns the streams that passed its checks. -/
theorem finish_ok {last : Demuxer} {result : List (Stream × List UInt8)}
    : finish last = .ok result
      ↔ Finished last
        ∧ result = last.streams.toList.map fun entry => (entry.2.stream, entry.2.file) := by
  simp only [finish, bind_ok, ensure_ok, pure_ok, Bool.or_eq_true, Bool.and_eq_true,
    List.all_eq_true, beq_iff_eq, decide_eq_true_eq]
  constructor
  · rintro ⟨_, declared, _, complete, _, ⟨⟨video, audio⟩, alpha⟩, rfl⟩
    exact ⟨⟨declared, complete, video, audio, alpha⟩, rfl⟩
  · rintro ⟨⟨declared, complete, video, audio, alpha⟩, rfl⟩
    exact ⟨(), declared, (), complete, (), ⟨⟨video, audio⟩, alpha⟩, rfl⟩

/-- The keys of the streams, as members and as entries. -/
theorem mem_keys {streams : Std.TreeMap StreamId Pending} {id : StreamId}
    : id ∈ streams.toList.map Prod.fst ↔ id ∈ streams := by
  rw [Std.TreeMap.map_fst_toList_eq_keys, Std.TreeMap.mem_keys]

/-- The keys of the streams ascend. -/
theorem keys_ascend (streams : Std.TreeMap StreamId Pending)
    : (streams.toList.map Prod.fst).Pairwise fun id other => compare id other = .lt :=
  List.pairwise_map.mpr Std.TreeMap.ordered_keys_toList

/-- An empty directory declares nothing, and another one the streams there are. -/
theorem declared_iff {declared : Std.TreeSet StreamId} {ids : List StreamId}
    {streams : Std.TreeMap StreamId Pending} (lists : Lists declared ids)
    : declared.isEmpty = true ∨ declared.toList = streams.toList.map Prod.fst
      ↔ ids = [] ∨ ∀ {id : StreamId}, id ∈ ids ↔ id ∈ streams := by
  refine or_congr ?_ ?_
  · rw [Std.TreeSet.isEmpty_iff_forall_not_mem, List.eq_nil_iff_forall_not_mem]
    exact forall_congr' fun id => not_congr lists.2
  · constructor
    · intro same id
      rw [← lists.2, ← Std.TreeSet.mem_toList, same, mem_keys]
    · intro same
      refine Table.ascending_unique Std.TreeSet.ordered_toList (keys_ascend streams) ?_
      intro id
      rw [Std.TreeSet.mem_toList, lists.2, same, mem_keys]

/-- The tracks of the streams, as their headers left them. -/
def tracks (streams : Std.TreeMap StreamId Pending) : Tracks :=
  streams.toList.map fun entry => (entry.1, { entry.2.stream with chunks := 0 })

/-- The tracks have the keys of the streams. -/
theorem tracks_keys (streams : Std.TreeMap StreamId Pending)
    : (tracks streams).map Prod.fst = streams.toList.map Prod.fst := by
  rw [tracks, List.map_map]
  rfl

/-- There are as many tracks of a signature as streams. -/
theorem count_eq_of_keys {tracks : Tracks} {streams : Std.TreeMap StreamId Pending}
    (keys : tracks.map Prod.fst = streams.toList.map Prod.fst) (signature : Signature)
    : tracks.count signature = tracksOf streams signature := by
  have counted : ∀ {α : Type} (entries : List (StreamId × α)),
      (entries.filter fun entry => entry.1.signature == signature).length
        = ((entries.map Prod.fst).filter fun id => id.signature == signature).length := by
    intro α entries
    rw [List.filter_map, List.length_map]
    rfl
  rw [Tracks.count, tracksOf, counted, counted, keys]

/-- The stream of a track counts no payload after its header, and has the file of its key. -/
theorem IsTrack.keeps {id : StreamId} {chunks : List Chunk} {stream : Stream}
    (track : IsTrack id chunks stream)
    : stream.chunks = 0 ∧ stream.path = id.path := by
  obtain ⟨_, header, _, _, _, _, _, read, _⟩ := track
  exact readHeader_keeps (readHeader_ok.mpr read)

/-- What was extracted is a container, and its tracks were written. -/
theorem container_of_fold {chunks : List Chunk} {last : Demuxer} (framed : Framed limit chunks)
    (folded : chunks.foldlM (absorb limit masks) .start = .ok last) (finished : Finished last)
    : Container limit chunks (tracks last.streams)
      ∧ (last.streams.toList.map fun entry => (entry.2.stream, entry.2.file))
        = (tracks last.streams).map (trackOutput masks chunks) := by
  cases chunks with
  | nil =>
      obtain rfl := pure_ok.mp folded
      cases finished.complete.1
  | cons first rest =>
      have tag : first.tag = .crid := framed.first first rfl
      obtain ⟨kind, declared, read, folded⟩ := (fold_directory tag).mp folded
      obtain ⟨ids, declares, lists⟩ := declares_of_readDirectory read
      have all := absorbsAll_of_fold rfl (Nat.zero_le _) folded
      obtain ⟨keyed, runs⟩ := steps_together.mp all.steps
      have keys : ∀ {id : StreamId}, id ∈ last.streams ↔ ∃ chunk ∈ rest, chunk.id = some id := by
        intro id
        rw [all.keys]
        simp [Demuxer.declaring, Demuxer.start]
      have spelled : ∀ entry ∈ last.streams.toList,
          IsTrack entry.1 (itemsOf Chunk.id entry.1 (first :: rest))
              { entry.2.stream with chunks := 0 }
            ∧ entry.2
              = .finished masks entry.1 (itemsOf Chunk.id entry.1 (first :: rest))
                  { entry.2.stream with chunks := 0 } := by
        rintro ⟨id, s⟩ member
        have held := Std.TreeMap.mem_toList_iff_getElem?_eq_some.mp member
        have run := runs id
        rw [Demuxer.view_eq held, ← itemsOf_directory rest tag] at run
        obtain ⟨stream, track, rfl⟩ :=
          track_iff.mp ⟨run, finished.complete.2 ⟨id, s⟩ member⟩
        have same : { stream with chunks := 0 } = stream := by rw [← track.keeps.1]
        simp only [Pending.finished, same]
        exact ⟨track, trivial⟩
      have members : ∀ {id : StreamId},
          id ∈ (tracks last.streams).map Prod.fst ↔ id ∈ last.streams := by
        intro id
        rw [tracks_keys, mem_keys]
      have counts := count_eq_of_keys (tracks_keys last.streams)
      constructor
      · constructor
        case directory =>
          refine ⟨first, rest, ids, rfl, tag, kind, ?_, declares, ?_⟩
          · intro chunk member crid
            obtain ⟨id, own⟩ := keyed chunk member
            rw [Chunk.id_eq_none.mpr crid] at own
            cases own
          · have checked := finished.declared
            rw [all.declared] at checked
            refine ((declared_iff lists).mp checked).imp_right fun same => ?_
            intro id
            rw [same, members]
        case fits => exact framed.fits
        case total =>
          rw [mediaSize_directory rest kind]
          have total := all.total
          exact Nat.le_trans (Nat.le_add_left _ _) (total ▸ all.limited)
        case sorted =>
          have ascending := keys_ascend last.streams
          rw [← tracks_keys, List.pairwise_map] at ascending
          exact ascending.imp fun before => StreamId.compare_eq_lt.mp before
        case covered =>
          intro id
          rw [members, keys]
          simp [Chunk.id_eq_none.mpr tag]
        case spelled =>
          intro track member
          obtain ⟨entry, among, rfl⟩ := List.mem_map.mp member
          exact (spelled entry among).1
        case video => exact (counts .sfv).trans finished.video
        case audio => exact counts .sfa ▸ finished.audio
        case alpha => exact counts .alp ▸ finished.alpha
      · rw [tracks, List.map_map]
        refine List.map_congr_left fun entry member => ?_
        obtain ⟨-, final⟩ := spelled entry member
        rw [Function.comp_apply, trackOutput, ← demask_eq_unmasked]
        exact Prod.ext (congrArg Pending.stream final) (congrArg Pending.file final)

/-- A container has every track once. -/
theorem Container.distinct {chunks : List Chunk} {tracks : Tracks}
    (container : Container limit chunks tracks)
    : (tracks.map Prod.fst).Nodup := by
  rw [List.Nodup, List.pairwise_map]
  refine container.sorted.imp fun before same => ?_
  rw [same] at before
  exact Nat.lt_irrefl _ before

/-- The state that a container leaves each stream in. -/
theorem view_of_container {first : Chunk} {rest : List Chunk} {tracks : Tracks}
    (container : Container limit (first :: rest) tracks) (tag : first.tag = .crid)
    (masks : Option Masks)
    : ∃ view : StreamId → Pending,
        (∀ id, Steps (Takes masks id) (itemsOf Chunk.id id rest) (.create id) (view id))
        ∧ ∀ track ∈ tracks,
            view track.1
            = .finished masks track.1 (itemsOf Chunk.id track.1 (first :: rest)) track.2 := by
  have each : ∀ id, ∃ s,
      Steps (Takes masks id) (itemsOf Chunk.id id rest) (.create id) s
      ∧ ∀ track ∈ tracks, track.1 = id →
          s = .finished masks id (itemsOf Chunk.id id (first :: rest)) track.2 := by
    intro id
    by_cases member : id ∈ tracks.map Prod.fst
    · obtain ⟨track, among, rfl⟩ := List.mem_map.mp member
      have run : Steps (Takes masks track.1) _ _ _ :=
        steps_of_track (container.spelled track among)
      rw [itemsOf_directory rest tag] at run
      refine ⟨_, run, fun other place same => ?_⟩
      obtain rfl := List.inj_on_of_nodup_map container.distinct place among same
      rw [itemsOf_directory rest tag]
    · have none : itemsOf Chunk.id id rest = [] := by
        rw [itemsOf, List.filter_eq_nil_iff]
        intro chunk place own
        exact member (container.covered.mpr
          ⟨chunk, List.mem_cons_of_mem _ place, beq_iff_eq.mp own⟩)
      refine ⟨.create id, ?_, fun track place same => ?_⟩
      · rw [none]
        exact .nil _
      · exact absurd (List.mem_map.mpr ⟨track, place, same⟩) member
  choose view runs finals using each
  exact ⟨view, runs, fun track place => finals track.1 track place rfl⟩

/-- A container has three tracks at most. -/
theorem Container.tracks_length {chunks : List Chunk} {tracks : Tracks}
    (container : Container limit chunks tracks)
    : tracks.length ≤ 3 := by
  have counted : ∀ tracks : Tracks,
      tracks.length = tracks.count .sfv + tracks.count .sfa + tracks.count .alp := by
    intro tracks
    induction tracks with
    | nil => rfl
    | cons track rest ih =>
        obtain ⟨⟨signature, channel⟩, stream⟩ := track
        simp only [Tracks.count, List.length_cons, ih] at ih ⊢
        cases signature <;> simp <;> omega
  have video := container.video
  have audio := container.audio
  have alpha := container.alpha
  have total := counted tracks
  omega

/-- A container is extracted, and its tracks are written. -/
theorem fold_of_container {chunks : List Chunk} {tracks : Tracks}
    (container : Container limit chunks tracks) (masks : Option Masks)
    : ∃ last,
        chunks.foldlM (absorb limit masks) .start = .ok last
        ∧ Finished last
        ∧ (last.streams.toList.map fun entry => (entry.2.stream, entry.2.file))
          = tracks.map (trackOutput masks chunks) := by
  obtain ⟨first, rest, ids, rfl, tag, kind, others, declares, listed⟩ := container.directory
  obtain ⟨declared, read, lists⟩ := readDirectory_of_declares declares
  obtain ⟨view, runs, finals⟩ := view_of_container container tag masks
  have covered : ∀ {id : StreamId},
      id ∈ tracks.map Prod.fst ↔ ∃ chunk ∈ rest, chunk.id = some id := by
    intro id
    rw [container.covered]
    simp [Chunk.id_eq_none.mpr tag]
  have steps : Steps (Together (Takes masks) Chunk.id) rest
      (Demuxer.declaring declared).view view := by
    refine steps_together.mpr ⟨fun chunk member => ?_, runs⟩
    exact Option.ne_none_iff_exists'.mp fun none =>
      others chunk member (Chunk.id_eq_none.mp none)
  have total := container.total
  rw [mediaSize_directory rest kind] at total
  have budget : (Demuxer.declaring declared).total + mediaSize rest ≤ limit.toNat :=
    (Nat.zero_add _).trans_le total
  obtain ⟨last, folded, viewed⟩ := fold_of_steps rfl steps budget
    ((List.length_map Prod.fst).trans_le container.tracks_length)
    (fun member => absurd member Std.TreeMap.not_mem_emptyc)
    (fun chunk member id own => covered.mpr ⟨chunk, member, own⟩)
  have all := absorbsAll_of_fold rfl (Nat.zero_le _) folded
  have keys : ∀ {id : StreamId}, id ∈ last.streams ↔ id ∈ tracks.map Prod.fst := by
    intro id
    rw [all.keys, covered]
    simp [Demuxer.declaring, Demuxer.start]
  have ascending : (tracks.map Prod.fst).Pairwise fun id other => compare id other = .lt := by
    rw [List.pairwise_map]
    exact container.sorted.imp fun before => StreamId.compare_eq_lt.mpr before
  have same : tracks.map Prod.fst = last.streams.toList.map Prod.fst :=
    Table.ascending_unique ascending (keys_ascend last.streams) fun {id} => by
      rw [mem_keys, keys]
  have viewed : ∀ entry ∈ last.streams.toList, entry.2 = view entry.1 := by
    intro entry member
    have held := Std.TreeMap.mem_toList_iff_getElem?_eq_some.mp member
    rw [← viewed, Demuxer.view_eq held]
  have complete : ∀ entry ∈ last.streams.toList,
      entry.2.header = true ∧ entry.2.ended = true := by
    intro entry member
    have place : entry.1 ∈ tracks.map Prod.fst := same ▸ List.mem_map_of_mem member
    obtain ⟨track, among, named⟩ := List.mem_map.mp place
    rw [viewed entry member, ← named, finals track among]
    exact ⟨rfl, rfl⟩
  refine ⟨last, (fold_directory tag).mpr ⟨kind, declared, read, folded⟩, ?_, ?_⟩
  · constructor
    case declared =>
      rw [all.declared]
      refine (declared_iff lists).mpr (listed.imp_right fun listed => ?_)
      intro id
      rw [listed, keys]
    case complete => exact ⟨all.crid, complete⟩
    case video => exact (count_eq_of_keys same .sfv).symm.trans container.video
    case audio => exact count_eq_of_keys same .sfa ▸ container.audio
    case alpha => exact count_eq_of_keys same .alp ▸ container.alpha
  · calc last.streams.toList.map (fun entry => (entry.2.stream, entry.2.file))
      _ = (last.streams.toList.map Prod.fst).map
            fun id => ((view id).stream, (view id).file) := by
          rw [List.map_map]
          refine List.map_congr_left fun entry member => ?_
          rw [Function.comp_apply, viewed entry member]
      _ = (tracks.map Prod.fst).map fun id => ((view id).stream, (view id).file) := by rw [same]
      _ = tracks.map (trackOutput masks (first :: rest)) := by
          rw [List.map_map]
          refine List.map_congr_left fun track member => ?_
          rw [Function.comp_apply, finals track member, trackOutput, ← demask_eq_unmasked]
          rfl

-----------------------------------------------------------------------------------------
-- Extraction
-----------------------------------------------------------------------------------------

/-- Every track is written to a file of its own. -/
theorem Container.paths {chunks : List Chunk} {tracks : Tracks}
    (container : Container limit chunks tracks) (masks : Option Masks)
    : ((tracks.map (trackOutput masks chunks)).map fun output => output.1.path).Nodup := by
  have same : (tracks.map (trackOutput masks chunks)).map (fun output => output.1.path)
      = (tracks.map Prod.fst).map StreamId.path := by
    rw [List.map_map, List.map_map]
    refine List.map_congr_left fun track member => ?_
    exact (container.spelled track member).keeps.2
  rw [same]
  exact container.distinct.map StreamId.path_injective

/-- What `extract` returns are the tracks of the container that frames of the file spell. -/
theorem extract_ok {file : List UInt8} {key : Option UInt64} {result : List (Stream × List UInt8)}
    : extract file key limit = .ok result
      ↔ ∃ frames tracks,
          Tiles frames file
          ∧ Container limit (frames.map Frame.chunk) tracks
          ∧ result = tracks.map (trackOutput (key.map getMask) (frames.map Frame.chunk)) := by
  simp only [extract, bind_ok, loop_ok, finish_ok]
  constructor
  · rintro ⟨last, ⟨frames, tiles, framed, folded, -⟩, finished, rfl⟩
    obtain ⟨container, written⟩ := container_of_fold framed folded finished
    exact ⟨frames, _, tiles, container, written⟩
  · rintro ⟨frames, tracks, tiles, container, rfl⟩
    obtain ⟨last, folded, finished, written⟩ := fold_of_container container (key.map getMask)
    have framed : Framed limit (frames.map Frame.chunk) := by
      refine ⟨container.fits, fun chunk head => ?_⟩
      obtain ⟨first, rest, _, split, tag, -⟩ := container.directory
      rw [split] at head
      exact Option.mem_some_iff.mp head ▸ tag
    exact ⟨⟨file.length, last⟩, ⟨frames, tiles, framed, folded, rfl⟩, finished, written.symm⟩

/-- A directory that declares no stream. -/
def directoryPiece : List UInt8 :=
  [67, 82, 73, 68, 0, 0, 0, 75, 0, 24, 0, 0, 0, 0, 0, 1, 0, 0, 0, 0, 0, 0, 0, 0, 0, 0, 0, 0, 0,
    0, 0, 0, 64, 85, 84, 70, 0, 0, 0, 43, 0, 0, 0, 24, 0, 0, 0, 24, 0, 0, 0, 43, 0, 0, 0, 1, 0,
    0, 0, 0, 0, 0, 0, 1, 0, 67, 82, 73, 85, 83, 70, 95, 68, 73, 82, 95, 83, 84, 82, 69, 65, 77,
    0]

/-- A video stream of one payload. -/
def videoPieces : List (List UInt8) :=
  [[64, 83, 70, 86, 0, 0, 0, 227, 0, 24, 0, 0, 0, 0, 0, 1, 0, 0, 0, 0, 0, 0, 0, 0, 0, 0, 0, 0,
      0, 0, 0, 0, 64, 85, 84, 70, 0, 0, 0, 195, 0, 0, 0, 96, 0, 0, 0, 96, 0, 0, 0, 195, 0, 0,
      0, 1, 0, 8, 0, 0, 0, 0, 0, 1, 52, 0, 0, 0, 15, 0, 0, 0, 8, 52, 0, 0, 0, 21, 0, 0, 0, 8,
      52, 0, 0, 0, 28, 0, 0, 0, 7, 52, 0, 0, 0, 39, 0, 0, 0, 7, 52, 0, 0, 0, 51, 0, 0, 0, 2,
      52, 0, 0, 0, 64, 0, 0, 0, 30, 52, 0, 0, 0, 76, 0, 0, 0, 1, 52, 0, 0, 0, 88, 0, 0, 0, 1,
      0, 86, 73, 68, 69, 79, 95, 72, 68, 82, 73, 78, 70, 79, 0, 119, 105, 100, 116, 104, 0,
      104, 101, 105, 103, 104, 116, 0, 100, 105, 115, 112, 95, 119, 105, 100, 116, 104, 0, 100,
      105, 115, 112, 95, 104, 101, 105, 103, 104, 116, 0, 116, 111, 116, 97, 108, 95, 102, 114,
      97, 109, 101, 115, 0, 102, 114, 97, 109, 101, 114, 97, 116, 101, 95, 110, 0, 102, 114,
      97, 109, 101, 114, 97, 116, 101, 95, 100, 0, 109, 112, 101, 103, 95, 99, 111, 100, 101,
      99, 0],
    [64, 83, 70, 86, 0, 0, 0, 29, 0, 24, 0, 0, 0, 0, 0, 0, 0, 0, 0, 0, 0, 0, 0, 0, 0, 0, 0, 0,
      0, 0, 0, 0, 118, 105, 100, 101, 111],
    [64, 83, 70, 86, 0, 0, 0, 37, 0, 24, 0, 0, 0, 0, 0, 2, 0, 0, 0, 0, 0, 0, 0, 0, 0, 0, 0, 0,
      0, 0, 0, 0, 35, 67, 79, 78, 84, 69, 78, 84, 83, 32, 69, 78, 68]]

/-- An audio stream of one payload. -/
def audioPieces : List (List UInt8) :=
  [[64, 83, 70, 65, 0, 0, 0, 71, 0, 24, 0, 0, 0, 0, 0, 1, 0, 0, 0, 0, 0, 0, 0, 0, 0, 0, 0, 0,
      0, 0, 0, 0, 64, 85, 84, 70, 0, 0, 0, 39, 0, 0, 0, 24, 0, 0, 0, 24, 0, 0, 0, 39, 0, 0, 0,
      1, 0, 0, 0, 0, 0, 0, 0, 1, 0, 65, 85, 68, 73, 79, 95, 72, 68, 82, 73, 78, 70, 79, 0],
    [64, 83, 70, 65, 0, 0, 0, 29, 0, 24, 0, 0, 0, 0, 0, 0, 0, 0, 0, 0, 0, 0, 0, 0, 0, 0, 0, 0,
      0, 0, 0, 0, 97, 117, 100, 105, 111],
    [64, 83, 70, 65, 0, 0, 0, 37, 0, 24, 0, 0, 0, 0, 0, 2, 0, 0, 0, 0, 0, 0, 0, 0, 0, 0, 0, 0,
      0, 0, 0, 0, 35, 67, 79, 78, 84, 69, 78, 84, 83, 32, 69, 78, 68]]

/-- A chunk of kind 0 on channel 0. -/
def payloadPiece (signature : Signature) (payload : List UInt8) : List UInt8 :=
  signature.bytes
  ++ bigEndianBytes 4 (24 + payload.length)
  ++ ([0, 24] ++ List.replicate 22 0 ++ payload)

/-- With a key, a payload of the sound comes out of the audio mask, and one of the video that is too
short for its mask as it is.
-/
example
    : let payload := List.replicate 340 0
      let audio := audioPieces.set 1 (payloadPiece .sfa payload)
      (extract (directoryPiece ++ (videoPieces ++ audio).flatten) (some 7) 1200).toOption.map
          (List.map Prod.snd)
        = some [maskAudio payload (getMask 7).audio, "video".toUTF8.toList] := by
  decide +kernel

end MoenotesAssets.Usm
