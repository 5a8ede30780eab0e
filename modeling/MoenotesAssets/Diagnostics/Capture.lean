import MoenotesAssets.Foundation.Machine
import MoenotesAssets.Foundation.Retention

/-! `diagnostics.rs`: what is kept of the output of a subprocess, and what is returned and recorded
of it.
-/

namespace MoenotesAssets.Diagnostics

open Foundation Foundation.Machine

-----------------------------------------------------------------------------------------
-- Captures
-----------------------------------------------------------------------------------------

/-- `STDERR_LIMIT` -/
def stderrLimit : Nat := 16 * 1024

/-- `STDOUT_LIMIT` -/
def stdoutLimit : Nat := 1024 * 1024

/-- `diagnostics::Capture` -/
structure Capture where
  bytes : List UInt8
  total : Nat
deriving DecidableEq

/-- `Capture::default` -/
def Capture.default : Capture := { bytes := [], total := 0 }

/-- `u64::saturating_add` -/
def saturatingAdd (left right : Nat) : Nat := min (left + right) max64

/-- `VecDeque::drain(..count)`, which panics beyond the end. -/
def drainFront (bytes : List UInt8) (count : Nat) : Except Failure (List UInt8) := do
  ensure (count ≤ bytes.length) (.panic "range end index out of range")
  return bytes.drop count

/-- `Capture::append`. The two lengths that are added are lengths of allocations, whose sum is a
`usize`; the other subtractions saturate.
-/
def Capture.append (capture : Capture) (bytes : List UInt8) (limit : Nat) (tail : Bool)
    : Except Failure Capture := do
  let total := saturatingAdd capture.total bytes.length
  if tail then
    let data := bytes.drop (bytes.length - limit)
    let remove := capture.bytes.length + data.length - limit
    return { bytes := (← drainFront capture.bytes remove) ++ data, total }
  else
    let room ← subSize limit capture.bytes.length
    return { bytes := capture.bytes ++ bytes.take (min bytes.length room), total }

/-- A capture of some reads, one after another. -/
def accumulate (limit : Nat) (tail : Bool) (reads : List (List UInt8)) : Except Failure Capture :=
  reads.foldlM (fun result read => result.append read limit tail) .default

/-- What a capture of some bytes should be: those that are kept, and how many there were. -/
def Capture.of (limit : Nat) (tail : Bool) (data : List UInt8) : Capture :=
  { bytes := kept limit tail data, total := min data.length max64 }

@[simp] theorem Capture.of_bytes (limit : Nat) (tail : Bool) (data : List UInt8)
    : (Capture.of limit tail data).bytes = kept limit tail data := rfl

@[simp] theorem Capture.of_total (limit : Nat) (tail : Bool) (data : List UInt8)
    : (Capture.of limit tail data).total = min data.length max64 := rfl

/-- A read after some bytes leads from their capture to that of them with the read. Neither is
more subtracted than there is nor more drained.
-/
theorem append_of (limit : Nat) (tail : Bool) (data read : List UInt8)
    : (Capture.of limit tail data).append read limit tail
      = .ok (Capture.of limit tail (data ++ read)) := by
  have total : saturatingAdd (min data.length max64) read.length
      = min (data ++ read).length max64 := by
    rw [saturatingAdd, List.length_append]
    omega
  cases tail with
  | false =>
      have room : (data.take limit).length ≤ limit := by
        rw [List.length_take]
        exact Nat.min_le_left _ _
      have added : read.take (min read.length (limit - (data.take limit).length))
          = read.take (limit - (data.take limit).length) :=
        List.take_eq_take_iff.mpr (by omega)
      simp only [Capture.append, Capture.of, kept, Bool.false_eq_true, if_false, total,
        subSize_eq room, ok_bind, added, take_append_kept]
      rfl
  | true =>
      have inside : (data.rtake limit).length + (read.rtake limit).length - limit
          ≤ (data.rtake limit).length := by
        simp only [List.rtake, List.length_drop]
        omega
      have drained : drainFront (data.rtake limit)
          ((data.rtake limit).length + (read.rtake limit).length - limit)
          = .ok ((data.rtake limit).drop
              ((data.rtake limit).length + (read.rtake limit).length - limit)) := by
        rw [drainFront, ensure_passes (decide_eq_true inside)]
        rfl
      have last : read.drop (read.length - limit) = read.rtake limit := rfl
      simp only [Capture.append, Capture.of, kept, if_true, total, last, drained, ok_bind,
        rtake_append_kept]
      rfl

/-- The reads after some bytes lead to the capture of all of them, by induction on the reads. -/
theorem accumulate_of (limit : Nat) (tail : Bool) (reads : List (List UInt8)) (data : List UInt8)
    : reads.foldlM (fun result read => Capture.append result read limit tail)
        (Capture.of limit tail data)
      = .ok (Capture.of limit tail (data ++ reads.flatten)) := by
  induction reads generalizing data with
  | nil =>
      rw [List.foldlM_nil, List.flatten_nil, List.append_nil]
      rfl
  | cons read rest ih =>
      rw [List.foldlM_cons, append_of, ok_bind, ih, List.flatten_cons, List.append_assoc]

/-- Nothing is captured at first. -/
theorem default_of (limit : Nat) (tail : Bool) : Capture.default = Capture.of limit tail [] := by
  rw [Capture.of, kept_whole tail (Nat.zero_le limit)]
  rfl

-----------------------------------------------------------------------------------------
-- Pipes
-----------------------------------------------------------------------------------------

/-- What the reads from a pipe return: some bytes, up to those of the buffer, as long as there are
more, and no bytes at the end, unless a read fails.
-/
inductive Pipe where
  | ended
  | broken (message : String)
  | read (bytes : List UInt8) (some : bytes ≠ []) (fits : bytes.length ≤ 8192) (rest : Pipe)

/-- The loop of `drain` and of `drain_async`. -/
def drainInto (limit : Nat) (tail : Bool) : Capture → Pipe → Except Failure Capture
  | result, .ended => .ok result
  | _, .broken message => .error (.error message)
  | result, .read bytes _ _ rest => do
      drainInto limit tail (← result.append bytes limit tail) rest

/-- `drain` and `drain_async` -/
def drain (input : Pipe) (limit : Nat) (tail : Bool) : Except Failure Capture :=
  drainInto limit tail .default input

/-- `drain_stderr` -/
def drainStderr (input : Pipe) : Except Failure Capture := drain input stderrLimit true

/-- All that was written to a pipe, if it was read up to its end. -/
def Pipe.output : Pipe → Except Failure (List UInt8)
  | .ended => .ok []
  | .broken message => .error (.error message)
  | .read bytes _ _ rest => do return bytes ++ (← rest.output)

/-- Draining a pipe captures its output, by induction on the reads. -/
theorem drainInto_of (limit : Nat) (tail : Bool) (input : Pipe) (data : List UInt8)
    : drainInto limit tail (Capture.of limit tail data) input
      = do return Capture.of limit tail (data ++ (← input.output)) := by
  induction input generalizing data with
  | ended =>
      rw [drainInto, Pipe.output, ok_bind, List.append_nil]
      rfl
  | broken message => rfl
  | read bytes some fits rest ih =>
      rw [drainInto, append_of, ok_bind, ih, Pipe.output]
      cases rest.output with
      | error failure => rfl
      | ok more => simp only [bind, Except.bind, pure, Except.pure, List.append_assoc]

/-- A drained pipe ended, and what was captured is that of its output. -/
theorem drain_ok {input : Pipe} {limit : Nat} {tail : Bool} {capture : Capture}
    : drain input limit tail = .ok capture
      ↔ ∃ data, input.output = .ok data ∧ capture = Capture.of limit tail data := by
  rw [drain, default_of limit tail, drainInto_of, bind_ok]
  refine exists_congr fun data => and_congr_right fun _ => ?_
  rw [pure_ok, List.nil_append, eq_comm]

-----------------------------------------------------------------------------------------
-- Failures of processes
-----------------------------------------------------------------------------------------

/-- `ExitStatus`: a code, or the signal that ended the process. -/
inductive ExitStatus where
  | exited (code : Nat)
  | signaled (signal : Nat)
deriving DecidableEq

/-- `ExitStatus::success` -/
def ExitStatus.success : ExitStatus → Bool
  | .exited code => code == 0
  | .signaled _ => false

/-- `ExitStatus::code` -/
def ExitStatus.code : ExitStatus → Option Nat
  | .exited code => some code
  | .signaled _ => none

/-- `ExitStatus::signal` -/
def ExitStatus.signal : ExitStatus → Option Nat
  | .exited _ => none
  | .signaled signal => some signal

/-- `ProcessFailure` -/
structure ProcessFailure where
  code : String
  stage : String
  tool : String
  exitCode : Option Nat
  signal : Option Nat
deriving DecidableEq

/-- What `failure` saves; the tail before `Capture::text` decodes it. -/
structure Diagnostic where
  failure : ProcessFailure
  stderrTail : List UInt8
  stderrBytes : Nat
  stderrTruncated : Bool
deriving DecidableEq

/-- An error of a subprocess: one that is recorded, or another one. -/
inductive Refusal where
  | process (diagnostic : Diagnostic)
  | other (failure : Failure)
deriving DecidableEq

/-- `diagnostics::failure` -/
def failure (code stage tool : String) (status : Option ExitStatus) (stderr : Capture) : Refusal :=
  .process
    {
      failure :=
        {
          code
          stage
          tool
          exitCode := status.bind ExitStatus.code
          signal := status.bind ExitStatus.signal
        }
      stderrTail := stderr.bytes
      stderrBytes := stderr.total
      stderrTruncated := stderrLimit < stderr.total
    }

-----------------------------------------------------------------------------------------
-- Subprocesses
-----------------------------------------------------------------------------------------

/-- The pipes of a subprocess. -/
structure Pipes where
  stdout : Pipe
  stderr : Pipe

/-- `std::process::Child` -/
structure Child extends Pipes where
  wait : Except String ExitStatus

/-- `join().expect(..)`: a panic of the thread is one of the caller. -/
def joined (drained : Except Failure Capture) : Except Refusal (Except Failure Capture) :=
  match drained with
  | .error (.panic message) => .error (.other (.panic message))
  | done => .ok done

/-- `context(..)?` -/
def described {ε α : Type} (found : Except ε α) (message : String) : Except Refusal α :=
  found.mapError fun _ => .other (.error message)

/-- `nix::libc::SIGXCPU` -/
def sigXcpu : Nat := 24

/-- The code of a failed `capture`. -/
def captureCode (stage : String) (status : ExitStatus) (out : Capture) : String :=
  if stdoutLimit < out.total then "process_output_limit"
  else if status.signal = some sigXcpu then "process_cpu_limit"
  else if status.signal.isSome then "process_signal"
  else
    match stage with
    | "probe" => "media_probe_failed"
    | "verify" => "media_verify_failed"
    | "decode" => "media_decode_failed"
    | _ => "media_encode_failed"

/-- `diagnostics::capture` -/
def capture (stage tool : String) (spawned : Except String Child)
    : Except Refusal (List UInt8) := do
  match spawned with
  | .error _ => .error (failure "process_spawn_failed" stage tool none .default)
  | .ok child => do
      let out ← joined (drain child.stdout stdoutLimit false)
      let err ← joined (drain child.stderr stderrLimit true)
      let status ← described child.wait "process wait failed"
      let out ← described out "process stdout read failed"
      let err ← described err "process stderr read failed"
      if !status.success || stdoutLimit < out.total then
        .error (failure (captureCode stage status out) stage tool (some status) err)
      else .ok out.bytes

/-- `tokio::process::Child`: its id, what waiting for it yields before a deadline, and the status
with which it is reaped.
-/
structure AsyncChild extends Pipes where
  id : Option Nat
  wait : Option (Except String ExitStatus)
  reaped : Option ExitStatus

/-- `await.context(..)??` of a task that drains a pipe. -/
def awaited (drained : Except Failure Capture) (message : String) : Except Refusal Capture :=
  match drained with
  | .error (.panic _) => .error (.other (.error message))
  | .error failure => .error (.other failure)
  | .ok capture => .ok capture

/-- `diagnostics::inspect_tool` -/
def inspectTool (tool : String) (spawned : Except String AsyncChild)
    : Except Refusal (List UInt8) := do
  match spawned with
  | .error _ => .error (failure "process_spawn_failed" "startup" tool none .default)
  | .ok child => do
      let _ ← context child.id (.other (.error "media tool PID"))
      let out ← awaited (drain child.stdout stdoutLimit false) "tool stdout task"
      let err ← awaited (drainStderr child.stderr) "tool stderr task"
      match child.wait with
      | some (.ok status) =>
          if !status.success || stdoutLimit < out.total then
            .error (failure "process_startup_failed" "startup" tool (some status) err)
          else .ok out.bytes
      | _ =>
          .error
            (failure "process_startup_timeout_or_wait_failed" "startup" tool child.reaped err)

/-- `App::export_one` for the end of its worker: the status that it waited for, or the code of what
it met instead, and the status with which the worker is reaped.
-/
def workerEnded (outcome : Except String ExitStatus) (reaped : Option ExitStatus) (stderr : Pipe)
    : Except Refusal Unit := do
  let stderr ← awaited (drainStderr stderr) "worker stderr task"
  match outcome with
  | .error code => .error (failure code "worker" "worker" reaped stderr)
  | .ok status =>
      if status.success then .ok ()
      else
        let code :=
          if status.signal = some sigXcpu then "worker_cpu_limit"
          else if status.signal.isSome then "worker_signal"
          else "worker_exit_failed"
        .error (failure code "worker" "worker" (some status) stderr)

-----------------------------------------------------------------------------------------
-- What a subprocess wrote
-----------------------------------------------------------------------------------------

section Output

variable {drained : Except Failure Capture} {message stage tool : String} {data : List UInt8}
  {diagnostic : Diagnostic}

/-- A thread that is joined has returned what it drained. -/
theorem joined_ok {done : Except Failure Capture} (joins : joined drained = .ok done)
    : drained = done := by
  unfold joined at joins
  split at joins
  · cases joins
  · exact Except.ok.inj joins

/-- A task that is awaited without an error has drained its pipe. -/
theorem awaited_ok {result : Capture} (awaits : awaited drained message = .ok result)
    : drained = .ok result := by
  unfold awaited at awaits
  split at awaits
  · cases awaits
  · cases awaits
  · rw [Except.ok.inj awaits]

/-- A described value is the value. -/
theorem described_ok {ε α : Type} {found : Except ε α} {value : α}
    : described found message = .ok value ↔ found = .ok value :=
  mapError_ok _

/-- The error of a thread that is joined is none that is recorded. -/
theorem joined_avoids (drained : Except Failure Capture)
    : Avoids (.process diagnostic) (joined drained) := by
  intro joins
  unfold joined at joins
  split at joins <;> cases joins

/-- The error of a task that is awaited is none that is recorded. -/
theorem awaited_avoids (drained : Except Failure Capture) (message : String)
    : Avoids (.process diagnostic) (awaited drained message) := by
  intro awaits
  unfold awaited at awaits
  split at awaits <;> cases awaits

/-- A described error is none that is recorded. -/
theorem described_avoids {ε α : Type} (found : Except ε α) (message : String)
    : Avoids (.process diagnostic) (described found message) := by
  intro describes
  cases found <;> cases describes

/-- A capture whose total is within its limit has all bytes. -/
theorem bytes_of {limit : Nat} {tail : Bool} (inside : (Capture.of limit tail data).total ≤ limit)
    (small : limit < max64)
    : (Capture.of limit tail data).bytes = data := by
  rw [Capture.of_total] at inside
  exact kept_whole tail (by omega)

/-- What a diagnostic tells about what was written to the standard error: its last bytes, how many
there were, and whether any were dropped.
-/
structure Diagnostic.Reports (diagnostic : Diagnostic) (written : List UInt8) : Prop where
  tail : diagnostic.stderrTail = written.rtake stderrLimit
  bytes : diagnostic.stderrBytes = min written.length max64
  truncated
    : diagnostic.stderrTruncated = true ↔ diagnostic.stderrTail.length < written.length

/-- A failure with the capture of a standard error reports it. -/
theorem failure_reports {code : String} {status : Option ExitStatus} {written : List UInt8}
    (recorded
      : failure code stage tool status (Capture.of stderrLimit true written) = .process diagnostic)
    : diagnostic.Reports written := by
  rw [failure, Refusal.process.injEq] at recorded
  subst recorded
  constructor
  case tail =>
    dsimp only [Capture.of_bytes, kept]
    rw [if_pos rfl]
  case bytes => exact Capture.of_total stderrLimit true written
  case truncated =>
    dsimp only
    rw [decide_eq_true_eq, Capture.of_total, Capture.of_bytes, length_kept, stderrLimit, max64]
    omega

/-- What was written to the standard error of a subprocess, nothing if it was not spawned. -/
def written (spawned : Except String Pipes) : Except Failure (List UInt8) :=
  match spawned with
  | .error _ => .ok []
  | .ok pipes => pipes.stderr.output

/-- `capture` returns all that was written to the standard output. -/
theorem capture_ok {spawned : Except String Child}
    (captured : capture stage tool spawned = .ok data)
    : ∃ child, spawned = .ok child ∧ child.stdout.output = .ok data := by
  cases spawned with
  | error message => cases captured
  | ok child =>
      simp only [capture, bind_ok, described_ok] at captured
      obtain ⟨_, outJoined, _, -, status, -, out, rfl, _, -, returned⟩ := captured
      obtain ⟨output, whole, rfl⟩ := drain_ok.mp (joined_ok outJoined)
      split at returned
      · cases returned
      · rename_i passes
        rw [Bool.not_eq_true, Bool.or_eq_false_iff, decide_eq_false_iff_not, Nat.not_lt] at passes
        rw [bytes_of passes.2 (by decide)] at returned
        exact ⟨child, rfl, Except.ok.inj returned ▸ whole⟩

/-- `capture` records what was written to the standard error. -/
theorem capture_recorded {spawned : Except String Child}
    (captured : capture stage tool spawned = .error (.process diagnostic))
    : ∃ error,
        written (spawned.map Child.toPipes) = .ok error ∧ diagnostic.Reports error := by
  cases spawned with
  | error message =>
      refine ⟨[], rfl, ?_⟩
      rw [capture, default_of stderrLimit true, Except.error.injEq] at captured
      exact failure_reports captured
  | ok child =>
      rw [capture, (joined_avoids _).bind_error] at captured
      obtain ⟨out, -, captured⟩ := captured
      rw [(joined_avoids _).bind_error] at captured
      obtain ⟨err, errJoined, captured⟩ := captured
      rw [(described_avoids _ _).bind_error] at captured
      obtain ⟨status, -, captured⟩ := captured
      rw [(described_avoids _ _).bind_error] at captured
      obtain ⟨out, -, captured⟩ := captured
      rw [(described_avoids _ _).bind_error] at captured
      obtain ⟨err, found, captured⟩ := captured
      obtain rfl := described_ok.mp found
      obtain ⟨error, whole, rfl⟩ := drain_ok.mp (joined_ok errJoined)
      refine ⟨error, whole, ?_⟩
      split at captured
      · exact failure_reports (Except.error.inj captured)
      · cases captured

/-- `inspect_tool` returns all that was written to the standard output. -/
theorem inspectTool_ok {spawned : Except String AsyncChild}
    (inspected : inspectTool tool spawned = .ok data)
    : ∃ child, spawned = .ok child ∧ child.stdout.output = .ok data := by
  cases spawned with
  | error message => cases inspected
  | ok child =>
      simp only [inspectTool, bind_ok] at inspected
      obtain ⟨_, -, out, outDone, _, -, returned⟩ := inspected
      obtain ⟨output, whole, rfl⟩ := drain_ok.mp (awaited_ok outDone)
      split at returned
      case h_2 => cases returned
      split at returned
      · cases returned
      · rename_i passes
        rw [Bool.not_eq_true, Bool.or_eq_false_iff, decide_eq_false_iff_not, Nat.not_lt] at passes
        rw [bytes_of passes.2 (by decide)] at returned
        exact ⟨child, rfl, Except.ok.inj returned ▸ whole⟩

/-- A task that drains a standard error ends with the capture of what was written to it. -/
theorem drainStderr_ok {stderr : Pipe} {result : Capture}
    (awaits : awaited (drainStderr stderr) message = .ok result)
    : ∃ error, stderr.output = .ok error ∧ result = Capture.of stderrLimit true error :=
  drain_ok.mp (awaited_ok awaits)

/-- `inspect_tool` records what was written to the standard error. -/
theorem inspectTool_recorded {spawned : Except String AsyncChild}
    (inspected : inspectTool tool spawned = .error (.process diagnostic))
    : ∃ error,
        written (spawned.map AsyncChild.toPipes) = .ok error ∧ diagnostic.Reports error := by
  cases spawned with
  | error message =>
      refine ⟨[], rfl, ?_⟩
      rw [inspectTool, default_of stderrLimit true, Except.error.injEq] at inspected
      exact failure_reports inspected
  | ok child =>
      have unknown : Refusal.other (.error "media tool PID") ≠ .process diagnostic := nofun
      rw [inspectTool, (Avoids.context child.id unknown).bind_error] at inspected
      obtain ⟨_, -, inspected⟩ := inspected
      rw [(awaited_avoids _ _).bind_error] at inspected
      obtain ⟨out, -, inspected⟩ := inspected
      rw [(awaited_avoids _ _).bind_error] at inspected
      obtain ⟨err, errDone, inspected⟩ := inspected
      obtain ⟨error, whole, rfl⟩ := drainStderr_ok errDone
      refine ⟨error, whole, ?_⟩
      split at inspected
      case h_2 => exact failure_reports (Except.error.inj inspected)
      split at inspected
      · exact failure_reports (Except.error.inj inspected)
      · cases inspected

/-- The end of a worker is recorded with what it wrote to its standard error. -/
theorem workerEnded_recorded {outcome : Except String ExitStatus} {reaped : Option ExitStatus}
    {stderr : Pipe} (ended : workerEnded outcome reaped stderr = .error (.process diagnostic))
    : ∃ error, stderr.output = .ok error ∧ diagnostic.Reports error := by
  rw [workerEnded, (awaited_avoids _ _).bind_error] at ended
  obtain ⟨err, errDone, ended⟩ := ended
  obtain ⟨error, whole, rfl⟩ := drainStderr_ok errDone
  refine ⟨error, whole, ?_⟩
  split at ended
  · exact failure_reports (Except.error.inj ended)
  · split at ended
    · cases ended
    · exact failure_reports (Except.error.inj ended)

end Output

-----------------------------------------------------------------------------------------
-- All of it
-----------------------------------------------------------------------------------------

/-- A capture holds exactly what it should of some bytes: the last ones or the first ones, up to
its limit, and their number up to the largest counter.
-/
structure Capture.Holds (capture : Capture) (limit : Nat) (tail : Bool) (data : List UInt8)
    : Prop where
  last : tail = true → capture.bytes <:+ data
  first : tail = false → capture.bytes <+: data
  length : capture.bytes.length = min limit data.length
  total : capture.total = min data.length max64

/-- The capture of some bytes holds them. -/
theorem Capture.of_holds (limit : Nat) (tail : Bool) (data : List UInt8)
    : (Capture.of limit tail data).Holds limit tail data := by
  constructor
  case last =>
    rintro rfl
    exact List.drop_suffix _ _
  case first =>
    rintro rfl
    exact List.take_prefix _ _
  case length => exact length_kept limit tail data
  case total => exact Capture.of_total limit tail data

/-- Whatever is read in whatever pieces, exactly the last or the first bytes are held, up to the
limit, and they are counted up to the largest counter; what a tool is captured or inspected for is
all that it wrote, and its diagnostics tell whether bytes of its standard error were dropped, as do
those of a worker.
-/
theorem captures_exactly
    : (∀ (limit : Nat) (tail : Bool) (reads : List (List UInt8)),
        ∃ capture,
          accumulate limit tail reads = .ok capture
          ∧ capture.Holds limit tail reads.flatten)
      ∧ (∀ {stage tool : String} {spawned : Except String Child},
          (∀ {data : List UInt8},
            capture stage tool spawned = .ok data
            → ∃ child, spawned = .ok child ∧ child.stdout.output = .ok data)
          ∧ ∀ {diagnostic : Diagnostic},
              capture stage tool spawned = .error (.process diagnostic)
              → ∃ error,
                  written (spawned.map Child.toPipes) = .ok error ∧ diagnostic.Reports error)
      ∧ (∀ {tool : String} {spawned : Except String AsyncChild},
          (∀ {data : List UInt8},
            inspectTool tool spawned = .ok data
            → ∃ child, spawned = .ok child ∧ child.stdout.output = .ok data)
          ∧ ∀ {diagnostic : Diagnostic},
              inspectTool tool spawned = .error (.process diagnostic)
              → ∃ error,
                  written (spawned.map AsyncChild.toPipes) = .ok error
                  ∧ diagnostic.Reports error)
      ∧ ∀ {outcome : Except String ExitStatus} {reaped : Option ExitStatus} {stderr : Pipe}
          {diagnostic : Diagnostic},
          workerEnded outcome reaped stderr = .error (.process diagnostic)
          → ∃ error, stderr.output = .ok error ∧ diagnostic.Reports error := by
  refine ⟨fun limit tail reads => ?_, ⟨capture_ok, capture_recorded⟩,
    ⟨inspectTool_ok, inspectTool_recorded⟩, workerEnded_recorded⟩
  refine ⟨Capture.of limit tail reads.flatten, ?_, Capture.of_holds limit tail _⟩
  rw [accumulate, default_of limit tail, accumulate_of, List.nil_append]

/-- The bytes that are counted in pieces of 8192 do not fit into the counter. -/
theorem total_saturates
    : ¬∀ (limit : Nat) (tail : Bool) (reads : List (List UInt8)),
        ∃ capture,
          accumulate limit tail reads = .ok capture ∧ capture.total = reads.flatten.length := by
  intro counts
  obtain ⟨capture, accumulated, counted⟩ :=
    counts stderrLimit true (List.replicate (2 ^ 51) (List.replicate 8192 0))
  rw [accumulate, default_of stderrLimit true, accumulate_of] at accumulated
  obtain rfl := Except.ok.inj accumulated
  rw [Capture.of_total, List.nil_append, List.flatten_replicate_replicate,
    List.length_replicate] at counted
  exact absurd counted (by decide)

/-- A pipe with two bytes. -/
def shortPipe : Pipe := .read [0x6F, 0x6B] nofun (by decide) .ended

/-- A process that writes two bytes to either pipe and ends with a code. -/
def shortChild (code : Nat) : Child :=
  { stdout := shortPipe, stderr := shortPipe, wait := .ok (.exited code) }

/-- The same process as a tool that is inspected. -/
def shortTool (code : Nat) : AsyncChild :=
  {
    stdout := shortPipe
    stderr := shortPipe
    id := some 1
    wait := some (.ok (.exited code))
    reaped := some (.exited code)
  }

/-- What is recorded of a process that ended with the code 1. -/
def shortDiagnostic (code stage tool : String) : Diagnostic :=
  {
    failure := { code, stage, tool, exitCode := some 1, signal := none }
    stderrTail := [0x6F, 0x6B]
    stderrBytes := 2
    stderrTruncated := false
  }

/-- Two bytes are returned when the process succeeds, and reported when it fails. -/
theorem captures_exactly_short
    : (shortChild 0).stdout.output = .ok [0x6F, 0x6B]
      ∧ (shortTool 0).stdout.output = .ok [0x6F, 0x6B]
      ∧ (shortDiagnostic "media_probe_failed" "probe" "ffprobe").Reports [0x6F, 0x6B]
      ∧ (shortDiagnostic "process_startup_failed" "startup" "ffmpeg").Reports [0x6F, 0x6B]
      ∧ (shortDiagnostic "worker_exit_failed" "worker" "worker").Reports [0x6F, 0x6B] := by
  obtain ⟨-, captured, inspected, ended⟩ := captures_exactly
  have passes : capture "probe" "ffprobe" (.ok (shortChild 0)) = .ok [0x6F, 0x6B] := by decide
  have fails : capture "probe" "ffprobe" (.ok (shortChild 1))
      = .error (.process (shortDiagnostic "media_probe_failed" "probe" "ffprobe")) := by
    decide
  have starts : inspectTool "ffmpeg" (.ok (shortTool 0)) = .ok [0x6F, 0x6B] := by decide
  have stops : inspectTool "ffmpeg" (.ok (shortTool 1))
      = .error (.process (shortDiagnostic "process_startup_failed" "startup" "ffmpeg")) := by
    decide
  have exits : workerEnded (.ok (.exited 1)) none shortPipe
      = .error (.process (shortDiagnostic "worker_exit_failed" "worker" "worker")) := by
    decide
  obtain ⟨_, spawned, whole⟩ := captured.1 passes
  obtain rfl := Except.ok.inj spawned
  obtain ⟨_, opened, complete⟩ := inspected.1 starts
  obtain rfl := Except.ok.inj opened
  obtain ⟨first, wrote, reported⟩ := captured.2 fails
  obtain rfl := Except.ok.inj wrote
  obtain ⟨second, wrote', inspection⟩ := inspected.2 stops
  obtain rfl := Except.ok.inj wrote'
  obtain ⟨third, wrote'', worked⟩ := ended exits
  obtain rfl := Except.ok.inj wrote''
  exact ⟨whole, complete, reported, inspection, worked⟩

end MoenotesAssets.Diagnostics
