import IrohEndpoint.System.Step

/-!
# A send stream

One `SendStreamRes` of a bound endpoint, with the calls on it that are in flight and
noq's side of the stream. Its bytes come from *writers*: a `write` call, or a
`write_via_stream` call, which reads buffers from a byte stream and writes each of them.
Both write through `write_all`, whose poll offers noq the rest of a payload until noq
has taken it or gives no more (`SendSys.WriteAll`).

A step (`SendStep`) is one synchronous piece of a call, its cancellation at an `await`,
or a step of the rest of the endpoint. Every call that writes is recorded when it is
made, with what noq accepts of it and how it ends (`WriteCall`).

How noq answers is free, but for one thing: it accepts at most what it is offered
(`Offered`). The drop of the resource is a `reset`, unless the stream has ended.
-/

namespace IrohEndpoint

open Transition

/-! ## noq's side -/

/-- noq's send half of a stream. -/
structure NoqSend where
  /-- The bytes that noq accepted, in order. -/
  accepted : Bytes
  /-- How many it had accepted each time that `finish` reached it. -/
  fins : List ℕ

/-- How noq answers a `finish`. -/
inductive FinishAnswer
  | finished
  | stopped (code : ℕ)
  | closedStream
  deriving DecidableEq

/-- noq's answers to the writes of `len` bytes, by offset: it accepts at most what it is
    offered. -/
def Offered (answer : ℕ → WriteAnswer) (len : ℕ) : Prop :=
  ∀ offset count, answer offset = .written count → count ≤ len - offset

namespace NoqSend

/-- A stream to which nothing was written yet. -/
def new : NoqSend := ⟨[], []⟩

/-- noq is offered `data`, and accepts the first bytes of it. -/
def write (n : NoqSend) (data : Bytes) : WriteAnswer → NoqSend
  | .written count => { n with accepted := n.accepted ++ data.take count }
  | .blocked | .stopped _ | .closedStream => n

/-- The writes of one pass of `write_all` over `bytes` from `offset`
    (`State.writePass`). -/
def pass (bytes : Bytes) (answer : ℕ → WriteAnswer) : ℕ → ℕ → NoqSend → NoqSend
  | 0, _, n => n
  | fuel + 1, offset, n =>
    let n := n.write (bytes.drop offset) (answer offset)
    match answer offset with
    | .written count =>
      if offset + count = bytes.length then n
      else if count = 0 then n
      else pass bytes answer fuel (offset + count) n
    | .blocked | .stopped _ | .closedStream => n

/-- `finish` reaches noq. -/
def finish (n : NoqSend) : NoqSend := { n with fins := n.fins ++ [n.accepted.length] }

end NoqSend

/-! ## The resource -/

/-- The fields of a `SendStreamRes` that its calls share. -/
structure SendStreamRes where
  streaming : Bool
  writing : Bool
  ended : Bool

namespace SendStreamRes

/-- A resource that was not used yet. -/
def new : SendStreamRes := ⟨false, false, false⟩

/-- How `write` begins: it is refused, or claims the stream. -/
def write (res : SendStreamRes) : SendStreamRes × Option Error :=
  if res.streaming then
    (res, some (.inUse "the stream's writes were taken by write-via-stream"))
  -- `replace(true)` has set the flag, which was up already.
  else if res.writing then
    ({ res with writing := true },
      some (.inUse "a write is already in flight on this stream"))
  else ({ res with writing := true }, none)

/-- Whether `finish` is refused. -/
def finish (res : SendStreamRes) : Option Error :=
  if res.streaming then some (.inUse "the stream's writes were taken by write-via-stream")
  -- A FIN under an in-flight write would truncate it.
  else if res.writing then some (.inUse "a write is in flight on this stream")
  else none

/-- How `write_via_stream` begins. -/
def writeViaStream (res : SendStreamRes) : SendStreamRes × Option Error :=
  if res.streaming then (res, some (.inUse "write-via-stream may be called once"))
  -- Refused without claiming: the call had no effect.
  else if res.writing then
    ({ res with writing := true },
      some (.inUse "a write is already in flight on this stream"))
  else ({ res with writing := true, streaming := true }, none)

/-- A `write` that is refused changes no flag. -/
theorem write_some {res res' : SendStreamRes} {err : Error} (h : res.write = (res', some err)) :
    res' = res ∧ ∃ detail, err = .inUse detail := by
  rw [write] at h
  split at h
  · cases h
    exact ⟨rfl, _, rfl⟩
  · split at h <;> rename_i hwriting <;> cases h
    exact ⟨by rw [← hwriting], _, rfl⟩

/-- A `write` that goes on has claimed a stream that nothing claims. -/
theorem write_none {res res' : SendStreamRes} (h : res.write = (res', none)) :
    res.writing = false ∧ res' = { res with writing := true } := by
  rw [write] at h
  split at h
  · cases h
  · split at h <;> rename_i hwriting <;> cases h
    exact ⟨Bool.eq_false_iff.2 hwriting, rfl⟩

/-- A `finish` that is refused is refused with in-use. -/
theorem finish_some {res : SendStreamRes} {err : Error} (h : res.finish = some err) :
    ∃ detail, err = .inUse detail := by
  rw [finish] at h
  split at h
  · cases h
    exact ⟨_, rfl⟩
  · split at h <;> cases h
    exact ⟨_, rfl⟩

/-- A `finish` that goes on has found no write in flight. -/
theorem finish_none {res : SendStreamRes} (h : res.finish = none) : res.writing = false := by
  rw [finish] at h
  split at h
  · cases h
  · split at h <;> rename_i hwriting
    · cases h
    · exact Bool.eq_false_iff.2 hwriting

/-- A `write_via_stream` that is refused changes no flag. -/
theorem writeViaStream_some {res res' : SendStreamRes} {err : Error}
    (h : res.writeViaStream = (res', some err)) : res' = res ∧ ∃ detail, err = .inUse detail := by
  rw [writeViaStream] at h
  split at h
  · cases h
    exact ⟨rfl, _, rfl⟩
  · split at h <;> rename_i hwriting <;> cases h
    exact ⟨by rw [← hwriting], _, rfl⟩

/-- A `write_via_stream` that goes on has claimed a stream that nothing claims. -/
theorem writeViaStream_none {res res' : SendStreamRes} (h : res.writeViaStream = (res', none)) :
    res.writing = false ∧ res' = { res with writing := true, streaming := true } := by
  rw [writeViaStream] at h
  split at h
  · cases h
  · split at h <;> rename_i hwriting <;> cases h
    exact ⟨Bool.eq_false_iff.2 hwriting, rfl⟩

end SendStreamRes

/-- `do_finish`: what it returns, with noq's answer. -/
def State.doFinish (s : State) (handle : ConnectionHandle) (epoch : ℕ) (answer : FinishAnswer) :
    State × Except Error Unit :=
  match s.entryFor handle epoch with
  | none => (s, .error .closed)
  | some entry =>
    match entry.error with
    | some err => (s, .error err)
    | none =>
      match answer with
      | .finished => (s.kickPump, .ok ())
      | .stopped code => (s, .error (.reset code))
      | .closedStream => (s, .error .closed)

/-! ## The system -/

/-- A writer of the stream. -/
inductive Writer
  /-- A `write` call of `bytes`, of which those before `offset` are written. -/
  | write (bytes : Bytes) (offset : ℕ)
  /-- A `write_via_stream` call that waits for its byte stream, or writes a buffer of it;
      `more` says whether the byte stream goes on. -/
  | via
  | viaWriting (buf : Bytes) (offset : ℕ) (more : Bool)

/-- How far a call has come. -/
inductive CallOutcome
  | inFlight
  | returned (result : Except Error Unit)
  | cancelled

/-- A call of `write` or `write_via_stream`. -/
structure WriteCall where
  id : TaskId
  /-- The bytes to write: for `write_via_stream`, those it has read. -/
  payload : Bytes
  /-- What noq accepted of them. -/
  accepted : Bytes
  outcome : CallOutcome

/-- A send stream with its surroundings. -/
structure SendSys where
  sys : Sys
  noq : NoqSend
  res : SendStreamRes
  writers : Table TaskId Writer
  /-- The calls that were made, in order. -/
  calls : List WriteCall

namespace SendSys

variable (stream : StreamRes) (s : SendSys)

/-- How the stream's connection has failed. -/
def failure : Option Error :=
  match s.sys.st.entryFor stream.handle stream.epoch with
  | none => some .closed
  | some e => e.error

/-- One poll of `write_all`: the states it leaves, the new offset, and the outcome unless
    it parks. -/
inductive WriteAll (bytes : Bytes) (offset : ℕ) :
    State → NoqSend → ℕ → Option (Except Error Unit) → Prop
  | failed {answer : ℕ → WriteAnswer} {st : State} {offset' : ℕ}
      {outcome : Option (Except Error Unit)} :
      s.failure stream ≠ none →
      s.sys.st.writeAllCheck stream.handle stream.epoch answer bytes.length offset =
        (st, offset', outcome) →
      WriteAll bytes offset st s.noq offset' outcome
  | asked {answer : ℕ → WriteAnswer} {st : State} {offset' : ℕ}
      {outcome : Option (Except Error Unit)} :
      s.failure stream = none → Offered answer bytes.length →
      s.sys.st.writeAllCheck stream.handle stream.epoch answer bytes.length offset =
        (st, offset', outcome) →
      WriteAll bytes offset st (s.noq.pass bytes answer (bytes.length + 1) offset) offset' outcome

/-- The record of the call `id` changes. -/
def record (id : TaskId) (f : WriteCall → WriteCall) : SendSys :=
  { s with calls := s.calls.map fun c => if c.id = id then f c else c }

/-- The call `id` was polled: noq may have accepted some of its bytes. -/
def polled (id : TaskId) (st : State) (noq : NoqSend) : SendSys :=
  record { s with sys := { s.sys with st := st }, noq := noq } id fun c =>
    { c with accepted := c.accepted ++ noq.accepted.drop s.noq.accepted.length }

/-- The writer `id` goes on. -/
def setWriter (id : TaskId) (writer : Writer) : SendSys :=
  { s with writers := s.writers.insert id writer }

/-- The call `id` parks. -/
def park (id : TaskId) : SendSys :=
  { s with sys := { s.sys with st := { s.sys.st with waiters := id :: s.sys.st.waiters } } }

/-- The call `id` ends, and the drop of `Unclaim` releases its claim. -/
def release (id : TaskId) (outcome : CallOutcome) : SendSys :=
  { s.record id fun c => { c with outcome := outcome } with
    res := { s.res with writing := false }
    writers := s.writers.erase id }

/-- `do_finish`: a connection that has failed is not asked. -/
def doFinish (answer : FinishAnswer) : SendSys :=
  { s with
    sys := { s.sys with st := (s.sys.st.doFinish stream.handle stream.epoch answer).1 }
    res := { s.res with ended := true }
    noq := if s.failure stream = none then s.noq.finish else s.noq }

/-- The `write_via_stream` call `id` finishes its stream, and returns. -/
def viaEnd (id : TaskId) (answer : FinishAnswer) : SendSys :=
  (s.doFinish stream answer).release id
    (.returned (s.sys.st.doFinish stream.handle stream.epoch answer).2)

/-- `reset`: a stale resource resets nothing. -/
def reset : SendSys :=
  { s with
    res := { s.res with ended := true }
    sys := { s.sys with
      st := match s.sys.st.entryFor stream.handle stream.epoch with
        | none => s.sys.st
        | some _ => s.sys.st.kickPump } }

/-- No call has the id `id`. -/
def Fresh (id : TaskId) : Prop := ∀ c ∈ s.calls, c.id ≠ id

end SendSys

/-- A step of a send stream, with the error if it refuses a call. -/
inductive SendStep (stream : StreamRes) : Option Error → SendSys → SendSys → Prop
  /-- The rest of the endpoint. -/
  | around {s : SendSys} {sys : Sys} :
      Step s.sys sys → SendStep stream none s { s with sys := sys }
  | writeRefused {s : SendSys} {id : TaskId} {bytes : Bytes} {res : SendStreamRes} {err : Error} :
      s.sys.quiet = true → s.Fresh id → s.res.write = (res, some err) →
      SendStep stream (some err) s { s with
        res := res, calls := s.calls ++ [⟨id, bytes, [], .returned (.error err)⟩] }
  | writeStarted {s : SendSys} {id : TaskId} {bytes : Bytes} {res : SendStreamRes} :
      s.sys.quiet = true → s.Fresh id → s.res.write = (res, none) →
      SendStep stream none s { s with
        res := res
        writers := s.writers.insert id (.write bytes 0)
        calls := s.calls ++ [⟨id, bytes, [], .inFlight⟩] }
  | writeParked {s : SendSys} {id : TaskId} {bytes : Bytes} {offset offset' : ℕ} {st : State}
      {noq : NoqSend} :
      s.sys.quiet = true → s.writers.lookup id = some (.write bytes offset) →
      s.WriteAll stream bytes offset st noq offset' none →
      SendStep stream none s (((s.polled id st noq).setWriter id (.write bytes offset')).park id)
  | writeDone {s : SendSys} {id : TaskId} {bytes : Bytes} {offset offset' : ℕ} {st : State}
      {noq : NoqSend} {result : Except Error Unit} :
      s.sys.quiet = true → s.writers.lookup id = some (.write bytes offset) →
      s.WriteAll stream bytes offset st noq offset' (some result) →
      SendStep stream none s ((s.polled id st noq).release id (.returned result))
  | writeCancelled {s : SendSys} {id : TaskId} {bytes : Bytes} {offset : ℕ} :
      s.sys.quiet = true → s.writers.lookup id = some (.write bytes offset) →
      SendStep stream none s (s.release id .cancelled)
  | finishRefused {s : SendSys} {err : Error} :
      s.sys.quiet = true → s.res.finish = some err → SendStep stream (some err) s s
  | finish {s : SendSys} {answer : FinishAnswer} :
      s.sys.quiet = true → s.res.finish = none → SendStep stream none s (s.doFinish stream answer)
  | reset {s : SendSys} : s.sys.quiet = true → SendStep stream none s (s.reset stream)
  | viaRefused {s : SendSys} {id : TaskId} {res : SendStreamRes} {err : Error} :
      s.sys.quiet = true → s.Fresh id → s.res.writeViaStream = (res, some err) →
      SendStep stream (some err) s { s with
        res := res, calls := s.calls ++ [⟨id, [], [], .returned (.error err)⟩] }
  | viaStarted {s : SendSys} {id : TaskId} {res : SendStreamRes} :
      s.sys.quiet = true → s.Fresh id → s.res.writeViaStream = (res, none) →
      SendStep stream none s { s with
        res := res
        writers := s.writers.insert id .via
        calls := s.calls ++ [⟨id, [], [], .inFlight⟩] }
  /-- The byte stream delivers a buffer, an empty one that leads to the next read, or its
      end with an empty buffer. -/
  | viaRead {s : SendSys} {id : TaskId} {buf : Bytes} {more : Bool} :
      s.sys.quiet = true → s.writers.lookup id = some .via → buf ≠ [] →
      SendStep stream none s
        ((s.record id fun c => { c with payload := c.payload ++ buf }).setWriter id
          (.viaWriting buf 0 more))
  | viaEmpty {s : SendSys} {id : TaskId} :
      s.sys.quiet = true → s.writers.lookup id = some .via → SendStep stream none s s
  | viaEnded {s : SendSys} {id : TaskId} {answer : FinishAnswer} :
      s.sys.quiet = true → s.writers.lookup id = some .via →
      SendStep stream none s (s.viaEnd stream id answer)
  | viaParked {s : SendSys} {id : TaskId} {buf : Bytes} {offset offset' : ℕ} {more : Bool}
      {st : State} {noq : NoqSend} :
      s.sys.quiet = true → s.writers.lookup id = some (.viaWriting buf offset more) →
      s.WriteAll stream buf offset st noq offset' none →
      SendStep stream none s
        (((s.polled id st noq).setWriter id (.viaWriting buf offset' more)).park id)
  /-- A buffer is written, and the byte stream goes on, or has ended. -/
  | viaWritten {s : SendSys} {id : TaskId} {buf : Bytes} {offset offset' : ℕ} {st : State}
      {noq : NoqSend} :
      s.sys.quiet = true → s.writers.lookup id = some (.viaWriting buf offset true) →
      s.WriteAll stream buf offset st noq offset' (some (.ok ())) →
      SendStep stream none s ((s.polled id st noq).setWriter id .via)
  | viaDone {s : SendSys} {id : TaskId} {buf : Bytes} {offset offset' : ℕ} {st : State}
      {noq : NoqSend} {answer : FinishAnswer} :
      s.sys.quiet = true → s.writers.lookup id = some (.viaWriting buf offset false) →
      s.WriteAll stream buf offset st noq offset' (some (.ok ())) →
      SendStep stream none s ((s.polled id st noq).viaEnd stream id answer)
  | viaFailed {s : SendSys} {id : TaskId} {buf : Bytes} {offset offset' : ℕ} {more : Bool}
      {st : State} {noq : NoqSend} {err : Error} :
      s.sys.quiet = true → s.writers.lookup id = some (.viaWriting buf offset more) →
      s.WriteAll stream buf offset st noq offset' (some (.error err)) →
      SendStep stream none s ((s.polled id st noq).release id (.returned (.error err)))
  /-- The writes stay taken. -/
  | viaCancelled {s : SendSys} {id : TaskId} {writer : Writer} :
      s.sys.quiet = true → s.writers.lookup id = some writer →
      (∀ bytes offset, writer ≠ .write bytes offset) →
      SendStep stream none s (s.release id .cancelled)

/-- A send stream from when it is handed out. -/
def sendStream (stream : StreamRes) : System SendSys where
  init := {s | ∃ sys, endpoint.Reachable sys ∧ stream ∈ sys.streams ∧
    s = ⟨sys, .new, .new, ∅, []⟩}
  step s s' := ∃ refused, SendStep stream refused s s'

end IrohEndpoint
