import IrohEndpoint.Ownership

/-!
# A receive stream

One `RecvStreamRes` of a bound endpoint, with the calls on it that are in flight
and noq's side of the stream. Its bytes are taken by *consumers*: a `read` call,
or the pump that `read_via_stream` starts, each polling `read_some` until it has a
result (`RecvSys.ReadSome`).

A step (`RecvStep`) is one synchronous piece of a call or of a consumer, the
cancellation of a `read`, a step of the rest of the endpoint, or something that noq
hears from the peer. `recvStream stream ok` has the runs whose actions all meet the
condition `ok`, in the state in which they are taken.

noq reads a stream in order. Once the stream was stopped, or its FIN or its reset
was consumed, or it was torn down with a connection that failed, its state is gone,
and noq answers `ClosedStream` (`NoqRecv.Answers`).
-/

namespace IrohEndpoint

open Transition

/-! ## noq's side -/

/-- noq's receive half of a stream. -/
structure NoqRecv where
  /-- The bytes of the peer that arrived, in order, and how many were read. -/
  arrived : Bytes
  taken : ℕ
  /-- The peer's FIN arrived, after these bytes. -/
  fin : Bool
  reset : Option ℕ
  /-- The state of the stream is gone. -/
  gone : Bool
  /-- The FIN was delivered to a reader. -/
  finDelivered : Bool

namespace NoqRecv

/-- A stream of which nothing was heard yet. -/
def new : NoqRecv := ⟨[], 0, false, none, false, false⟩

/-- There is nothing to deliver. -/
structure Drained (n : NoqRecv) : Prop where
  taken : n.taken = n.arrived.length
  fin : n.fin = false
  reset : n.reset = none

/-- How noq answers an ordered read of at most `max` bytes, and what it leaves. -/
inductive Answers (n : NoqRecv) (max : ℕ) : ReadAnswer → NoqRecv → Prop
  | closedStream : n.gone = true → Answers n max .closedStream n
  | chunk {bytes : Bytes} :
      n.gone = false → bytes <+: n.arrived.drop n.taken → bytes ≠ [] → bytes.length ≤ max →
      Answers n max (.chunk bytes) { n with taken := n.taken + bytes.length }
  | fin :
      n.gone = false → n.taken = n.arrived.length → n.fin = true →
      Answers n max .fin { n with gone := true, finDelivered := true }
  | reset {code : ℕ} :
      n.gone = false → n.reset = some code → Answers n max (.reset code) { n with gone := true }
  | blocked : n.gone = false → n.Drained → Answers n max .blocked n

end NoqRecv

/-! ## The resource -/

/-- The fields of a `RecvStreamRes` that its calls share. -/
structure RecvStreamRes where
  streaming : Bool
  /-- The first observed terminal outcome, repeated by every later `read`. -/
  terminal : Option (Except Error Unit)
  reading : Bool

namespace RecvStreamRes

/-- A resource that was not used yet. -/
def new : RecvStreamRes := ⟨false, none, false⟩

/-- How `read` begins: it has a result, or claims the stream. -/
def read (res : RecvStreamRes) (max : ℕ) :
    RecvStreamRes × Option (Except Error (Option Bytes)) :=
  if res.streaming then
    (res, some (.error (.inUse "the stream's bytes were taken by read-via-stream")))
  else match res.terminal with
    | some terminal => (res, some (terminal.map fun _ => none))
    | none =>
      if max = 0 then (res, some (.ok (some [])))
      else if res.reading then
        (res, some (.error (.inUse "a read is already in flight on this stream")))
      else ({ res with reading := true }, none)

/-- The terminal outcome in a result of `read_some`. -/
def outcome : Except Error (Option Bytes) → Option (Except Error Unit)
  | .ok (some _) => none
  | .ok none => some (.ok ())
  | .error err => some (.error err)

/-- How `read` ends: a terminal outcome is latched, and the claim released. -/
def endRead (res : RecvStreamRes) (result : Except Error (Option Bytes)) : RecvStreamRes :=
  { res with reading := false, terminal := (outcome result).or res.terminal }

/-- How `read_via_stream` begins. -/
def readViaStream (res : RecvStreamRes) : RecvStreamRes × Except Error Unit :=
  if res.streaming then (res, .error (.inUse "read-via-stream may be called once"))
  else ({ res with streaming := true }, .ok ())

/-- A `read` without a poll changes nothing, and reports no clean end but a latched
    one. -/
theorem read_some {res res' : RecvStreamRes} {max : ℕ} {result : Except Error (Option Bytes)}
    (h : res.read max = (res', some result)) :
    res' = res ∧ (result = .ok none → res.terminal = some (.ok ())) := by
  rw [read] at h
  split at h
  · cases h
    exact ⟨rfl, nofun⟩
  · split at h
    · rename_i terminal ht
      cases h
      refine ⟨rfl, fun hr => ?_⟩
      cases terminal with
      | ok _ => exact ht
      | error _ => cases hr
    · split at h
      · cases h
        exact ⟨rfl, nofun⟩
      · split at h <;> cases h
        exact ⟨rfl, nofun⟩

/-- A `read` that goes on to poll has claimed a stream that nothing claims. -/
theorem read_none {res res' : RecvStreamRes} {max : ℕ} (h : res.read max = (res', none)) :
    res.streaming = false ∧ res.terminal = none ∧ res.reading = false ∧
      res' = { res with reading := true } := by
  rw [read] at h
  split at h <;> rename_i hstreaming
  · cases h
  · split at h <;> rename_i hterminal
    · cases h
    · split at h
      · cases h
      · split at h <;> rename_i hreading
        · cases h
        · cases h
          exact ⟨Bool.eq_false_iff.2 hstreaming, hterminal, Bool.eq_false_iff.2 hreading, rfl⟩

/-- A `read_via_stream` that is refused changes nothing. -/
theorem readViaStream_error {res res' : RecvStreamRes} {err : Error}
    (h : res.readViaStream = (res', .error err)) : res' = res := by
  rw [readViaStream] at h
  split at h <;> cases h
  rfl

/-- A `read_via_stream` that starts is the first. -/
theorem readViaStream_ok {res res' : RecvStreamRes} (h : res.readViaStream = (res', .ok ())) :
    res.streaming = false ∧ res' = { res with streaming := true } := by
  rw [readViaStream] at h
  split at h <;> rename_i hstreaming <;> cases h
  exact ⟨Bool.eq_false_iff.2 hstreaming, rfl⟩

/-- What `read` reports where `read_some` gives `result`. -/
def report (res : RecvStreamRes) (result : Except Error (Option Bytes)) :
    Except Error (Option Bytes) :=
  match res.terminal with
  | some terminal => terminal.map fun _ => none
  | none => result

end RecvStreamRes

/-! ## The system -/

/-- A consumer of the stream. -/
inductive Consumer
  /-- A `read` call of at most `max` bytes. -/
  | read (max : ℕ)
  /-- The pump of `read_via_stream`, waiting for bytes, or writing some to the byte
      stream. -/
  | via
  | viaWriting

/-- The bytes the pump of `read_via_stream` reads at most at once. -/
def viaMax : ℕ := 16 * 1024

/-- What the application is told. -/
inductive Report
  | read (result : Except Error (Option Bytes))
  /-- The future of `read_via_stream` resolves, where `read` would have reported
      `read`. -/
  | via (outcome : Except Error Unit) (read : Except Error (Option Bytes))
  /-- The reader of the byte stream is gone, and the future resolves with `other`. -/
  | viaAbandoned

/-- A receive stream with its surroundings. -/
structure RecvSys where
  sys : Sys
  noq : NoqRecv
  res : RecvStreamRes
  consumers : Table TaskId Consumer
  /-- The bytes that were handed out, with the consumers they were handed to. -/
  handed : List (TaskId × Bytes)
  log : List Report

/-- What is done to the stream. -/
inductive Action
  /-- A consumer is polled. -/
  | poll (id : TaskId)
  | readViaStream
  | other

namespace RecvSys

variable (stream : StreamRes) (s : RecvSys)

/-- The entry of the stream's connection. -/
def entry : Option ConnEntry := s.sys.st.entryFor stream.handle stream.epoch

/-- How the stream's connection has failed. -/
def failure : Option Error :=
  match s.entry stream with
  | none => some .closed
  | some e => e.error

/-- One poll of `read_some`: the states it leaves, and its result unless it parks. -/
inductive ReadSome (max : ℕ) : State → NoqRecv → Option (Except Error (Option Bytes)) → Prop
  | stale {answer : ReadAnswer} {st : State} {result : Option (Except Error (Option Bytes))} :
      s.entry stream = none →
      s.sys.st.readSomeCheck stream.handle stream.epoch answer = (st, result) →
      ReadSome max st s.noq result
  | asked {answer : ReadAnswer} {e : ConnEntry} {st : State} {noq : NoqRecv}
      {result : Option (Except Error (Option Bytes))} :
      s.entry stream = some e → s.noq.Answers max answer noq →
      s.sys.st.readSomeCheck stream.handle stream.epoch answer = (st, result) →
      ReadSome max st noq result

/-- `stop`: a stale resource stops nothing. -/
def stop : RecvSys :=
  match s.entry stream with
  | none => s
  | some _ =>
    { s with noq := { s.noq with gone := true }, sys := { s.sys with st := s.sys.st.kickPump } }

/-- The consumer `id` parks. -/
def park (id : TaskId) (st : State) (noq : NoqRecv) : RecvSys :=
  { s with sys := { s.sys with st := { st with waiters := id :: st.waiters } }, noq := noq }

/-- A poll of a consumer had a result, with the bytes that this handed out. -/
def polled (id : TaskId) (st : State) (noq : NoqRecv) (result : Except Error (Option Bytes)) :
    RecvSys :=
  { s with
    sys := { s.sys with st := st }
    noq := noq
    handed := s.handed ++
      match result with
      | .ok (some bytes) => [(id, bytes)]
      | _ => [] }

end RecvSys

/-- A step of a receive stream. -/
inductive RecvStep (stream : StreamRes) : Action → RecvSys → RecvSys → Prop
  /-- The rest of the endpoint. -/
  | around {s : RecvSys} {sys : Sys} :
      Step s.sys sys → RecvStep stream .other s { s with sys := sys }
  /-- noq hears from the peer, over a connection that has not failed. -/
  | data {s : RecvSys} {bytes : Bytes} :
      s.failure stream = none → s.noq.fin = false → s.noq.reset = none →
      RecvStep stream .other s { s with noq := { s.noq with arrived := s.noq.arrived ++ bytes } }
  | fin {s : RecvSys} :
      s.failure stream = none → s.noq.reset = none →
      RecvStep stream .other s { s with noq := { s.noq with fin := true } }
  | reset {s : RecvSys} {code : ℕ} :
      s.failure stream = none → s.noq.reset = none →
      RecvStep stream .other s { s with noq := { s.noq with reset := some code } }
  /-- The stream is torn down with its connection. -/
  | torn {s : RecvSys} :
      s.failure stream ≠ none →
      RecvStep stream .other s { s with noq := { s.noq with gone := true } }
  | stop {s : RecvSys} : s.sys.quiet = true → RecvStep stream .other s (s.stop stream)
  /-- `read` has a result at once. -/
  | readAnswered {s : RecvSys} {max : ℕ} {res : RecvStreamRes}
      {result : Except Error (Option Bytes)} :
      s.sys.quiet = true → s.res.read max = (res, some result) →
      RecvStep stream .other s { s with res := res, log := s.log ++ [.read result] }
  | readStarted {s : RecvSys} {id : TaskId} {max : ℕ} {res : RecvStreamRes} :
      s.sys.quiet = true → s.consumers.lookup id = none → s.res.read max = (res, none) →
      RecvStep stream .other s { s with
        res := res, consumers := s.consumers.insert id (.read max) }
  | readParked {s : RecvSys} {id : TaskId} {max : ℕ} {st : State} {noq : NoqRecv} :
      s.sys.quiet = true → s.consumers.lookup id = some (.read max) →
      s.ReadSome stream max st noq none → RecvStep stream (.poll id) s (s.park id st noq)
  | readDone {s : RecvSys} {id : TaskId} {max : ℕ} {st : State} {noq : NoqRecv}
      {result : Except Error (Option Bytes)} :
      s.sys.quiet = true → s.consumers.lookup id = some (.read max) →
      s.ReadSome stream max st noq (some result) →
      RecvStep stream (.poll id) s { s.polled id st noq result with
        res := s.res.endRead result
        consumers := s.consumers.erase id
        log := s.log ++ [.read result] }
  /-- The drop of `Unclaim` releases the claim. -/
  | readCancelled {s : RecvSys} {id : TaskId} {max : ℕ} :
      s.sys.quiet = true → s.consumers.lookup id = some (.read max) →
      RecvStep stream .other s { s with
        res := { s.res with reading := false }, consumers := s.consumers.erase id }
  | viaRefused {s : RecvSys} {res : RecvStreamRes} {err : Error} :
      s.sys.quiet = true → s.res.readViaStream = (res, .error err) →
      RecvStep stream .readViaStream s { s with res := res }
  | viaStarted {s : RecvSys} {id : TaskId} {res : RecvStreamRes} :
      s.sys.quiet = true → s.consumers.lookup id = none → s.res.readViaStream = (res, .ok ()) →
      RecvStep stream .readViaStream s { s with
        res := res, consumers := s.consumers.insert id .via }
  | viaParked {s : RecvSys} {id : TaskId} {st : State} {noq : NoqRecv} :
      s.sys.quiet = true → s.consumers.lookup id = some .via →
      s.ReadSome stream viaMax st noq none → RecvStep stream (.poll id) s (s.park id st noq)
  | viaChunk {s : RecvSys} {id : TaskId} {st : State} {noq : NoqRecv} {bytes : Bytes} :
      s.sys.quiet = true → s.consumers.lookup id = some .via →
      s.ReadSome stream viaMax st noq (some (.ok (some bytes))) →
      RecvStep stream (.poll id) s { s.polled id st noq (.ok (some bytes)) with
        consumers := s.consumers.insert id .viaWriting }
  /-- The stream ends, and the future resolves. -/
  | viaDone {s : RecvSys} {id : TaskId} {st : State} {noq : NoqRecv}
      {result : Except Error (Option Bytes)} {outcome : Except Error Unit} :
      s.sys.quiet = true → s.consumers.lookup id = some .via →
      s.ReadSome stream viaMax st noq (some result) →
      RecvStreamRes.outcome result = some outcome →
      RecvStep stream (.poll id) s { s.polled id st noq result with
        consumers := s.consumers.erase id
        log := s.log ++ [.via outcome (s.res.report result)] }
  /-- The byte stream takes what was written, or its reader is gone. -/
  | viaWritten {s : RecvSys} {id : TaskId} :
      s.sys.quiet = true → s.consumers.lookup id = some .viaWriting →
      RecvStep stream .other s { s with consumers := s.consumers.insert id .via }
  | viaAbandoned {s : RecvSys} {id : TaskId} :
      s.sys.quiet = true → s.consumers.lookup id = some .viaWriting →
      RecvStep stream .other s { s with
        consumers := s.consumers.erase id, log := s.log ++ [.viaAbandoned] }

/-- A receive stream from when it is handed out, in the runs whose actions meet the
    condition `ok`. -/
def recvStream (stream : StreamRes) (ok : Action → RecvSys → Prop) : System RecvSys where
  init := {s | ∃ sys, endpoint.Reachable sys ∧ stream ∈ sys.streams ∧
    s = ⟨sys, .new, .new, ∅, [], []⟩}
  step s s' := ∃ action, RecvStep stream action s s' ∧ ok action s

/-! ## Polling -/

namespace RecvSys

variable {stream : StreamRes} {s s' : RecvSys} {max : ℕ} {st : State} {noq : NoqRecv}
  {result : Option (Except Error (Option Bytes))}

/-- What `read_some` finds out about the connection. -/
theorem failure_of_entry {e : ConnEntry} (h : s.entry stream = some e) :
    s.failure stream = e.error := by
  rw [failure, h]

/-- The results of `read_some`, by what it finds of the connection and of the
    stream. -/
inductive Poll (stream : StreamRes) (s : RecvSys) :
    NoqRecv → Option (Except Error (Option Bytes)) → Prop
  | stale : s.entry stream = none → Poll stream s s.noq (some (.error .closed))
  /-- The state of the stream is gone. -/
  | lost {err : Error} :
      s.entry stream ≠ none → s.noq.gone = true → s.failure stream = some err →
      Poll stream s s.noq (some (.error err))
  | spent :
      s.entry stream ≠ none → s.noq.gone = true → s.failure stream = none →
      Poll stream s s.noq (some (.ok none))
  | chunk {bytes : Bytes} :
      s.entry stream ≠ none → s.noq.gone = false → bytes <+: s.noq.arrived.drop s.noq.taken →
      bytes ≠ [] → Poll stream s { s.noq with taken := s.noq.taken + bytes.length }
        (some (.ok (some bytes)))
  | fin :
      s.entry stream ≠ none → s.noq.gone = false →
      Poll stream s { s.noq with gone := true, finDelivered := true } (some (.ok none))
  | reset {code : ℕ} :
      s.entry stream ≠ none → s.noq.gone = false → s.noq.reset = some code →
      Poll stream s { s.noq with gone := true } (some (.error (.reset code)))
  /-- There is nothing to read, and never will be. -/
  | failed {err : Error} :
      s.entry stream ≠ none → s.noq.gone = false → s.noq.Drained → s.failure stream = some err →
      Poll stream s s.noq (some (.error err))
  | blocked :
      s.entry stream ≠ none → s.noq.gone = false → s.failure stream = none →
      Poll stream s s.noq none

theorem ReadSome.poll (h : s.ReadSome stream max st noq result) : s.Poll stream noq result := by
  cases h with
  | stale he hc =>
    have he' := he
    rw [entry] at he'
    rw [State.readSomeCheck, he'] at hc
    cases hc
    exact .stale he
  | @asked _ e _ _ _ he ha hc =>
    have hf := failure_of_entry he
    have hne : s.entry stream ≠ none := by
      rw [he]
      nofun
    rw [entry] at he
    rw [State.readSomeCheck, he] at hc
    cases ha with
    | closedStream hg =>
      dsimp only at hc
      cases herr : e.error <;> rw [herr] at hf hc <;> cases hc
      · exact .spent hne hg hf
      · exact .lost hne hg hf
    | chunk hg hpre hnil =>
      cases hc
      exact .chunk hne hg hpre hnil
    | fin hg =>
      cases hc
      exact .fin hne hg
    | reset hg hr =>
      cases hc
      exact .reset hne hg hr
    | blocked hg hd =>
      dsimp only at hc
      cases herr : e.error <;> rw [herr] at hf hc <;> cases hc
      · exact .blocked hne hg hf
      · exact .failed hne hg hd hf

/-- `read_some` may kick the pump, and does not if it parks. -/
theorem ReadSome.kicks (h : s.ReadSome stream max st noq result) :
    st = s.sys.st ∨ result ≠ none ∧ st = s.sys.st.kickPump := by
  have hcheck : ∀ answer,
      s.sys.st.readSomeCheck stream.handle stream.epoch answer = (st, result) →
      st = s.sys.st ∨ result ≠ none ∧ st = s.sys.st.kickPump := by
    intro answer hc
    rw [State.readSomeCheck] at hc
    split at hc
    · cases hc
      exact .inl rfl
    · cases answer with
      | chunk | fin =>
        cases hc
        exact .inr ⟨nofun, rfl⟩
      | _ =>
        cases hc
        exact .inl rfl
  cases h with
  | stale _ hc => exact hcheck _ hc
  | asked _ _ hc => exact hcheck _ hc

/-- A poll that has a result takes at most one step of the endpoint. -/
theorem ReadSome.sys (hq : s.sys.quiet = true) (h : s.ReadSome stream max st noq result) :
    endpoint.Leads s.sys { s.sys with st := st } := by
  rcases h.kicks with rfl | ⟨-, rfl⟩
  · exact .refl
  · exact .single (.kick hq)

end RecvSys

/-- A step of a receive stream is a run of the endpoint. -/
theorem RecvStep.sys {stream : StreamRes} {action : Action} {s s' : RecvSys}
    (h : RecvStep stream action s s') : endpoint.Leads s.sys s'.sys := by
  cases h with
  | around h => exact .single h
  | stop hq =>
    rw [RecvSys.stop]
    split
    · exact .refl
    · exact .single (.kick hq)
  | readParked hq _ h | viaParked hq _ h =>
    rcases h.kicks with rfl | ⟨hn, -⟩
    · exact .single (.repark hq)
    · exact absurd rfl hn
  | readDone hq _ h | viaChunk hq _ h | viaDone hq _ h => exact h.sys hq
  | _ => exact .refl

/-- The endpoint around a receive stream is reachable, and the stream's connection
    was inserted. -/
theorem recvStream_sys {stream : StreamRes} {ok : Action → RecvSys → Prop} {s : RecvSys}
    (hs : (recvStream stream ok).Reachable s) :
    endpoint.Reachable s.sys ∧ stream.epoch < s.sys.st.nextConnEpoch := by
  refine hs.invariant (P := fun s => endpoint.Reachable s.sys ∧
    stream.epoch < s.sys.st.nextConnEpoch) ?_ ?_
  · rintro _ ⟨sys, hr, hmem, rfl⟩
    exact ⟨hr, (ledger_inv hr).held_lt (Sys.Holds.held (.stream hmem))⟩
  · rintro s s' - ⟨action, hst, -⟩ ⟨hr, hlt⟩
    exact ⟨hr.leads hst.sys, lt_of_lt_of_le hlt (ledger_advances hr hst.sys).epoch⟩

/-! ## The start of a run -/

/-- A receive stream of the first connection, of which nothing was heard yet. -/
theorem recvStream_start (ok : Action → RecvSys → Prop) :
    (recvStream ⟨0, 0, 0⟩ ok).Reachable
      ⟨Sys.streaming (Vector.replicate 32 7), .new, .new, ∅, [], []⟩ :=
  .init ⟨_, streaming_reachable, List.mem_singleton_self _, rfl⟩

end IrohEndpoint
