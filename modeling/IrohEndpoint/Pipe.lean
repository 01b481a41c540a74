import IrohEndpoint.RecvStream.CleanEnd
import IrohEndpoint.RecvStream.Consumers
import IrohEndpoint.SendStream.Writes

/-!
# A stream from end to end

The send half of a stream on one endpoint, and its receive half on another one (`Pipe`). Both
endpoints go on with everything else meanwhile, and their calls are cancelled at any `await`. In
between, noq delivers a stream in order: what arrives is the beginning of what it has accepted, and
a FIN comes behind the bytes that it had accepted at a finish (`NoqRecv.Follows`). A stream may also
be reset, or torn down with its connection, at any time.

What the reader was handed is the beginning of what was written, call after call, in every run.
Once it is told that the stream has ended, it has all that noq had accepted at a finish: the calls
up to it, each of which has ended. Nothing of a successful write is missing, and only one that was
not may have been cut short (`Delivers`, `delivers_reachable`). Like the clean end itself, the
latter needs the consumers to be polled in time (`PolledInTime`).
-/

namespace IrohEndpoint

open Transition

/-- The two halves of a stream, on two endpoints. -/
structure Pipe where
  sender : SendSys
  receiver : RecvSys

/-- What has arrived of a stream was sent: noq accepted it, and was asked to finish there. -/
structure NoqRecv.Follows (m : NoqRecv) (n : NoqSend) : Prop where
  bytes : m.arrived <+: n.accepted
  fin : m.fin = true → m.arrived.length ∈ n.fins

/-- A step of a stream: one of its two endpoints, which hears only what was sent. -/
inductive PipeStep (out inn : StreamRes) (ok : Action → RecvSys → Prop) : Pipe → Pipe → Prop
  | send {p : Pipe} {refused : Option Error} {s : SendSys} :
      SendStep out refused p.sender s → PipeStep out inn ok p { p with sender := s }
  | receive {p : Pipe} {action : Action} {s : RecvSys} :
      RecvStep inn action p.receiver s → ok action p.receiver →
      (s.noq.arrived ≠ p.receiver.noq.arrived ∨ s.noq.fin ≠ p.receiver.noq.fin →
        s.noq.Follows p.sender.noq) →
      PipeStep out inn ok p { p with receiver := s }

/-- A stream from when both halves are handed out, in the runs in which the actions on the
    receiving side meet the condition `ok`. -/
def pipe (out inn : StreamRes) (ok : Action → RecvSys → Prop) : System Pipe where
  init := {p | p.sender ∈ (sendStream out).init ∧ p.receiver ∈ (recvStream inn ok).init}
  step := PipeStep out inn ok

namespace Pipe

/-- What noq has accepted of the calls that write, in order. -/
def written (p : Pipe) : Bytes := (p.sender.calls.map WriteCall.accepted).flatten

/-- What was handed out to the reader, in order. -/
def received (p : Pipe) : Bytes := (p.receiver.handed.map Prod.snd).flatten

end Pipe

/-- The reader is told that the stream has ended. -/
def Report.Clean : Report → Prop
  | read result => result = .ok none
  | via outcome _ => outcome = .ok ()
  | viaAbandoned => False

/-! ## The sending side -/

namespace SendSys

variable {stream : StreamRes} {refused : Option Error} {s s' : SendSys} {id : TaskId}
  {before : List WriteCall}

/-- A call that has ended keeps its record. -/
theorem record_keeps {f : WriteCall → WriteCall} (hpre : before <+: s.calls)
    (hne : ∀ c ∈ before, c.id ≠ id) : before <+: (s.record id f).calls := by
  have hsame : before.map (fun c => if c.id = id then f c else c) = before :=
    (List.map_congr_left fun c hc => if_neg (hne c hc)).trans (List.map_id _)
  have hmap := hpre.map fun c => if c.id = id then f c else c
  rwa [hsame] at hmap

/-- The call in flight is none of those that have ended. -/
theorem Inv.ended_ne (h : s.Inv) {w : Writer} (hl : s.writers.lookup id = some w)
    (hpre : before <+: s.calls) (hset : ∀ c ∈ before, c.Settled) : ∀ c ∈ before, c.id ≠ id := by
  obtain ⟨_, c₀, _, hw⟩ := h.writing hl
  intro c hc
  rcases hw.mem_cases (hw.calls ▸ hpre.subset hc) with rfl | ⟨hne, -⟩
  · exact absurd hw.inFlight (hset c hc).ended
  · exact hne

/-- The calls that have ended stay as they are, in the order in which they were made. -/
theorem Inv.keeps_ended (h : s.Inv) (hst : SendStep stream refused s s')
    (hpre : before <+: s.calls) (hset : ∀ c ∈ before, c.Settled) : before <+: s'.calls := by
  cases hst with
  | around | finishRefused | finish | reset | viaEmpty => exact hpre
  | writeRefused | writeStarted | viaRefused | viaStarted =>
    exact hpre.trans (List.prefix_append _ _)
  | writeParked _ hl | viaParked _ hl | viaWritten _ hl | writeCancelled _ hl | viaCancelled _ hl
  | viaRead _ hl | viaEnded _ hl =>
    exact record_keeps hpre (h.ended_ne hl hpre hset)
  | writeDone _ hl | viaFailed _ hl | viaDone _ hl =>
    have hne := h.ended_ne hl hpre hset
    exact record_keeps (record_keeps hpre hne) hne

/-- What noq has accepted, and where it was asked to finish, is not taken back. -/
theorem Inv.noq_grows (h : s.Inv) (hst : SendStep stream refused s s') :
    s.noq.accepted <+: s'.noq.accepted ∧ s.noq.fins <+: s'.noq.fins := by
  have hfinish : ∀ (s : SendSys) (answer : FinishAnswer),
      s.noq.accepted <+: (s.doFinish stream answer).noq.accepted ∧
        s.noq.fins <+: (s.doFinish stream answer).noq.fins := by
    intro s answer
    rw [doFinish]
    dsimp only
    split
    · exact ⟨List.prefix_refl _, List.prefix_append _ _⟩
    · exact ⟨List.prefix_refl _, List.prefix_refl _⟩
  cases hst with
  | @finish _ answer | @viaEnded _ _ answer => exact hfinish s answer
  | writeParked _ hl hall | viaParked _ hl hall | viaWritten _ hl hall | writeDone _ hl hall
  | viaFailed _ hl hall =>
    obtain ⟨_, _, _, hw⟩ := h.writing hl
    obtain ⟨taken, hp⟩ := hall.spec h.sys hw.valid
    exact ⟨hp.accepted ▸ List.prefix_append _ _, hp.fins ▸ List.prefix_refl _⟩
  | @viaDone _ id _ _ _ st noq answer _ hl hall =>
    obtain ⟨_, _, _, hw⟩ := h.writing hl
    obtain ⟨taken, hp⟩ := hall.spec h.sys hw.valid
    obtain ⟨haccepted, hfins⟩ := hfinish (s.polled id st noq) answer
    exact ⟨(List.prefix_append _ _).trans (hp.accepted ▸ haccepted), hp.fins ▸ hfins⟩
  | _ => exact ⟨List.prefix_refl _, List.prefix_refl _⟩

/-- Where noq was asked to finish the stream, it had accepted the calls that were made, and all
    of them had ended. -/
def Finished (s : SendSys) : Prop :=
  ∀ n ∈ s.noq.fins, ∃ before, before <+: s.calls ∧
    (before.map WriteCall.accepted).flatten.length = n ∧ ∀ c ∈ before, c.Settled

/-- A FIN that reaches noq finds no call in flight. -/
theorem Finished.step (hf : s.Finished) (h : s.Inv) (hst : SendStep stream refused s s') :
    s'.Finished := by
  intro n hn
  by_cases hold : n ∈ s.noq.fins
  · obtain ⟨before, hpre, hlen, hset⟩ := hf n hold
    exact ⟨before, h.keeps_ended hst hpre hset, hlen, hset⟩
  · have hfinishes := hst.finishes h fun hsame => hold (hsame ▸ hn)
    rw [hfinishes.fins, List.mem_append, List.mem_singleton] at hn
    refine ⟨s'.calls, List.prefix_refl _, ?_, hfinishes.idle.settled⟩
    rw [hn.resolve_left hold, (h.step hst).accepted]

theorem finished_reachable (hs : (sendStream stream).Reachable s) : s.Finished := by
  refine hs.invariant (P := Finished) ?_ ?_
  · rintro _ ⟨sys, -, -, rfl⟩ n hn
    cases hn
  · rintro s s' hr ⟨refused, hst⟩ hf
    exact hf.step (sendStream_inv hr) hst

end SendSys

/-! ## The receiving side -/

namespace RecvSys

variable {stream : StreamRes} {ok : Action → RecvSys → Prop} {action : Action} {s s' : RecvSys}
  {max : ℕ} {st : State} {noq : NoqRecv} {result : Option (Except Error (Option Bytes))}

/-- A FIN is delivered once all that came before it was read. -/
theorem ReadSome.delivers (h : s.ReadSome stream max st noq result)
    (hd : noq.finDelivered = true) : s.noq.finDelivered = true ∨
      noq.gone = true ∧ noq.fin = true ∧ noq.taken = noq.arrived.length := by
  cases h with
  | stale => exact .inl hd
  | asked _ ha =>
    cases ha with
    | fin _ htaken hfin => exact .inr ⟨rfl, hfin, htaken⟩
    | _ => exact .inl hd

/-- A stream whose FIN was delivered answers no read with bytes. -/
theorem ReadSome.gone (h : s.ReadSome stream max st noq result) (hg : s.noq.gone = true) :
    noq = s.noq := by
  cases h with
  | stale => rfl
  | asked _ ha =>
    cases ha with
    | closedStream => rfl
    | blocked hno | chunk hno | fin hno | reset hno => cases hno.symm.trans hg

/-- What was handed out is what arrived, up to a point, and all of it once the FIN was
    delivered. -/
structure InOrder (s : RecvSys) : Prop where
  taken : s.noq.taken ≤ s.noq.arrived.length
  handed : (s.handed.map Prod.snd).flatten = s.noq.arrived.take s.noq.taken
  delivered : s.noq.finDelivered = true →
    s.noq.gone = true ∧ s.noq.fin = true ∧ s.noq.taken = s.noq.arrived.length

/-- A poll hands out what comes next, or reaches the end. -/
theorem InOrder.polled (h : s.InOrder) (id : TaskId) {result : Except Error (Option Bytes)}
    (hread : s.ReadSome stream max st noq (some result)) :
    (s.polled id st noq result).InOrder := by
  obtain ⟨htaken, hhanded⟩ := Consumers.polled_inOrder st id hread.poll h.taken h.handed
  refine ⟨htaken, hhanded, fun hd => ?_⟩
  rcases hread.delivers hd with hbefore | hend
  · have hnoq := hread.gone (h.delivered hbefore).1
    exact hnoq.symm ▸ h.delivered hbefore
  · exact hend

theorem InOrder.step (h : s.InOrder) (hst : RecvStep stream action s s') : s'.InOrder := by
  cases hst with
  | data _ hfin =>
    refine ⟨?_, ?_, fun hd => ?_⟩
    · dsimp only
      rw [List.length_append]
      exact Nat.le_add_right_of_le h.taken
    · dsimp only
      rw [List.take_append_of_le_length h.taken]
      exact h.handed
    · cases (h.delivered hd).2.1.symm.trans hfin
  | fin => exact ⟨h.taken, h.handed, fun hd => ⟨(h.delivered hd).1, rfl, (h.delivered hd).2.2⟩⟩
  | torn => exact ⟨h.taken, h.handed, fun hd => ⟨rfl, (h.delivered hd).2⟩⟩
  | stop =>
    rw [RecvSys.stop]
    split
    · exact h
    · exact ⟨h.taken, h.handed, fun hd => ⟨rfl, (h.delivered hd).2⟩⟩
  | readParked _ _ hread | viaParked _ _ hread =>
    cases hread.poll with
    | blocked => exact ⟨h.taken, h.handed, h.delivered⟩
  | @readDone _ id _ _ _ _ _ _ hread | @viaChunk _ id _ _ _ _ _ hread
  | @viaDone _ id _ _ _ _ _ _ hread =>
    obtain ⟨htaken, hhanded, hdelivered⟩ := h.polled id hread
    exact ⟨htaken, hhanded, hdelivered⟩
  | _ => exact ⟨h.taken, h.handed, h.delivered⟩

theorem inOrder_reachable (hs : (recvStream stream ok).Reachable s) : s.InOrder := by
  refine hs.invariant (P := InOrder) ?_ fun _ _ _ ⟨_, hst, _⟩ h => h.step hst
  rintro _ ⟨sys, -, -, rfl⟩
  exact ⟨le_refl _, rfl, nofun⟩

end RecvSys

/-! ## Both sides -/

namespace Pipe

variable {out inn : StreamRes} {ok : Action → RecvSys → Prop} {p : Pipe}

/-- The sending side is a send stream, -/
theorem sender_simulation (out inn : StreamRes) (ok : Action → RecvSys → Prop) :
    Simulation (pipe out inn ok) (sendStream out) Pipe.sender where
  init _ h := h.1
  step _ _ _ _ hst := by
    cases hst with
    | send hst => exact .single ⟨_, hst⟩
    | receive => exact .refl

/-- and the receiving side a receive stream. -/
theorem receiver_simulation (out inn : StreamRes) (ok : Action → RecvSys → Prop) :
    Simulation (pipe out inn ok) (recvStream inn ok) Pipe.receiver where
  init _ h := h.2
  step _ _ _ _ hst := by
    cases hst with
    | send => exact .refl
    | receive hst hok => exact .single ⟨_, hst, hok⟩

/-- What has arrived was sent. -/
theorem follows_reachable (hp : (pipe out inn ok).Reachable p) :
    p.receiver.noq.Follows p.sender.noq := by
  refine hp.invariant (P := fun p => p.receiver.noq.Follows p.sender.noq) ?_ ?_
  · rintro ⟨_, _⟩ ⟨⟨_, -, -, rfl⟩, ⟨_, -, -, rfl⟩⟩
    exact ⟨List.prefix_refl _, nofun⟩
  · rintro p p' hr hst hsent
    cases hst with
    | send hst =>
      have hi := sendStream_inv ((sender_simulation out inn ok).reachable hr)
      obtain ⟨haccepted, hfins⟩ := hi.noq_grows hst
      exact ⟨hsent.bytes.trans haccepted, fun hfin => hfins.subset (hsent.fin hfin)⟩
    | @receive _ s _ _ harrives =>
      by_cases hsame : s.noq.arrived ≠ p.receiver.noq.arrived ∨ s.noq.fin ≠ p.receiver.noq.fin
      · exact harrives hsame
      · obtain ⟨harrived, hfin⟩ := not_or.1 hsame
        have harrived' := not_not.1 harrived
        have hfin' := not_not.1 hfin
        exact ⟨harrived'.symm ▸ hsent.bytes, fun h => harrived'.symm ▸ hsent.fin (hfin' ▸ h)⟩

/-- What was handed out is the beginning of what was written. -/
theorem received_prefix (hp : (pipe out inn ok).Reachable p) : p.received <+: p.written := by
  have hi := sendStream_inv ((sender_simulation out inn ok).reachable hp)
  have horder := RecvSys.inOrder_reachable ((receiver_simulation out inn ok).reachable hp)
  rw [received, horder.handed, written, ← hi.accepted]
  exact (List.take_prefix _ _).trans (follows_reachable hp).bytes

/-- Once the FIN was delivered, the reader has all of the calls up to a finish. -/
theorem received_of_delivered (hp : (pipe out inn ok).Reachable p)
    (hd : p.receiver.noq.finDelivered = true) :
    p.received.length ∈ p.sender.noq.fins ∧ ∃ before, before <+: p.sender.calls ∧
      p.received = (before.map WriteCall.accepted).flatten ∧ ∀ c ∈ before, c.Settled := by
  have hs := (sender_simulation out inn ok).reachable hp
  have horder := RecvSys.inOrder_reachable ((receiver_simulation out inn ok).reachable hp)
  have hsent := follows_reachable hp
  obtain ⟨-, hfin, htaken⟩ := horder.delivered hd
  obtain ⟨before, hpre, hlen, hset⟩ := SendSys.finished_reachable hs _ (hsent.fin hfin)
  have hreceived : p.received = p.receiver.noq.arrived := by
    rw [received, horder.handed, htaken, List.take_length]
  refine ⟨hreceived ▸ hsent.fin hfin, before, hpre, ?_, hset⟩
  -- Both are what noq accepted, up to the finish.
  have hbefore : (before.map WriteCall.accepted).flatten <+: p.sender.noq.accepted := by
    obtain ⟨after, hcalls⟩ := hpre
    rw [(sendStream_inv hs).accepted, ← hcalls, List.map_append, List.flatten_append]
    exact List.prefix_append _ _
  rw [hreceived]
  exact (List.prefix_of_prefix_length_le hsent.bytes hbefore hlen.ge).eq_of_length hlen.symm

end Pipe

/-- What a stream promises from end to end, in the runs in which the actions on the receiving side
    meet the condition `ok`. -/
structure Delivers (inn : StreamRes) (ok : Action → RecvSys → Prop) (p : Pipe) : Prop where
  /-- The reader gets the beginning of what was written: nothing is lost, repeated, moved or
      made up on the way. -/
  inOrder : p.received <+: p.written
  /-- Every call has written the beginning of its payload. -/
  begun : ∀ c ∈ p.sender.calls, c.accepted <+: c.payload
  /-- With consumers that are polled in time: once the reader is told that the stream has ended, it
      has all that noq had accepted at a finish, the calls up to it. They have ended, and those that
      succeeded have written their whole payload. -/
  ended : (∀ action s, ok action s → PolledInTime inn action s) →
    (∃ report ∈ p.receiver.log, report.Clean) → p.received.length ∈ p.sender.noq.fins ∧
    ∃ before, before <+: p.sender.calls ∧
      p.received = (before.map WriteCall.accepted).flatten ∧
      ∀ c ∈ before, c.outcome ≠ .inFlight ∧
        (c.outcome = .returned (.ok ()) → c.accepted = c.payload)

/-- **A stream is delivered** from end to end, in every run. -/
theorem delivers_reachable {out inn : StreamRes} {ok : Action → RecvSys → Prop} {p : Pipe}
    (hp : (pipe out inn ok).Reachable p) : Delivers inn ok p := by
  have hs := (Pipe.sender_simulation out inn ok).reachable hp
  have hr := (Pipe.receiver_simulation out inn ok).reachable hp
  refine ⟨Pipe.received_prefix hp, fun c hc => ?_, fun hok ⟨report, hmem, hclean⟩ => ?_⟩
  · rcases (sendStream_inv hs).calls hc with hset | ⟨-, hbegun⟩
    · exact hset.begun
    · exact hbegun
  · have hdelivered : p.receiver.noq.finDelivered = true := by
      have hright := (CleanEnd.Inv.reachable hok hr).finOnly report hmem
      cases report with
      | read => exact hright hclean
      | via outcome reported =>
        rcases hright with ⟨-, hd⟩ | ⟨err, herr, -⟩
        · exact hd
        · cases herr.symm.trans hclean
      | viaAbandoned => cases hclean
    obtain ⟨hfins, before, hpre, hreceived, hset⟩ := Pipe.received_of_delivered hp hdelivered
    exact ⟨hfins, before, hpre, hreceived, fun c hc => ⟨(hset c hc).ended, (hset c hc).whole⟩⟩

/-- A byte is written, the stream is finished, and the other endpoint reads it to its end. -/
theorem delivers_finished : ∃ p : Pipe,
    p.receiver.log = [.read (.ok (some [1])), .read (.ok none)] ∧ p.received = [1] ∧
      p.written = [1] ∧ Delivers ⟨0, 0, 0⟩ (PolledInTime ⟨0, 0, 0⟩) p := by
  have hstart : (pipe ⟨0, 0, 0⟩ ⟨0, 0, 0⟩ (PolledInTime ⟨0, 0, 0⟩)).Reachable
      ⟨⟨Sys.streaming (Vector.replicate 32 7), .new, .new, ∅, []⟩,
        ⟨Sys.streaming (Vector.replicate 32 7), .new, .new, ∅, [], []⟩⟩ :=
    .init ⟨⟨_, streaming_reachable, List.mem_singleton_self _, rfl⟩,
      ⟨_, streaming_reachable, List.mem_singleton_self _, rfl⟩⟩
  have hwrite := hstart.step (.send (@SendStep.writeStarted _ _ 1 [1] _ rfl nofun rfl))
  have hwritten := hwrite.step (.send (@SendStep.writeDone _ _ 1 [1] 0 1 _ _ (.ok ()) rfl rfl
    (@SendSys.WriteAll.asked _ _ _ _ (fun offset => if offset = 0 then .written 1 else .blocked)
      _ _ _ rfl (offered_once (by decide)) rfl)))
  have hfinished := hwritten.step (.send (@SendStep.finish _ _ .finished rfl rfl))
  -- The byte and the FIN arrive.
  have hdata := hfinished.step (.receive (@RecvStep.data _ _ [1] rfl rfl rfl) trivial fun _ =>
    ⟨List.prefix_refl _, nofun⟩)
  have hfin := hdata.step (.receive (.fin rfl rfl) trivial fun _ =>
    ⟨List.prefix_refl _, fun _ => List.mem_cons_self⟩)
  have hread := hfin.step (.receive (@RecvStep.readStarted _ _ 0 1 _ rfl rfl rfl) trivial fun h =>
    h.elim (absurd rfl) (absurd rfl))
  have hchunk := hread.step (.receive (@RecvStep.readDone _ _ 0 1 _ _ _ rfl rfl
    (.asked rfl (@NoqRecv.Answers.chunk _ _ [1] rfl (List.prefix_refl _) nofun (le_refl _)) rfl))
    ⟨nofun, nofun⟩ fun h => h.elim (absurd rfl) (absurd rfl))
  have hread' := hchunk.step (.receive (@RecvStep.readStarted _ _ 0 1 _ rfl rfl rfl) trivial
    fun h => h.elim (absurd rfl) (absurd rfl))
  have hend := hread'.step (.receive (@RecvStep.readDone _ _ 0 1 _ _ _ rfl rfl
    (.asked rfl (.fin rfl rfl rfl) rfl)) ⟨nofun, nofun⟩
    fun h => h.elim (absurd rfl) (absurd rfl))
  exact ⟨_, rfl, rfl, rfl, delivers_reachable hend⟩

end IrohEndpoint
