import IrohEndpoint.Ownership
import IrohEndpoint.SendStream.Writes

/-!
# The drop of a send stream

The drop of a `SendStreamRes` resets the stream, unless `finish` or `reset` ran before: a
stream should not be left open (`Ending.Ended`). To tell, the runs of a send stream are
recorded with noq's answers to the finishes that reached it, and the resets that did
(`Ending`).

`do_finish` says that the stream has ended before it asks noq, which refuses to finish a
stream that its peer has stopped. Such a stream is neither finished nor reset by the drop
(`not_ended_stopped`). This is the only way to leave a stream open: unless a finish reached
noq and none was accepted, the stream of a connection that lives has ended after the drop
(`ended_drop_iff`).
-/

namespace IrohEndpoint

open Transition

/-- How noq was asked to end a stream. -/
structure Ending where
  /-- Its answers to the finishes that reached it, in order. -/
  finishes : List FinishAnswer
  /-- How many resets reached it. -/
  resets : ℕ

namespace Ending

/-- Nothing was asked yet. -/
def new : Ending := ⟨[], 0⟩

/-- A finish: a connection that has failed is not asked. -/
def finish (r : Ending) (failure : Option Error) (answer : FinishAnswer) : Ending :=
  if failure = none then { r with finishes := r.finishes ++ [answer] } else r

/-- A reset: a stale resource resets nothing. -/
def reset (r : Ending) : Option ConnEntry → Ending
  | none => r
  | some _ => { r with resets := r.resets + 1 }

/-- noq has accepted a finish, or was asked to reset the stream. -/
def Ended (r : Ending) : Prop := .finished ∈ r.finishes ∨ 0 < r.resets

end Ending

/-- The connection's entry, unless the stream is stale. -/
def SendSys.entry (stream : StreamRes) (s : SendSys) : Option ConnEntry :=
  s.sys.st.entryFor stream.handle stream.epoch

/-- What a step asks of noq to end the stream. -/
inductive Ends (stream : StreamRes) : SendSys → SendSys → Ending → Ending → Prop
  | finish {s : SendSys} {answer : FinishAnswer} {r : Ending} :
      Ends stream s (s.doFinish stream answer) r (r.finish (s.failure stream) answer)
  | viaEnded {s : SendSys} {id : TaskId} {answer : FinishAnswer} {r : Ending} :
      Ends stream s (s.viaEnd stream id answer) r (r.finish (s.failure stream) answer)
  /-- The last buffer is written in the same step, which the finish finds done. -/
  | viaDone {s : SendSys} {id : TaskId} {buf : Bytes} {offset offset' : ℕ} {st : State}
      {noq : NoqSend} {answer : FinishAnswer} {r : Ending} :
      s.WriteAll stream buf offset st noq offset' (some (.ok ())) →
      Ends stream s ((s.polled id st noq).viaEnd stream id answer) r
        (r.finish ((s.polled id st noq).failure stream) answer)
  | reset {s : SendSys} {r : Ending} :
      Ends stream s (s.reset stream) r (r.reset (s.entry stream))
  /-- Every other step leaves the flag, and finishes nothing. -/
  | other {s s' : SendSys} {r : Ending} :
      s'.res.ended = s.res.ended → s'.noq.fins = s.noq.fins → Ends stream s s' r r

/-- The runs of a send stream, with what noq was asked. -/
def ending (stream : StreamRes) : System (SendSys × Ending) :=
  (sendStream stream).observe .new (Ends stream)

/-- The drop of the resource: a stream that was neither finished nor reset is reset. -/
def SendSys.drop (stream : StreamRes) : SendSys × Ending → SendSys × Ending
  | (s, r) => if s.res.ended then (s, r) else (s.reset stream, r.reset (s.entry stream))

/-! ## The record of a run -/

variable {stream : StreamRes} {s s' : SendSys} {r r' : Ending} {refused : Option Error}

/-- A pass finishes nothing. -/
theorem NoqSend.pass_fins (bytes : Bytes) (answer : ℕ → WriteAnswer) (fuel offset : ℕ)
    (n : NoqSend) : (n.pass bytes answer fuel offset).fins = n.fins := by
  induction fuel generalizing offset n with
  | zero => rfl
  | succ fuel ih =>
    rw [pass]
    cases answer offset with
    | written count =>
      dsimp only [write]
      split
      · rfl
      · split
        · rfl
        · exact ih ..
    | blocked | stopped code | closedStream => rfl

/-- A poll of `write_all` finishes nothing. -/
theorem SendSys.WriteAll.fins {bytes : Bytes} {offset offset' : ℕ} {st : State} {noq : NoqSend}
    {outcome : Option (Except Error Unit)}
    (h : s.WriteAll stream bytes offset st noq offset' outcome) : noq.fins = s.noq.fins := by
  cases h with
  | failed => rfl
  | asked => exact NoqSend.pass_fins ..

/-- A poll of `write_all` leaves the connection as it is. -/
theorem SendSys.WriteAll.failure {bytes : Bytes} {offset offset' : ℕ} {st : State} {noq : NoqSend}
    {outcome : Option (Except Error Unit)}
    (h : s.WriteAll stream bytes offset st noq offset' outcome) (id : TaskId) :
    (s.polled id st noq).failure stream = s.failure stream := by
  rcases h.kicks with rfl | rfl <;> rfl

/-- Every step can be recorded. -/
theorem SendStep.ends (h : SendStep stream refused s s') (r : Ending) :
    ∃ r', Ends stream s s' r r' := by
  cases h with
  | finish => exact ⟨_, .finish⟩
  | viaEnded => exact ⟨_, .viaEnded⟩
  | viaDone _ _ hall => exact ⟨_, .viaDone hall⟩
  | reset => exact ⟨_, .reset⟩
  | writeRefused _ _ hres =>
    obtain ⟨rfl, -⟩ := SendStreamRes.write_some hres
    exact ⟨r, .other rfl rfl⟩
  | viaRefused _ _ hres =>
    obtain ⟨rfl, -⟩ := SendStreamRes.writeViaStream_some hres
    exact ⟨r, .other rfl rfl⟩
  | writeStarted _ _ hres =>
    obtain ⟨-, rfl⟩ := SendStreamRes.write_none hres
    exact ⟨r, .other rfl rfl⟩
  | viaStarted _ _ hres =>
    obtain ⟨-, rfl⟩ := SendStreamRes.writeViaStream_none hres
    exact ⟨r, .other rfl rfl⟩
  | writeParked _ _ hall | writeDone _ _ hall | viaParked _ _ hall | viaWritten _ _ hall
  | viaFailed _ _ hall => exact ⟨r, .other rfl hall.fins⟩
  | around | writeCancelled | finishRefused | viaRead | viaEmpty | viaCancelled =>
    exact ⟨r, .other rfl rfl⟩

/-- Every run of a send stream has a record. -/
theorem ending_reachable (hs : (sendStream stream).Reachable s) :
    ∃ r, (ending stream).Reachable (s, r) :=
  hs.observe fun _ _ r h => by
    obtain ⟨refused, hst⟩ := h
    exact hst.ends r

/-! ## The flag -/

namespace SendSys

/-- A connection has failed if its entry has, or there is none. -/
theorem failure_ne_none_iff :
    s.failure stream ≠ none ↔ ∀ e, s.entry stream = some e → e.error ≠ none := by
  rw [failure, entry]
  cases s.sys.st.entryFor stream.handle stream.epoch with
  | none => simp
  | some e => simp

/-- A connection without an entry has failed. -/
theorem failure_of_stale (he : s.entry stream = none) : s.failure stream ≠ none := by
  simp [failure_ne_none_iff, he]

/-- A connection that has failed stays so. -/
theorem failure_leads (hs : endpoint.Reachable s.sys)
    (hlt : stream.epoch < s.sys.st.nextConnEpoch) (h : endpoint.Leads s.sys s'.sys)
    (hf : s.failure stream ≠ none) : s'.failure stream ≠ none := by
  rw [failure_ne_none_iff] at hf ⊢
  exact fun e' he' => entryFor_failed hs h hlt hf he'

end SendSys

/-- What the flag of a stream says about the record. -/
structure Ending.Inv (stream : StreamRes) (s : SendSys) (r : Ending) : Prop where
  sys : endpoint.Reachable s.sys
  epoch : stream.epoch < s.sys.st.nextConnEpoch
  /-- noq was asked to end the stream, or its connection has failed. -/
  ended : s.res.ended = true → s.failure stream ≠ none ∨ r.finishes ≠ [] ∨ 0 < r.resets
  /-- Nothing has finished the stream. -/
  open_ : s.res.ended = false → r.finishes = []

namespace Ending

/-- A finish is recorded, unless the connection has failed. -/
theorem finish_asked (r : Ending) (failure : Option Error) (answer : FinishAnswer) :
    failure ≠ none ∨ (r.finish failure answer).finishes ≠ [] := by
  rw [or_iff_not_imp_left, not_not]
  rintro rfl
  simp [finish]

/-- A reset is recorded, unless the stream is stale. -/
theorem reset_asked (r : Ending) (entry : Option ConnEntry) :
    entry = none ∨ 0 < (r.reset entry).resets := by
  cases entry with
  | none => exact .inl rfl
  | some e => exact .inr (Nat.succ_pos _)

/-- A step keeps what the flag says. -/
theorem Inv.step (hi : Inv stream s r) (hst : SendStep stream refused s s')
    (hn : Ends stream s s' r r') : Inv stream s' r' := by
  have hsys : endpoint.Leads s.sys s'.sys := hst.sys
  have hfail := SendSys.failure_leads hi.sys hi.epoch hsys
  refine ⟨hi.sys.leads hsys, lt_of_lt_of_le hi.epoch (ledger_advances hi.sys hsys).epoch, ?_, ?_⟩
  · intro hended
    cases hn with
    | finish | viaEnded =>
      exact (finish_asked r _ _).imp hfail .inl
    | viaDone hall =>
      refine (finish_asked r _ _).imp (fun hf => hfail ?_) .inl
      rwa [hall.failure] at hf
    | reset => exact (reset_asked r _).imp (fun he => hfail (SendSys.failure_of_stale he)) .inr
    | other hflag => exact (hi.ended (hflag ▸ hended)).imp_left hfail
  · intro hopen
    cases hn with
    | other hflag => exact hi.open_ (hflag ▸ hopen)
    | _ => cases hopen

end Ending

/-- In every run, what the flag says about the record holds. -/
theorem ending_inv (hs : (ending stream).Reachable (s, r)) : r.Inv stream s := by
  refine hs.invariant (P := fun x => x.2.Inv stream x.1) ?_ ?_
  · rintro ⟨_, _⟩ ⟨⟨sys, hr, hmem, rfl⟩, rfl⟩
    exact ⟨hr, (ledger_inv hr).held_lt (Sys.Holds.held (.stream hmem)), nofun, fun _ => rfl⟩
  · rintro ⟨s, r⟩ ⟨s', r'⟩ - ⟨⟨refused, hst⟩, hn⟩ hi
    exact hi.step hst hn

/-! ## The drop -/

/-- A stream whose connection lives has ended after the drop, unless a finish reached noq
    and none was accepted. -/
theorem ended_drop_iff (hs : (ending stream).Reachable (s, r)) (ha : s.failure stream = none) :
    (SendSys.drop stream (s, r)).2.Ended ↔ r.finishes = [] ∨ r.Ended := by
  have hi := ending_inv hs
  rw [SendSys.drop]
  cases hended : s.res.ended with
  | true =>
    rw [if_pos rfl, iff_or_self]
    -- Without a finish, it was a reset that raised the flag.
    intro hnil
    rcases hi.ended hended with hf | hf | hreset
    · exact absurd ha hf
    · exact absurd hnil hf
    · exact .inr hreset
  | false =>
    rw [if_neg Bool.false_ne_true]
    refine iff_of_true (.inr ?_) (.inl (hi.open_ hended))
    rcases r.reset_asked (s.entry stream) with he | hreset
    · exact absurd ha (SendSys.failure_of_stale he)
    · exact hreset

/-- A byte is written, the next write is cancelled, and the stream is dropped: its drop
    resets it. -/
theorem ended_drop_cancelled : ∃ s r, (ending ⟨0, 0, 0⟩).Reachable (s, r) ∧
    s.calls.map WriteCall.outcome = [.returned (.ok ()), .cancelled] ∧
    s.noq.accepted = [1] ∧ r.resets = 0 ∧ (SendSys.drop ⟨0, 0, 0⟩ (s, r)).2.Ended := by
  let start : SendSys := ⟨Sys.streaming (Vector.replicate 32 7), .new, .new, ∅, []⟩
  have hstart : (ending ⟨0, 0, 0⟩).Reachable (start, .new) :=
    .init ⟨⟨_, streaming_reachable, List.mem_singleton_self _, rfl⟩, rfl⟩
  have hwrite : (ending ⟨0, 0, 0⟩).Reachable (_, .new) :=
    hstart.step ⟨⟨_, @SendStep.writeStarted _ _ 1 [1] _ rfl nofun rfl⟩, .other rfl rfl⟩
  have hwritten : (ending ⟨0, 0, 0⟩).Reachable (_, .new) :=
    hwrite.step ⟨⟨_, @SendStep.writeDone _ _ 1 [1] 0 1 _ _ (.ok ()) rfl rfl
      (@SendSys.WriteAll.asked _ _ _ _ (fun offset => if offset = 0 then .written 1 else .blocked)
        _ _ _ rfl (offered_once (by decide)) rfl)⟩, .other rfl rfl⟩
  have hnext : (ending ⟨0, 0, 0⟩).Reachable (_, .new) :=
    hwritten.step ⟨⟨_, @SendStep.writeStarted _ _ 2 [2] _ rfl
      (List.forall_mem_singleton.2 (by decide)) rfl⟩, .other rfl rfl⟩
  have hcancelled : (ending ⟨0, 0, 0⟩).Reachable (_, .new) :=
    hnext.step ⟨⟨_, @SendStep.writeCancelled _ _ 2 [2] 0 rfl rfl⟩, .other rfl rfl⟩
  exact ⟨_, _, hcancelled, rfl, rfl, rfl, (ended_drop_iff hcancelled rfl).2 (.inl rfl)⟩

/-- A stream that its peer has stopped is left open: noq refuses to finish it, and the drop
    does not reset it. -/
theorem not_ended_stopped : ∃ s r, (ending ⟨0, 0, 0⟩).Reachable (s, r) ∧
    s.failure ⟨0, 0, 0⟩ = none ∧ ¬(SendSys.drop ⟨0, 0, 0⟩ (s, r)).2.Ended := by
  let start : SendSys := ⟨Sys.streaming (Vector.replicate 32 7), .new, .new, ∅, []⟩
  have hstart : (ending ⟨0, 0, 0⟩).Reachable (start, .new) :=
    .init ⟨⟨_, streaming_reachable, List.mem_singleton_self _, rfl⟩, rfl⟩
  have hfinish : (ending ⟨0, 0, 0⟩).Reachable (start.doFinish ⟨0, 0, 0⟩ (.stopped 7),
      Ending.new.finish (start.failure ⟨0, 0, 0⟩) (.stopped 7)) :=
    hstart.step ⟨⟨_, .finish rfl rfl⟩, .finish⟩
  refine ⟨_, _, hfinish, rfl, ?_⟩
  rintro (hmem | hreset)
  · cases hmem with
    | tail _ hmem => cases hmem
  · exact absurd hreset (Nat.lt_irrefl 0)

end IrohEndpoint
