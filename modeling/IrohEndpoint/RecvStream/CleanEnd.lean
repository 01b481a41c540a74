import IrohEndpoint.RecvStream.Basic

/-!
# The clean end of a receive stream

A stream should be reported as cleanly ended only if the peer's FIN was delivered,
and the future of `read_via_stream` should otherwise report what `read` would
(`FinOnly`).

`read_some` takes `ClosedStream` for a clean end unless the connection has failed,
while noq also answers it for a stream that was stopped, or whose reset was
consumed: `read` after `stop` reports a clean end (`not_finOnly_stop`). And the
pump of `read_via_stream` does not look at the outcome that an earlier `read` has
latched. The reports are right in the runs in which no consumer is polled in such
a state (`PolledInTime`, `finOnly_reachable`).
-/

namespace IrohEndpoint

open Transition

/-- A report is right, of the stream `noq`: a clean end only if its FIN was
    delivered, and otherwise, from the future of `read_via_stream`, the error that
    `read` would report. -/
def Report.Right (noq : NoqRecv) : Report → Prop
  | read result => result = .ok none → noq.finDelivered = true
  | via outcome reported => (outcome = .ok () ∧ noq.finDelivered = true) ∨
      ∃ err, outcome = .error err ∧ reported = .error err
  | viaAbandoned => True

/-- The FIN is the only clean end: every report is right. -/
def FinOnly (s : RecvSys) : Prop := ∀ report ∈ s.log, report.Right s.noq

/-- The failure in a terminal outcome. -/
def failureOf : Except Error Unit → Option Error
  | .ok _ => none
  | .error err => some err

/-- A consumer is polled in time: while the stream is not gone without its FIN, or
    else its connection has failed; and the pump of `read_via_stream`, once a `read`
    has reported the end, only while the connection gives the same outcome. -/
def PolledInTime (stream : StreamRes) : Action → RecvSys → Prop
  | .poll id, s =>
    (s.noq.gone = true → s.noq.finDelivered = false → s.failure stream ≠ none) ∧
      (s.consumers.lookup id = some .via → ∀ terminal, s.res.terminal = some terminal →
        s.failure stream = failureOf terminal)
  | _, _ => True

namespace CleanEnd

/-- Nothing but an end is left to report. -/
def Over (stream : StreamRes) (s : RecvSys) (noq : NoqRecv) : Prop :=
  noq.gone = true ∨ s.entry stream = none ∨ s.failure stream ≠ none ∧ noq.Drained

/-- The invariant of the runs in which the consumers are polled in time. -/
structure Inv (stream : StreamRes) (s : RecvSys) : Prop where
  finOnly : FinOnly s
  gone : s.noq.finDelivered = true → s.noq.gone = true
  clean : s.res.terminal = some (.ok ()) → s.noq.finDelivered = true
  ended : ∀ err, s.res.terminal = some (.error err) → Over stream s s.noq

variable {stream : StreamRes} {s s' : RecvSys}

section Stable

variable (hs : endpoint.Reachable s.sys) (hlt : stream.epoch < s.sys.st.nextConnEpoch)
  (h : endpoint.Leads s.sys s'.sys)
include hs hlt h

/-- A connection that is gone does not come back. -/
theorem entry_none (hn : s.entry stream = none) : s'.entry stream = none :=
  entryFor_gone hs h hlt hn

/-- A connection that has failed stays so. -/
theorem failure_ne_none (hf : s.failure stream ≠ none) : s'.failure stream ≠ none := by
  rw [RecvSys.failure]
  split
  · simp
  · rename_i e' he'
    refine entryFor_failed hs h hlt (fun e he => ?_) he'
    rwa [RecvSys.failure_of_entry he] at hf

/-- What is over stays over. -/
theorem Over.leads {noq : NoqRecv} (ho : Over stream s noq) : Over stream s' noq :=
  ho.imp_right (.imp (entry_none hs hlt h) (.imp_left (failure_ne_none hs hlt h)))

end Stable

/-- A connection that is alive is not gone. -/
theorem Over.gone {noq : NoqRecv} (ho : Over stream s noq) (ha : s.failure stream = none) :
    noq.gone = true := by
  rcases ho with h | h | h
  · exact h
  · rw [RecvSys.failure, h] at ha
    cases ha
  · exact absurd ha h.1

/-! ## Polling -/

section Poll

variable {noq : NoqRecv} {result : Option (Except Error (Option Bytes))} {err : Error}

/-- What was delivered stays so, and is gone. -/
theorem poll_gone (h : s.Poll stream noq result)
    (hi : s.noq.finDelivered = true → s.noq.gone = true) :
    (s.noq.finDelivered = true → noq.finDelivered = true) ∧
      (noq.finDelivered = true → noq.gone = true) := by
  cases h with
  | fin => exact ⟨fun _ => rfl, fun _ => rfl⟩
  | reset => exact ⟨fun h => h, fun _ => rfl⟩
  | _ => exact ⟨fun h => h, hi⟩

/-- What is over stays over. -/
theorem Over.poll (ho : Over stream s s.noq) (h : s.Poll stream noq result) :
    Over stream s noq := by
  cases h with
  | chunk hne hg hpre hnil =>
    -- There is nothing left to take.
    rcases ho with ho | ho | ⟨-, hd⟩
    · exact absurd (hg.symm.trans ho) Bool.false_ne_true
    · exact absurd ho hne
    · rw [hd.taken, List.drop_length, List.prefix_nil] at hpre
      exact absurd hpre hnil
  | fin | reset => exact .inl rfl
  | _ => exact ho

/-- In time, a clean end is that of a FIN. -/
theorem poll_clean (h : s.Poll stream noq (some (.ok none)))
    (hok : s.noq.gone = true → s.noq.finDelivered = false → s.failure stream ≠ none) :
    noq.finDelivered = true := by
  cases h with
  | spent _ hg hf =>
    rw [← Bool.not_eq_false]
    exact fun hfin => hok hg hfin hf
  | fin => rfl

/-- After an error, nothing but an end is left to report. -/
theorem poll_error (h : s.Poll stream noq (some (.error err))) : Over stream s noq := by
  cases h with
  | stale he => exact .inr (.inl he)
  | lost _ hg => exact .inl hg
  | reset => exact .inl rfl
  | failed _ _ hd hf =>
    refine .inr (.inr ⟨?_, hd⟩)
    rw [hf]
    nofun

/-- Once a `read` has reported the end and the connection gives the same outcome,
    an error is the one that was reported. -/
theorem poll_report (h : s.Poll stream noq (some (.error err))) (hi : Inv stream s)
    (hok : ∀ terminal, s.res.terminal = some terminal → s.failure stream = failureOf terminal) :
    s.res.report (.error err) = .error err := by
  have hstale : s.entry stream = none → s.failure stream = some .closed := by
    intro he
    rw [RecvSys.failure, he]
  rw [RecvStreamRes.report]
  split <;> rename_i ht
  · rename_i terminal
    have hf := hok terminal ht
    cases terminal with
    | ok _ =>
      -- The FIN was delivered, so that noq answers `ClosedStream`.
      have hg := hi.gone (hi.clean ht)
      cases h with
      | stale he => cases hf.symm.trans (hstale he)
      | lost _ _ hf' => cases hf.symm.trans hf'
      | reset _ hg' => exact absurd (hg'.symm.trans hg) Bool.false_ne_true
      | failed _ _ _ hf' => cases hf.symm.trans hf'
    | error err' =>
      cases h with
      | stale he =>
        cases hf.symm.trans (hstale he)
        rfl
      | lost _ _ hf' | failed _ _ _ hf' =>
        cases hf.symm.trans hf'
        rfl
      | reset hne hg hreset =>
        -- A reset that was not consumed is not left behind.
        rcases hi.ended err' ht with ho | ho | ⟨-, hd⟩
        · exact absurd (hg.symm.trans ho) Bool.false_ne_true
        · exact absurd ho hne
        · cases hd.reset.symm.trans hreset
  · rfl

/-- What a `read` latches in time. -/
theorem poll_latched {result : Except Error (Option Bytes)} (h : s.Poll stream noq (some result))
    (hok : s.noq.gone = true → s.noq.finDelivered = false → s.failure stream ≠ none) :
    (s.res.endRead result).terminal = s.res.terminal ∨
      ((s.res.endRead result).terminal = some (.ok ()) → noq.finDelivered = true) ∧
        ∀ err, (s.res.endRead result).terminal = some (.error err) → Over stream s noq := by
  cases result with
  | error err => exact .inr ⟨nofun, fun _ _ => poll_error h⟩
  | ok bytes =>
    cases bytes with
    | none => exact .inr ⟨fun _ => poll_clean h hok, nofun⟩
    | some bytes => exact .inl rfl

/-- What the future of `read_via_stream` reports in time. -/
theorem poll_right {result : Except Error (Option Bytes)} {outcome : Except Error Unit}
    (h : s.Poll stream noq (some result)) (hi : Inv stream s)
    (ho : RecvStreamRes.outcome result = some outcome)
    (hok : s.noq.gone = true → s.noq.finDelivered = false → s.failure stream ≠ none)
    (hok' : ∀ terminal, s.res.terminal = some terminal →
      s.failure stream = failureOf terminal) :
    (Report.via outcome (s.res.report result)).Right noq := by
  cases result with
  | error err =>
    cases ho
    exact .inr ⟨err, rfl, poll_report h hi hok'⟩
  | ok bytes =>
    cases bytes with
    | none =>
      cases ho
      exact .inl ⟨rfl, poll_clean h hok⟩
    | some bytes => cases ho

end Poll

/-! ## Steps -/

/-- A right report stays right. -/
theorem Report.Right.mono {noq noq' : NoqRecv} {r : Report} (h : r.Right noq)
    (hfin : noq.finDelivered = true → noq'.finDelivered = true) : r.Right noq' := by
  cases r with
  | read result => exact fun hr => hfin (h hr)
  | via outcome read => exact h.imp_left fun ⟨ho, hd⟩ => ⟨ho, hfin hd⟩
  | viaAbandoned => trivial

/-- What keeps the invariant: nothing that was delivered is taken back, and what is
    latched and reported is right. -/
theorem Inv.next (hi : Inv stream s) (hs : endpoint.Reachable s.sys)
    (hlt : stream.epoch < s.sys.st.nextConnEpoch) (h : endpoint.Leads s.sys s'.sys)
    (hfin : s.noq.finDelivered = true → s'.noq.finDelivered = true)
    (hgone : s'.noq.finDelivered = true → s'.noq.gone = true)
    (hterminal : s'.res.terminal = s.res.terminal ∨
      (s'.res.terminal = some (.ok ()) → s'.noq.finDelivered = true) ∧
        ∀ err, s'.res.terminal = some (.error err) → Over stream s s'.noq)
    (hover : Over stream s s.noq → Over stream s s'.noq)
    (hlog : s'.log = s.log ∨ ∃ r, s'.log = s.log ++ [r] ∧ r.Right s'.noq) : Inv stream s' where
  finOnly := by
    intro r hr
    rcases hlog with hlog | ⟨r', hlog, hr'⟩ <;> rw [hlog] at hr
    · exact Report.Right.mono (hi.finOnly r hr) hfin
    · rcases List.mem_append.1 hr with hr | hr
      · exact Report.Right.mono (hi.finOnly r hr) hfin
      · rw [List.mem_singleton.1 hr]
        exact hr'
  gone := hgone
  clean := by
    rcases hterminal with ht | ⟨ht, -⟩
    · exact fun h => hfin (hi.clean (ht ▸ h))
    · exact ht
  ended := by
    intro err herr
    rcases hterminal with ht | ⟨-, ht⟩
    · exact (hover (hi.ended err (ht ▸ herr))).leads hs hlt h
    · exact (ht err herr).leads hs hlt h

/-- What changes neither the stream nor what was reported keeps the invariant. -/
theorem Inv.leads (hi : Inv stream s) (hs : endpoint.Reachable s.sys)
    (hlt : stream.epoch < s.sys.st.nextConnEpoch) (h : endpoint.Leads s.sys s'.sys)
    (hnoq : s'.noq = s.noq) (hres : s'.res.terminal = s.res.terminal) (hlog : s'.log = s.log) :
    Inv stream s' :=
  hi.next hs hlt h (fun hd => hnoq ▸ hd) (by rw [hnoq]; exact hi.gone) (.inl hres)
    (fun ho => hnoq ▸ ho) (.inl hlog)

/-- A step in time keeps the invariant. -/
theorem Inv.step {action : Action} (hi : Inv stream s) (hs : endpoint.Reachable s.sys)
    (hlt : stream.epoch < s.sys.st.nextConnEpoch) (hst : RecvStep stream action s s')
    (hok : PolledInTime stream action s) : Inv stream s' := by
  have hsys := hst.sys
  cases hst with
  | around | readCancelled | viaWritten => exact hi.leads hs hlt hsys rfl rfl rfl
  | data ha | fin ha | reset ha =>
    exact hi.next hs hlt hsys (fun h => h) hi.gone (.inl rfl) (fun ho => .inl (ho.gone ha)) (.inl rfl)
  | torn =>
    exact hi.next hs hlt hsys (fun h => h) (fun _ => rfl) (.inl rfl) (fun _ => .inl rfl) (.inl rfl)
  | stop =>
    rw [RecvSys.stop] at hsys ⊢
    split <;> rename_i he <;> rw [he] at hsys
    · exact hi
    · exact hi.next hs hlt hsys (fun h => h) (fun _ => rfl) (.inl rfl) (fun _ => .inl rfl) (.inl rfl)
  | readAnswered _ hr =>
    -- What is latched is reported again.
    obtain ⟨rfl, hclean⟩ := RecvStreamRes.read_some hr
    exact hi.next hs hlt hsys (fun h => h) hi.gone (.inl rfl) (fun ho => ho)
      (.inr ⟨_, rfl, fun h => hi.clean (hclean h)⟩)
  | readStarted _ _ hr =>
    obtain ⟨-, -, -, rfl⟩ := RecvStreamRes.read_none hr
    exact hi.leads hs hlt hsys rfl rfl rfl
  | readParked _ _ h | viaParked _ _ h =>
    cases h.poll with
    | blocked => exact hi.leads hs hlt hsys rfl rfl rfl
  | readDone _ _ h =>
    have hgone := poll_gone h.poll hi.gone
    exact hi.next hs hlt hsys hgone.1 hgone.2 (poll_latched h.poll hok.1)
      (fun ho => ho.poll h.poll) (.inr ⟨_, rfl, fun hr => poll_clean (hr ▸ h.poll) hok.1⟩)
  | viaRefused _ hr =>
    rw [RecvStreamRes.readViaStream_error hr]
    exact hi.leads hs hlt hsys rfl rfl rfl
  | viaStarted _ _ hr =>
    obtain ⟨-, rfl⟩ := RecvStreamRes.readViaStream_ok hr
    exact hi.leads hs hlt hsys rfl rfl rfl
  | viaChunk _ _ h =>
    have hgone := poll_gone h.poll hi.gone
    exact hi.next hs hlt hsys hgone.1 hgone.2 (.inl rfl) (fun ho => ho.poll h.poll) (.inl rfl)
  | viaDone _ hl h ho =>
    have hgone := poll_gone h.poll hi.gone
    exact hi.next hs hlt hsys hgone.1 hgone.2 (.inl rfl) (fun ho => ho.poll h.poll)
      (.inr ⟨_, rfl, poll_right h.poll hi ho hok.1 (hok.2 hl)⟩)
  | viaAbandoned =>
    exact hi.next hs hlt hsys (fun h => h) hi.gone (.inl rfl) (fun ho => ho)
      (.inr ⟨_, rfl, trivial⟩)

/-- In every run whose consumers are polled in time, the invariant holds. -/
theorem Inv.reachable {ok : Action → RecvSys → Prop}
    (hok : ∀ action s, ok action s → PolledInTime stream action s)
    (hs : (recvStream stream ok).Reachable s) : Inv stream s := by
  refine hs.invariant (P := Inv stream) ?_ ?_
  · rintro _ ⟨sys, -, -, rfl⟩
    exact ⟨fun _ h => absurd h List.not_mem_nil, nofun, nofun, nofun⟩
  · rintro s s' hr ⟨action, hst, htime⟩ hi
    obtain ⟨hsys, hlt⟩ := recvStream_sys hr
    exact hi.step hsys hlt hst (hok action s htime)

end CleanEnd

/-- In every run whose consumers are polled in time, the FIN is the only clean end. -/
theorem finOnly_reachable {stream : StreamRes} {s : RecvSys}
    (hs : (recvStream stream (PolledInTime stream)).Reachable s) : FinOnly s :=
  (CleanEnd.Inv.reachable (fun _ _ => id) hs).finOnly

/-- A stream is read to its FIN, which is reported as its clean end. -/
theorem finOnly_fin : ∃ s : RecvSys, s.log = [.read (.ok (some [1])), .read (.ok none)] ∧
    s.noq.finDelivered = true ∧ FinOnly s := by
  have hstart := recvStream_start (PolledInTime ⟨0, 0, 0⟩)
  have hdata := hstart.step ⟨_, @RecvStep.data _ _ [1] rfl rfl rfl, trivial⟩
  have hfin := hdata.step ⟨_, .fin rfl rfl, trivial⟩
  have hread := hfin.step ⟨_, @RecvStep.readStarted _ _ 0 1 _ rfl rfl rfl, trivial⟩
  have hchunk := hread.step ⟨_, @RecvStep.readDone _ _ 0 1 _ _ _ rfl rfl
    (.asked rfl (@NoqRecv.Answers.chunk _ _ [1] rfl (List.prefix_refl _) nofun (le_refl _)) rfl),
    nofun, nofun⟩
  have hread' := hchunk.step ⟨_, @RecvStep.readStarted _ _ 0 1 _ rfl rfl rfl, trivial⟩
  have hend := hread'.step ⟨_, @RecvStep.readDone _ _ 0 1 _ _ _ rfl rfl
    (.asked rfl (.fin rfl rfl rfl) rfl), nofun, nofun⟩
  exact ⟨_, rfl, rfl, finOnly_reachable hend⟩

/-- A stream is stopped, and then read: it is reported as cleanly ended, although
    the peer has not finished it. -/
theorem not_finOnly_stop : ∃ s : RecvSys, (recvStream ⟨0, 0, 0⟩ fun _ _ => True).Reachable s ∧
    s.noq.fin = false ∧ s.noq.finDelivered = false ∧ Report.read (.ok none) ∈ s.log ∧
    ¬FinOnly s := by
  have hstart := recvStream_start fun _ _ => True
  have hstop := hstart.step ⟨_, .stop rfl, trivial⟩
  have hread := hstop.step ⟨_, @RecvStep.readStarted _ _ 0 1 _ rfl rfl rfl, trivial⟩
  have hend := hread.step ⟨_, @RecvStep.readDone _ _ 0 1 _ _ _ rfl rfl
    (.asked rfl (.closedStream rfl) rfl), trivial⟩
  refine ⟨_, hend, rfl, rfl, List.mem_singleton_self _, fun h => ?_⟩
  exact Bool.false_ne_true (h _ (List.mem_singleton_self _) rfl)

end IrohEndpoint
