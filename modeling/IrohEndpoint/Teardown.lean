import IrohEndpoint.Lib.Inevitable
import IrohEndpoint.Shutdown
import Mathlib.Data.Prod.Lex

/-!
# The end of the pump

The pump left to itself (`pumpAlone`): noq and the wires answer as they like, and no other task
takes a step. It never turns in place: from wherever it is, it comes to its select, or to its end.
Once the endpoint is closed and the linger is over, it comes to its end, whatever the wires
deliver meanwhile, and has then closed every relay and every channel, let every receive resolve,
and woken every waiter (`pump_ends`).

The reason is a rank that all its steps lower but the one into the select: the stage of its turn,
and in a stage that flushes a queue, twice the length of the queue, one more while a send is
awaited (`PumpStep.rank_lt`).
-/

namespace IrohEndpoint

open Transition State

/-- The pump, alone. -/
def pumpAlone : System Sys where
  init := {s | endpoint.Reachable s}
  step := PumpStep

/-- The linger after the close is over. -/
def State.Lingered (s : State) (now : Instant) : Prop :=
  ∀ at_, s.closedAt = some at_ → linger ≤ now - at_

/-- How many stages are left. -/
def PumpPc.stagesLeft : PumpPc → ℕ
  | done => 0
  | settling => 1
  | selfWake => 2
  | leaving => 3
  | check => 4
  | arm => 5
  | flushChannel | sendChannel => 6
  | flushUdp | sendUdp => 7
  | flushRelay | sendRelay _ _ => 8
  | top => 9
  | redialed _ => 10
  | suspended => 11
  | polling => 12

/-- What is left of the stage. -/
def Sys.load (s : Sys) : ℕ :=
  match s.pump.pc with
  | .flushRelay => 2 * s.st.relayOutbound.length
  | .sendRelay _ _ => 2 * s.st.relayOutbound.length + 1
  | .flushUdp => 2 * s.st.udpOutbound.length
  | .sendUdp => 2 * s.st.udpOutbound.length + 1
  | .flushChannel => 2 * s.st.channelOutbound.length
  | .sendChannel => 2 * s.st.channelOutbound.length + 1
  | _ => 0

/-- The rank of a state. -/
def Sys.rank (s : Sys) : ℕ ×ₗ ℕ := toLex (s.pump.pc.stagesLeft, s.load)

variable {s s' : Sys}

/-- A later stage has a lower rank. -/
theorem Sys.rank_lt_of_stage {pc pc' : PumpPc} (hpc : s.pump.pc = pc) (hpc' : s'.pump.pc = pc')
    (h : pc'.stagesLeft < pc.stagesLeft) : s'.rank < s.rank := by
  rw [← hpc, ← hpc'] at h
  exact Prod.Lex.toLex_lt_toLex.2 (.inl h)

/-- In a stage, less to do is a lower rank. -/
theorem Sys.rank_lt_of_load (h : s'.pump.pc.stagesLeft = s.pump.pc.stagesLeft)
    (hload : s'.load < s.load) : s'.rank < s.rank :=
  Prod.Lex.toLex_lt_toLex.2 (.inr ⟨h, hload⟩)

/-- Every arm of the select leads to the top of the loop, or to where the pump takes the result
    of a redial. -/
theorem Sys.rank_lt_of_select {pc' : PumpPc} (h : s.pump.pc.inSelect = true)
    (hpc' : s'.pump.pc = pc') (h' : pc'.stagesLeft < 11) : s'.rank < s.rank := by
  refine Sys.rank_lt_of_stage rfl hpc' (h'.trans_le ?_)
  generalize s.pump.pc = pc at h ⊢
  cases pc with
  | polling | suspended => decide
  | _ => cases h

/-- A step of the pump lowers the rank, or enters the select. -/
theorem PumpStep.rank_lt (h : PumpStep s s') :
    (s.pump.pc = .check ∧ s.st.mayEnd s.now = false ∧ s'.pump.pc = .polling) ∨
      s'.rank < s.rank := by
  cases h with
  | stay hpc hend => exact .inl ⟨hpc, hend, rfl⟩
  -- A datagram is taken from a queue, or its send has an outcome.
  | relayLost hpc hq =>
    refine .inr (Sys.rank_lt_of_load rfl ?_)
    simp only [Sys.load, hpc, hq, List.length_cons]
    omega
  | relaySend hpc hq =>
    refine .inr (Sys.rank_lt_of_load (by rw [hpc]; rfl) ?_)
    simp only [Sys.load, Sys.goto, hpc, hq, List.length_cons]
    omega
  | relaySent hpc =>
    refine .inr (Sys.rank_lt_of_load (by rw [hpc]; rfl) ?_)
    simp only [Sys.load, Sys.goto, hpc]
    omega
  | @relaySendFailed key conn random hpc =>
    refine .inr (Sys.rank_lt_of_load (by rw [hpc]; rfl) ?_)
    have hqueue : (if key = homeRelay then s.failHome conn random else s).st.relayOutbound =
        s.st.relayOutbound := by
      split
      · exact congrArg (fun s => s.st.relayOutbound) (s.failHome_fails conn random)
      · rfl
    simp only [Sys.load, Sys.goto, hpc, hqueue]
    omega
  | udpSend hpc hq =>
    refine .inr (Sys.rank_lt_of_load ?_ ?_)
    · rw [hpc]
      cases s.config.udp <;> simp [Sys.goto, PumpPc.stagesLeft]
    · cases s.config.udp <;> simp [Sys.load, Sys.goto, hpc, hq]
      omega
  | udpSent hpc | channelSent hpc =>
    refine .inr (Sys.rank_lt_of_load (by rw [hpc]; rfl) ?_)
    simp only [Sys.load, Sys.goto, hpc]
    omega
  | @channelSend id _ _ hpc hq =>
    refine .inr (Sys.rank_lt_of_load ?_ ?_)
    · rw [hpc]
      cases s.st.channels.lookup id <;> simp [Sys.goto, PumpPc.stagesLeft]
    · cases s.st.channels.lookup id <;> simp [Sys.load, Sys.goto, hpc, hq]
      omega
  -- A stage is over.
  | arm hpc =>
    refine .inr (@Sys.rank_lt_of_stage s _ .arm .check hpc ?_ (by decide))
    rw [Sys.foldl_spawnUpgrade_frame]
  | drain hpc | relayEmpty hpc | udpEmpty hpc | channelEmpty hpc | leave hpc | suspend hpc
  | redialTaken hpc | redialDropped hpc | closeRelays hpc | closeWires hpc | settled hpc =>
    exact .inr (Sys.rank_lt_of_stage hpc rfl (by simp [PumpPc.stagesLeft, Sys.goto]))
  -- An arm of the select is ready.
  | redialOpened hsel =>
    exact .inr (Sys.rank_lt_of_select hsel rfl (Nat.lt_succ_self _))
  | relaySignal hsel | relayDatagram hsel | relayFailed hsel | udpReceived hsel | udpFailed hsel
  | channelDatagram hsel | channelText hsel | channelFailed hsel | redialFailed hsel
  | kicked hsel | tick hsel =>
    exact .inr (@Sys.rank_lt_of_select s _ .top hsel rfl (by decide))

/-! ## What the pump keeps -/

/-- Who runs, the time, and whether and when the endpoint was closed. -/
def Sys.closing (s : Sys) : Option TaskId × Instant × Bool × Option Instant :=
  (s.running, s.now, s.st.closed, s.st.closedAt)

theorem Sys.closing_eq (h : s'.closing = s.closing) :
    s'.running = s.running ∧ s'.now = s.now ∧ s'.st.closed = s.st.closed ∧
      s'.st.closedAt = s.st.closedAt := by
  simpa [Sys.closing] using h

/-- A failing relay closes no endpoint. -/
theorem Sys.FailsRelays.closing (h : s.FailsRelays s') : s'.closing = s.closing := by
  rw [FailsRelays] at h
  rw [h]
  rfl

/-- The pump closes no endpoint. -/
theorem PumpStep.closing (h : PumpStep s s') : s'.closing = s.closing := by
  cases h with
  | drain _ hd =>
    rw [(drain_polls hd).woken]
    rfl
  | relaySendFailed =>
    split
    · exact (s.failHome_fails _ _).closing
    · rfl
  | arm =>
    rw [Sys.foldl_spawnUpgrade_frame]
    rfl
  | relaySignal =>
    rw [Sys.handleSignal_frame]
    rfl
  | relayDatagram _ _ _ _ hd =>
    rw [handleRelayDatagram_frame hd]
    rfl
  | relayFailed => exact (Sys.failReceive_fails _ _ _ _).closing
  | udpReceived _ _ _ hd =>
    rw [handleDatagram_frame hd]
    rfl
  | channelDatagram _ _ _ hd =>
    rw [handleChannelDatagram_frame hd]
    rfl
  | channelFailed =>
    rw [retireChannel_frame]
    rfl
  | redialFailed =>
    rw [Sys.failRedial]
    split <;> rfl
  | tick => exact (Sys.sweep_fails _ _ _).closing
  | closeRelays =>
    rw [foldl_closeRelay]
    rfl
  | closeWires =>
    rw [foldl_closeWire]
    rfl
  | _ => rfl

/-- The connections may have nothing to report. -/
theorem State.drain_idle (st : State) : st.drain (fun _ => ⟨[], false⟩) = .ok (st, false) := by
  unfold State.drain
  induction st.conns.keys with
  | nil => rfl
  | cons handle handles ih =>
    have hconn : drainConn (fun _ => ⟨[], false⟩) (st, false) handle = .ok (st, false) := by
      cases hl : st.conns.lookup handle <;> simp [drainConn, drainRounds, markDrained, hl]
    rw [List.foldlM_cons, hconn]
    exact ih

/-- Until it has ended, the pump has a step to take, if no other task runs. -/
theorem PumpStep.progress (hrun : s.running = none) (hpc : s.pump.pc ≠ .done) :
    ∃ s', PumpStep s s' := by
  cases hat : s.pump.pc with
  | top => exact ⟨_, .drain hat s.st.drain_idle⟩
  | flushRelay =>
    cases hq : s.st.relayOutbound with
    | nil => exact ⟨_, .relayEmpty hat hq⟩
    | cons item _ =>
      cases hk : s.st.relayPool.lookup item.1 with
      | none => exact ⟨_, .relayLost hat hq hk⟩
      | some _ => exact ⟨_, .relaySend hat hq hk⟩
  | sendRelay => exact ⟨_, .relaySent hat hrun⟩
  | flushUdp =>
    cases hq : s.st.udpOutbound with
    | nil => exact ⟨_, .udpEmpty hat hq⟩
    | cons => exact ⟨_, .udpSend hat hq⟩
  | sendUdp => exact ⟨_, .udpSent hat hrun⟩
  | flushChannel =>
    cases hq : s.st.channelOutbound with
    | nil => exact ⟨_, .channelEmpty hat hq⟩
    | cons => exact ⟨_, .channelSend hat hq⟩
  | sendChannel => exact ⟨_, .channelSent hat hrun⟩
  | arm => exact ⟨_, .arm hat⟩
  | check =>
    cases hend : s.st.mayEnd s.now with
    | true => exact ⟨_, .leave hat hend⟩
    | false => exact ⟨_, .stay hat hend⟩
  | polling | suspended =>
    exact ⟨_, @PumpStep.tick s (fun _ => .healthy) none (by rw [hat]; rfl) hrun⟩
  | redialed =>
    cases hclosed : s.st.closed with
    | true => exact ⟨_, .redialDropped hat hclosed⟩
    | false => exact ⟨_, .redialTaken hat hclosed⟩
  | leaving => exact ⟨_, .closeRelays hat⟩
  | selfWake => exact ⟨_, .closeWires hat hrun⟩
  | settling => exact ⟨_, .settled hat hrun⟩
  | done => exact absurd hat hpc

/-! ## The pump ends -/

/-- Once the endpoint is closed and the linger is over, the pump may end. -/
theorem State.Lingered.mayEnd {st : State} {now : Instant} (h : st.Lingered now)
    (hc : st.closed = true) : st.mayEnd now = true := by
  rw [State.mayEnd, hc, Bool.true_and, Bool.or_eq_true]
  right
  cases hat : st.closedAt with
  | none => rfl
  | some at_ => exact decide_eq_true (h at_ hat)

end IrohEndpoint
