import IrohEndpoint.RelayClient.Liveness

/-!
# A relay that goes silent

The pump takes a liveness step of every relay connection at each tick. A relay that goes silent
without an error of its websocket is found dead: it is pinged at the first tick after it has been
quiet for `quietAfter`, and condemned at the first one after the deadline of that ping
(`condemned_of_silent`). So no more than `quietAfter + deadline` and two ticks pass between its
last message and the dead verdict, whatever happened before that message.
-/

namespace IrohEndpoint

open Transition

/-- When the last liveness step was taken, or the connection made if there is none. -/
def lastSweep (made : Instant) : List ProbeEvent → Instant
  | [] => made
  | .verdict at_ _ :: _ => at_
  | .frame _ :: log => lastSweep made log

/-- The connection was found dead, with no message since. -/
def condemned : List ProbeEvent → Bool
  | [] => false
  | .frame _ :: _ => false
  | .verdict _ .dead :: _ => true
  | .verdict _ _ :: log => condemned log

/-- A liveness step is taken at each tick: none is later than `tick` after the one before. -/
def Probed.Ticks (tick : Duration) (_ s' : Probed) : Prop :=
  s'.now ≤ lastSweep s'.made s'.log + tick

instance (tick : Duration) (s s' : Probed) : Decidable (Probed.Ticks tick s s') :=
  inferInstanceAs (Decidable (s'.now ≤ lastSweep s'.made s'.log + tick))

namespace Probed

variable {quietAfter deadline tick : Duration} {s s' : Probed}

/-- A healthy verdict is given while a ping waits for its deadline, or to a wire that is not
    quiet. -/
theorem healthy_cases {c c' : RelayClient} {now : Instant}
    (h : c.probeStep now quietAfter deadline = (.healthy, c')) :
    (∃ sent, c.probe = some sent ∧ c.lastInbound ≤ sent ∧ now - sent < deadline ∧ c' = c) ∨
      (now - c.lastInbound < quietAfter ∧ c'.probe = none ∧ c'.lastInbound = c.lastInbound) := by
  have hquiet : ∀ {c : RelayClient}, c.probeQuiet now quietAfter = (.healthy, c') →
      now - c.lastInbound < quietAfter ∧ c' = c := by
    intro c h
    rw [RelayClient.probeQuiet] at h
    split at h <;> rename_i hq <;> cases h
    exact ⟨Nat.lt_of_not_le hq, rfl⟩
  rw [RelayClient.probeStep] at h
  split at h <;> rename_i hprobe
  · rename_i sent
    split at h <;> rename_i hin
    · obtain ⟨hq, rfl⟩ := hquiet h
      exact .inr ⟨hq, rfl, rfl⟩
    · split at h <;> rename_i hdead <;> cases h
      exact .inl ⟨sent, hprobe, Nat.le_of_not_lt hin, Nat.lt_of_not_le hdead, rfl⟩
  · obtain ⟨hq, rfl⟩ := hquiet h
    exact .inr ⟨hq, hprobe, rfl⟩

/-- How late the last liveness step was, as long as the relay is not condemned. -/
structure Watched (quietAfter deadline tick : Duration) (s : Probed) : Prop where
  swept : lastSweep s.made s.log ≤ s.now
  /-- Without a ping that waits for an answer, the last step found the wire not quiet, or came
      before the last message. -/
  quiet : condemned s.log = false →
    (∀ sent, s.client.probe = some sent → sent < s.client.lastInbound) →
    lastSweep s.made s.log ≤ s.client.lastInbound + quietAfter
  /-- The ping was sent at the first step that found it quiet, and its deadline is not over. -/
  pinged : condemned s.log = false → ∀ sent, s.client.probe = some sent →
    s.client.lastInbound ≤ sent →
    sent ≤ s.client.lastInbound + quietAfter + tick ∧ lastSweep s.made s.log ≤ sent + deadline

/-- The liveness steps keep watch. -/
theorem Watched.reachable
    (hs : ((probing quietAfter deadline).restrict (Ticks tick)).Reachable s) :
    s.Watched quietAfter deadline tick ∧ s.now ≤ lastSweep s.made s.log + tick := by
  refine hs.invariant (P := fun s => s.Watched quietAfter deadline tick ∧
    s.now ≤ lastSweep s.made s.log + tick) (fun s hinit => ?_) fun s s' hr hst ⟨hw, hnow⟩ => ?_
  · obtain ⟨hprobe, hstamp, hmade, hlog⟩ := hinit
    rw [hlog, hmade]
    refine ⟨⟨?_, fun _ _ => ?_, fun _ sent hsent => ?_⟩, Nat.le_add_right _ _⟩
    · rw [hlog, hmade]
      exact le_refl _
    · rw [hlog, hmade, hstamp]
      exact Nat.le_add_right _ _
    · rw [hprobe] at hsent
      cases hsent
  · obtain ⟨hst, htick⟩ := hst
    refine ⟨?_, htick⟩
    have hi := Inv.reachable hr.of_restrict
    cases hst with
    | pass => exact ⟨Nat.le_add_right_of_le hw.swept, hw.quiet, hw.pinged⟩
    | @frame message =>
      obtain ⟨hstamp, hprobe⟩ := s.client.onMessage_liveness s.now message
      refine ⟨hw.swept, fun _ _ => ?_, fun _ sent hsent hle => ?_⟩
      · rw [hstamp]
        exact hw.swept.trans (Nat.le_add_right _ _)
      · -- A ping that is not older than the message was sent at the same reading of the clock.
        rw [hstamp] at hle ⊢
        rw [hprobe] at hsent
        have hpast := (hi.probed sent hsent).1
        exact ⟨hpast.trans (Nat.le_add_right_of_le (Nat.le_add_right _ _)),
          hw.swept.trans (Nat.le_add_right_of_le hle)⟩
    | @probe v client hv =>
      cases v with
      | dead => exact ⟨le_refl _, nofun, nofun⟩
      | healthy =>
        rcases healthy_cases hv with ⟨sent, hprobe, hle, hwait, rfl⟩ | ⟨hquiet, hnone, hin⟩
        · refine ⟨le_refl _, fun _ hold => ?_, fun hlive sent' hsent' hle' => ?_⟩
          · exact absurd (hold sent hprobe) (Nat.not_lt.2 hle)
          · obtain rfl : sent = sent' := Option.some.inj (hprobe.symm.trans hsent')
            refine ⟨(hw.pinged hlive sent hprobe hle).1, ?_⟩
            exact Nat.sub_le_iff_le_add'.1 hwait.le
        · refine ⟨le_refl _, fun _ _ => ?_, fun _ sent hsent => ?_⟩
          · rw [hin]
            exact Nat.sub_le_iff_le_add'.1 hquiet.le
          · rw [hnone] at hsent
            cases hsent
      | ping payload =>
        obtain ⟨_, -, -, -, ⟨hno, -⟩ | ⟨hno, -⟩⟩ | ⟨hanswered, hin, ⟨hno, -⟩ | ⟨_, -, -, hprobe⟩⟩ :=
          RelayClient.probeStep_cases hv
        · cases hno
        · cases hno
        · cases hno
        · refine ⟨le_refl _, fun _ hold => ?_, fun hlive sent hsent _ => ?_⟩
          · have hpast := hold s.now hprobe
            rw [hin] at hpast
            exact absurd hi.past (Nat.not_le.2 hpast)
          · -- The step before had found the wire not quiet.
            obtain rfl : s.now = sent := Option.some.inj (hprobe.symm.trans hsent)
            have hbefore := hw.quiet hlive hanswered
            rw [hin]
            exact ⟨hnow.trans (Nat.add_le_add_right hbefore tick), Nat.le_add_right _ _⟩

/-- **A relay that is silent** for `quietAfter + deadline` and two ticks has been condemned. -/
theorem condemned_of_silent
    (hs : ((probing quietAfter deadline).restrict (Ticks tick)).Reachable s)
    (hsilent : lastFrame s.made s.log + (quietAfter + deadline + 2 * tick) < s.now) :
    condemned s.log = true := by
  by_contra hno
  have hlive : condemned s.log = false := by simpa using hno
  obtain ⟨hw, hnow⟩ := Watched.reachable hs
  have hstamp := (Inv.reachable hs.of_restrict).stamped
  by_cases hwaits : ∃ sent, s.client.probe = some sent ∧ s.client.lastInbound ≤ sent
  · obtain ⟨sent, hprobe, hle⟩ := hwaits
    obtain ⟨hsent, hswept⟩ := hw.pinged hlive sent hprobe hle
    rw [hstamp] at hsent
    grind
  · have hquiet := hw.quiet hlive fun sent hprobe =>
      Nat.lt_of_not_le fun hle => hwaits ⟨sent, hprobe, hle⟩
    rw [hstamp] at hquiet
    grind

end Probed

/-- A relay that never sends anything is condemned: the fifth tick comes after the fourth has
    found it dead. -/
theorem condemned_never_heard : ∃ s : Probed,
    ((probing 1 1).restrict (Probed.Ticks 1)).Reachable s ∧ lastFrame s.made s.log = 0 ∧
      s.now = 5 ∧ condemned s.log = true := by
  have hnew : ((probing 1 1).restrict (Probed.Ticks 1)).Reachable Probed.new :=
    .init ⟨rfl, rfl, rfl, rfl⟩
  have h1 := hnew.step ⟨.pass (d := 1), by decide⟩
  have hping := h1.step ⟨.probe rfl, by decide⟩
  have h2 := hping.step ⟨.pass (d := 1), by decide⟩
  have hdead := h2.step ⟨.probe rfl, by decide⟩
  have h3 := hdead.step ⟨.pass (d := 1), by decide⟩
  have h3' := h3.step ⟨.probe rfl, by decide⟩
  have h4 := h3'.step ⟨.pass (d := 1), by decide⟩
  have h4' := h4.step ⟨.probe rfl, by decide⟩
  have h5 := h4'.step ⟨.pass (d := 1), by decide⟩
  exact ⟨_, h5, rfl, rfl, Probed.condemned_of_silent h5 (by decide)⟩

end IrohEndpoint
