import IrohEndpoint.Lib.Transition
import IrohEndpoint.RelayClient.Basic

/-!
# The liveness probe

A run of one relay connection: messages arrive, each stamping the connection with the
reading of the clock, and liveness steps are taken, in any order. The clock does not go
back, and need not advance between two events. The run is recorded in a log, newest event
first.

The log is *sound* (`SoundLog`) if a dead verdict is only given after a ping that no message
followed, `quietAfter + deadline` after the last message, and if a message was received
between any two pings. `probe_step` looks for an answer by comparing stamps, and takes a
message that is received after the ping at the same reading of the clock for an older one. A
dead verdict is then given to a relay that has answered (`not_soundLog_tied`). This is the only
way for a log not to be sound (`soundLog_reachable`).
-/

namespace IrohEndpoint

open Transition

/-- An event of a relay connection, with the reading of the clock. -/
inductive ProbeEvent
  | frame (at_ : Instant)
  | verdict (at_ : Instant) (v : RelayClient.Verdict)
  deriving DecidableEq

/-! ## Logs -/

/-- When the last message was received, or the connection made if there is none. -/
def lastFrame (made : Instant) : List ProbeEvent → Instant
  | [] => made
  | .frame at_ :: _ => at_
  | .verdict _ _ :: log => lastFrame made log

/-- When the last ping was asked for, if no message was received since. -/
def unanswered : List ProbeEvent → Option Instant
  | [] => none
  | .frame _ :: _ => none
  | .verdict at_ (.ping _) :: _ => some at_
  | .verdict _ _ :: log => unanswered log

/-- A verdict is justified by the log before it: a dead verdict by a ping without an answer,
    and `quietAfter + deadline` passed since the last message; a ping by no ping being without
    an answer. -/
def Justified (quietAfter deadline : Duration) (made at_ : Instant) (log : List ProbeEvent) :
    RelayClient.Verdict → Prop
  | .dead => (unanswered log).isSome ∧ lastFrame made log + (quietAfter + deadline) ≤ at_
  | .ping _ => unanswered log = none
  | .healthy => True

/-- The verdicts of a log are justified. -/
def SoundLog (quietAfter deadline : Duration) (made : Instant) : List ProbeEvent → Prop
  | [] => True
  | .frame _ :: log => SoundLog quietAfter deadline made log
  | .verdict at_ v :: log =>
    Justified quietAfter deadline made at_ log v ∧ SoundLog quietAfter deadline made log

/-! ## Runs -/

/-- A relay connection, the clock, when the connection was made, and the log. -/
structure Probed where
  client : RelayClient
  now : Instant
  made : Instant
  log : List ProbeEvent

/-- A step of a run. -/
inductive ProbedStep (quietAfter deadline : Duration) : Probed → Probed → Prop
  /-- Time passes. -/
  | pass {s : Probed} {d : Duration} :
      ProbedStep quietAfter deadline s { s with now := s.now + d }
  /-- A message is received. -/
  | frame {s : Probed} {message : WsMessage} :
      ProbedStep quietAfter deadline s { s with
        client := (s.client.onMessage s.now message).1
        log := .frame s.now :: s.log }
  /-- A liveness step is taken. -/
  | probe {s : Probed} {v : RelayClient.Verdict} {client : RelayClient} :
      s.client.probeStep s.now quietAfter deadline = (v, client) →
      ProbedStep quietAfter deadline s { s with
        client := client
        log := .verdict s.now v :: s.log }

/-- The runs of a relay connection, from when it is made. -/
def probing (quietAfter deadline : Duration) : System Probed where
  init := {s | s.client.probe = none ∧ s.client.lastInbound = s.now ∧ s.made = s.now ∧ s.log = []}
  step := ProbedStep quietAfter deadline

namespace RelayClient

variable {c c' : RelayClient} {now : Instant} {quietAfter deadline : Duration}

/-- A message stamps the connection, and leaves the probe. -/
theorem onMessage_liveness (c : RelayClient) (now : Instant) (message : WsMessage) :
    (c.onMessage now message).1.lastInbound = now ∧
      (c.onMessage now message).1.probe = c.probe := by
  cases message with
  | string text => exact ⟨rfl, rfl⟩
  | binary frame =>
    simp only [onMessage, onFrame]
    split
    · exact ⟨rfl, rfl⟩
    · split
      · split <;> exact ⟨rfl, rfl⟩
      · split
        · split
          · rw [send]
            split <;> exact ⟨rfl, rfl⟩
          · exact ⟨rfl, rfl⟩
        · exact ⟨rfl, rfl⟩

/-- A wire without an outstanding probe is pinged if it is quiet, or else healthy. -/
theorem probeQuiet_cases {v : Verdict} (h : c.probeQuiet now quietAfter = (v, c')) :
    c'.lastInbound = c.lastInbound ∧ ((v = .healthy ∧ c'.probe = c.probe) ∨
      ∃ payload, v = .ping payload ∧ quietAfter ≤ now - c.lastInbound ∧ c'.probe = some now) := by
  rw [probeQuiet] at h
  split at h <;> rename_i hquiet <;> cases h
  · exact ⟨rfl, .inr ⟨_, rfl, hquiet, rfl⟩⟩
  · exact ⟨rfl, .inl ⟨rfl, rfl⟩⟩

/-- What a liveness step can do: while the probe is not known to be answered, wait for its
    deadline; otherwise clear it, and ping a quiet wire. -/
theorem probeStep_cases {v : Verdict} (h : c.probeStep now quietAfter deadline = (v, c')) :
    (∃ sent, c.probe = some sent ∧ c.lastInbound ≤ sent ∧ c' = c ∧
      ((v = .dead ∧ deadline ≤ now - sent) ∨ v = .healthy ∧ now - sent < deadline)) ∨
    (∀ sent, c.probe = some sent → sent < c.lastInbound) ∧ c'.lastInbound = c.lastInbound ∧
      ((v = .healthy ∧ c'.probe = none) ∨
        ∃ payload, v = .ping payload ∧ quietAfter ≤ now - c.lastInbound ∧ c'.probe = some now) := by
  rw [probeStep] at h
  split at h <;> rename_i hprobe
  · rename_i sent
    split at h <;> rename_i hin
    · obtain ⟨hl, hcases⟩ := probeQuiet_cases h
      refine .inr ⟨fun sent' hsent => ?_, hl, hcases⟩
      obtain rfl : sent = sent' := Option.some.inj (hprobe.symm.trans hsent)
      exact hin
    · refine .inl ⟨sent, hprobe, Nat.le_of_not_lt hin, ?_⟩
      split at h <;> rename_i hdead <;> cases h
      · exact ⟨rfl, .inl ⟨rfl, hdead⟩⟩
      · exact ⟨rfl, .inr ⟨rfl, Nat.lt_of_not_le hdead⟩⟩
  · obtain ⟨hl, hcases⟩ := probeQuiet_cases h
    rw [hprobe] at hcases
    refine .inr ⟨fun sent hsent => ?_, hl, hcases⟩
    rw [hprobe] at hsent
    cases hsent

end RelayClient

namespace Probed

variable {quietAfter deadline : Duration} {s s' : Probed}

/-- What the connection knows of its log: when the last message came, and of an outstanding
    probe that it is the last ping, with no message since, or with one that came no earlier
    than the ping. -/
structure Inv (quietAfter : Duration) (s : Probed) : Prop where
  stamped : s.client.lastInbound = lastFrame s.made s.log
  past : s.client.lastInbound ≤ s.now
  probed : ∀ sent, s.client.probe = some sent → sent ≤ s.now ∧
    (unanswered s.log = some sent ∧ s.client.lastInbound + quietAfter ≤ sent ∨
      unanswered s.log = none ∧ sent ≤ s.client.lastInbound)
  cleared : s.client.probe = none → unanswered s.log = none

/-- If an outstanding probe is seen to be answered, no ping is without an answer. -/
theorem Inv.answered (hi : s.Inv quietAfter)
    (h : ∀ sent, s.client.probe = some sent → sent < s.client.lastInbound) :
    unanswered s.log = none := by
  cases hp : s.client.probe with
  | none => exact hi.cleared hp
  | some sent =>
    rcases (hi.probed sent hp).2 with ⟨-, hle⟩ | ⟨hun, -⟩
    · exact absurd (h sent hp) (Nat.not_lt.2 (Nat.le_of_add_right_le hle))
    · exact hun

/-- The invariant holds in every run. -/
theorem Inv.reachable (hs : (probing quietAfter deadline).Reachable s) :
    s.Inv quietAfter := by
  refine hs.invariant (fun s hinit => ?_) fun s s' _ hst hi => ?_
  · obtain ⟨hprobe, hstamp, hmade, hlog⟩ := hinit
    refine ⟨by rw [hlog, hstamp, lastFrame, hmade], hstamp.le, fun sent hsent => ?_, fun _ => ?_⟩
    · rw [hprobe] at hsent
      cases hsent
    · rw [hlog, unanswered]
  · cases hst with
    | pass =>
      refine ⟨hi.stamped, Nat.le_add_right_of_le hi.past, fun sent hsent => ?_, hi.cleared⟩
      exact ⟨Nat.le_add_right_of_le (hi.probed sent hsent).1, (hi.probed sent hsent).2⟩
    | @frame message =>
      obtain ⟨hstamp, hprobe⟩ := s.client.onMessage_liveness s.now message
      refine ⟨hstamp, hstamp.le, fun sent hsent => ?_, fun _ => rfl⟩
      rw [hprobe] at hsent
      have hpast := (hi.probed sent hsent).1
      exact ⟨hpast, .inr ⟨rfl, hpast.trans hstamp.ge⟩⟩
    | @probe v client hv =>
      rcases RelayClient.probeStep_cases hv with
        ⟨sent, hprobe, -, rfl, ⟨rfl, -⟩ | ⟨rfl, -⟩⟩ | ⟨hanswered, hl, hcases⟩
      · exact ⟨hi.stamped, hi.past, hi.probed, hi.cleared⟩
      · exact ⟨hi.stamped, hi.past, hi.probed, hi.cleared⟩
      · rcases hcases with ⟨rfl, hnone⟩ | ⟨payload, rfl, hq, hprobe⟩
        · -- The probe was answered, or there was none.
          refine ⟨hl.trans hi.stamped, hl.le.trans hi.past, fun sent hsent => ?_,
            fun _ => hi.answered hanswered⟩
          rw [hnone] at hsent
          cases hsent
        · refine ⟨hl.trans hi.stamped, hl.le.trans hi.past, fun sent hsent => ?_, fun hn => ?_⟩
          · obtain rfl : s.now = sent := Option.some.inj (hprobe.symm.trans hsent)
            refine ⟨le_rfl, .inl ⟨rfl, ?_⟩⟩
            rw [hl]
            exact Nat.add_le_of_le_sub' hi.past hq
          · rw [hprobe] at hn
            cases hn

/-- The last message was received at the reading of the clock at which the outstanding ping
    was asked for, and the deadline of the ping is over. -/
def Tied (deadline : Duration) (s : Probed) : Prop :=
  s.client.probe = some s.client.lastInbound ∧ deadline ≤ s.now - s.client.lastInbound

/-- A liveness step is not taken in such a state. -/
def Untied (deadline : Duration) (s s' : Probed) : Prop :=
  (∃ v, s'.log = .verdict s.now v :: s.log) → ¬s.Tied deadline

/-- A step that is not logged is no liveness step. -/
theorem Untied.of_log_eq (h : s'.log = s.log) : s.Untied deadline s' := by
  rintro ⟨v, hv⟩
  exact absurd (h.symm.trans hv) (List.cons_ne_self _ _).symm

/-- A step keeps a sound log sound unless it is a liveness step in such a state. -/
theorem soundLog_step_iff (hquiet : 0 < quietAfter) (hi : s.Inv quietAfter)
    (hsound : SoundLog quietAfter deadline s.made s.log)
    (hst : ProbedStep quietAfter deadline s s') :
    SoundLog quietAfter deadline s'.made s'.log ↔ s.Untied deadline s' := by
  cases hst with
  | pass =>
    exact iff_of_true hsound (.of_log_eq rfl)
  | frame =>
    refine iff_of_true hsound fun ⟨v, hv⟩ => ?_
    cases hv
  | @probe v client hv =>
    have huntied : s.Untied deadline { s with client := client, log := .verdict s.now v :: s.log } ↔
        ¬s.Tied deadline := ⟨fun h => h ⟨v, rfl⟩, fun h _ => h⟩
    refine (and_iff_left hsound).trans (Iff.trans ?_ huntied.symm)
    rcases RelayClient.probeStep_cases hv with
      ⟨sent, hprobe, hle, rfl, ⟨rfl, hdead⟩ | ⟨rfl, hwait⟩⟩ | ⟨hanswered, hl, hcases⟩
    · -- A dead verdict: the ping has no answer, or one with its own stamp.
      rcases (hi.probed sent hprobe).2 with ⟨hun, hquieted⟩ | ⟨hun, hge⟩
      · refine iff_of_true ⟨by rw [hun]; rfl, ?_⟩ fun htied => ?_
        · rw [← hi.stamped, ← Nat.add_assoc]
          calc s.client.lastInbound + quietAfter + deadline
              ≤ sent + deadline := Nat.add_le_add_right hquieted deadline
            _ ≤ s.now := Nat.add_le_of_le_sub' (hi.probed sent hprobe).1 hdead
        · have htie : sent = s.client.lastInbound := Option.some.inj (hprobe.symm.trans htied.1)
          rw [htie] at hquieted
          exact absurd hquieted (Nat.not_le.2 (Nat.lt_add_of_pos_right hquiet))
      · have htie : sent = s.client.lastInbound := Nat.le_antisymm hge hle
        refine iff_of_false (fun ⟨hsome, _⟩ => ?_) fun h => h ⟨htie ▸ hprobe, htie ▸ hdead⟩
        rw [hun] at hsome
        cases hsome
    · refine iff_of_true trivial fun htied => ?_
      have htie : sent = s.client.lastInbound := Option.some.inj (hprobe.symm.trans htied.1)
      exact absurd htied.2 (Nat.not_le.2 (htie ▸ hwait))
    · have hanew : ¬s.Tied deadline := fun htied => absurd (hanswered _ htied.1) (lt_irrefl _)
      rcases hcases with ⟨rfl, -⟩ | ⟨payload, rfl, -, -⟩
      · exact iff_of_true trivial hanew
      · exact iff_of_true (hi.answered hanswered) hanew

end Probed

/-- In every run in which no liveness step is taken while the last message has the stamp of a
    ping whose deadline is over, the log is sound; and a further step keeps it sound if, and only
    if, it is not such a step. -/
theorem soundLog_reachable {quietAfter deadline : Duration} (hquiet : 0 < quietAfter) {s : Probed}
    (hs : ((probing quietAfter deadline).restrict (Probed.Untied deadline)).Reachable s) :
    SoundLog quietAfter deadline s.made s.log ∧
      ∀ s', ProbedStep quietAfter deadline s s' →
        (SoundLog quietAfter deadline s'.made s'.log ↔ s.Untied deadline s') := by
  suffices SoundLog quietAfter deadline s.made s.log from
    ⟨this, fun s' => Probed.soundLog_step_iff hquiet (.reachable hs.of_restrict) this⟩
  refine hs.invariant (P := fun s => SoundLog quietAfter deadline s.made s.log) (fun s hinit => ?_)
    fun s s' hr hst ih => ?_
  · rw [hinit.2.2.2]
    trivial
  · exact (Probed.soundLog_step_iff hquiet (.reachable hr.of_restrict) ih hst.1).2 hst.2

/-- A relay connection that is just made. -/
def Probed.new : Probed where
  client := ⟨[], "Closed", fun _ => none, [], [], 0, none, 0⟩
  now := 0
  made := 0
  log := []

/-- A relay that does not answer is found dead. -/
theorem soundLog_silent : ∃ s : Probed,
    s.log = [.verdict 15 .dead, .verdict 10 (.ping (RelayClient.toLeBytes 1))] ∧
    SoundLog 10 5 s.made s.log := by
  have hnew : ((probing 10 5).restrict (Probed.Untied 5)).Reachable Probed.new :=
    .init ⟨rfl, rfl, rfl, rfl⟩
  have hquiet := hnew.step ⟨.pass (d := 10), .of_log_eq rfl⟩
  have hping := hquiet.step ⟨.probe rfl, fun _ htied => nomatch htied.1⟩
  have hlate := hping.step ⟨.pass (d := 5), .of_log_eq rfl⟩
  have hdead := hlate.step ⟨.probe rfl, fun _ htied =>
    absurd (show (10 : ℕ) = 0 from Option.some.inj htied.1) (by decide)⟩
  exact ⟨_, rfl, (soundLog_reachable (by decide) hdead).1⟩

/-- A relay that answers while the clock reads the same as at the ping is found dead. -/
theorem not_soundLog_tied : ∃ s : Probed, (probing 10 5).Reachable s ∧
    s.log = [.verdict 15 .dead, .frame 10, .verdict 10 (.ping (RelayClient.toLeBytes 1))] ∧
    ¬SoundLog 10 5 s.made s.log := by
  have hnew : (probing 10 5).Reachable Probed.new := .init ⟨rfl, rfl, rfl, rfl⟩
  have hquiet := hnew.step (.pass (d := 10))
  have hping := hquiet.step (.probe rfl)
  have hpong := hping.step
    (@ProbedStep.frame _ _ _ (.binary (10 :: (RelayClient.toLeBytes 1).toList)))
  have hlate := hpong.step (.pass (d := 5))
  have hdead := hlate.step (.probe rfl)
  exact ⟨_, hdead, rfl, fun h => nomatch h.1.1⟩

end IrohEndpoint
