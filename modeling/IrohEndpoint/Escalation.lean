import IrohEndpoint.HomeRelay

/-!
# The escalation of the redial backoff

While no connection of the home relay stays registered for `REDIAL_ESTABLISHED`, every
redial should wait twice as long as the one before, up to `REDIAL_MAX_DELAY`. The runs of an
endpoint are recorded with the redials that were armed, each with its place in its stretch
(`Stretch`), and a log *escalates* (`Escalates`) if every delay is at least that of its place,
and only the loss of an established connection is answered at once.

Where the redials are armed, and what they do to the backoff, is said once (`Step.redials`).
The pump numbers them by the attempts since the last dial that succeeded, and not by those
since a connection proved sound. So a connection that a redial of the stretch has obtained,
and that fails young, is redialed after the first delay again (`not_escalates_flapping`). A
log escalates if and only if this did not happen (`Steady`, `escalates_iff`).
-/

namespace IrohEndpoint

open Transition State

/-! ## The delays -/

/-- The first delay is less than the base of the second. -/
theorem redialDelay_zero_lt (random : Option (UInt8 × UInt8)) :
    redialDelay 0 random < redialMinDelay * 2 := by
  have hbase : redialBase 0 = 10000000 := rfl
  unfold redialDelay
  rw [hbase]
  refine lt_of_le_of_lt (Nat.min_le_left _ _) ?_
  cases random with
  | none => decide
  | some bytes =>
    have hlo := bytes.1.toNat_lt
    have hhi := bytes.2.toNat_lt
    have hunit : 10000000 % 2 ^ 64 / (2 ^ 16 - 1) = 152 := rfl
    have hsum : 10000000 + 152 * (bytes.1.toNat + 2 ^ 8 * bytes.2.toNat) < 10000000 * 2 := by omega
    rwa [← hunit] at hsum

/-- The first delay is enough for the first redial of a stretch only. -/
theorem redialDelay_zero_iff (random : Option (UInt8 × UInt8)) (index : ℕ) :
    redialBase index ≤ redialDelay 0 random ↔ index = 0 := by
  constructor
  · intro hle
    by_contra hne
    -- From the second redial on, at least twice the first delay is due.
    have hpow : 2 ^ 1 ≤ 2 ^ index := Nat.pow_le_pow_right Nat.two_pos (Nat.pos_of_ne_zero hne)
    have htwice : 10000000 * 2 ≤ min (10000000 * 2 ^ index) 5000000000 := by omega
    rw [redialBase_eq] at hle
    exact absurd (lt_of_lt_of_le (redialDelay_zero_lt random) htwice) (Nat.not_lt.2 hle)
  · rintro rfl
    exact (redialDelay_bounds 0 random).1

/-! ## Where a redial is armed -/

namespace Sys

/-- The connection of the home relay in the pool. -/
def home (s : Sys) : Option RelayConn := s.st.relayPool.lookup homeRelay

/-- The slot of the home relay is empty, and a redial armed with the next delay. -/
structure Arms (s s' : Sys) : Prop where
  down : s'.home = none
  armed : ∃ random, s'.pump.redial = some ⟨(nextRedialDelay s.pump.backoff s.now random).1⟩ ∧
    s'.pump.backoff = (nextRedialDelay s.pump.backoff s.now random).2

/-- What failing relays do: they leave the home relay and its backoff, or the connection of
    the home relay is lost, and a redial armed. -/
inductive Loses (s s' : Sys) : Prop
  | kept : s'.home = s.home → s'.pump.redial = s.pump.redial →
      s'.pump.backoff = s.pump.backoff → s'.now = s.now → Loses s s'
  | lost {conn : RelayConn} : s.home = some conn → s'.now = s.now → s.Arms s' → Loses s s'

/-- The redial in flight fails, and the next one is armed. -/
def RedialFails (s s' : Sys) : Prop :=
  s.pump.redial ≠ none ∧ s.st.closed = false ∧ ∃ random,
    s' = (failRedial { s with pump := { s.pump with redial := none } } random).goto .top

/-- What a step does to the home relay. -/
inductive Redials (s s' : Sys) : Prop
  | kept : s'.home = s.home → s'.pump.backoff = s.pump.backoff → Redials s s'
  /-- The connection is lost, and a redial armed. -/
  | lost {conn : RelayConn} : s.home = some conn → s.Arms s' → Redials s s'
  | failed : s.RedialFails s' → Redials s s'
  /-- The redial has succeeded. -/
  | up {conn : RelayConn} : s.home = none → s'.home = some conn →
      s'.pump.backoff = ⟨0, some s.now⟩ → Redials s s'

variable {s s' s'' : Sys}

/-- While a redial is in flight, the slot of the home relay is empty. -/
theorem RedialFails.home (h : s.RedialFails s') (hi : s.homeSlot.Inv) : s.home = none := by
  rw [Option.eq_none_iff_forall_ne_some]
  intro conn hconn
  have hidle : s.pump.redial.isSome = false := (hi.filled conn hconn).1
  rw [Option.isSome_eq_false_iff, Option.isNone_iff_eq_none] at hidle
  exact h.1 hidle

/-- A redial that fails is answered by the next one. -/
theorem RedialFails.arms (h : s.RedialFails s') (hi : s.homeSlot.Inv) : s.Arms s' := by
  have hhome := h.home hi
  obtain ⟨-, hopen, random, rfl⟩ := h
  rw [failRedial, if_neg (by simp [hopen])]
  exact ⟨hhome, random, rfl, rfl⟩

/-- Several relays may fail: that of the home relay is lost at most once. -/
theorem Loses.trans (h : s.Loses s') (h' : s'.Loses s'') : s.Loses s'' := by
  cases h with
  | kept hhome hredial hbackoff hnow =>
    cases h' with
    | kept hhome' hredial' hbackoff' hnow' =>
      exact .kept (hhome'.trans hhome) (hredial'.trans hredial) (hbackoff'.trans hbackoff)
        (hnow'.trans hnow)
    | lost hconn hnow' harms =>
      obtain ⟨random, harmed⟩ := harms.armed
      rw [hbackoff, hnow] at harmed
      exact .lost (hhome.symm.trans hconn) (hnow'.trans hnow) ⟨harms.down, random, harmed⟩
  | lost hconn hnow harms =>
    cases h' with
    | kept hhome' hredial' hbackoff' hnow' =>
      obtain ⟨random, harmed⟩ := harms.armed
      rw [← hredial', ← hbackoff'] at harmed
      exact .lost hconn (hnow'.trans hnow) ⟨hhome'.trans harms.down, random, harmed⟩
    | lost hconn' => cases hconn'.symm.trans harms.down

/-- A failure of a connection of the home relay. -/
theorem failHome_loses (s : Sys) (conn : RelayConn) (random : Option (UInt8 × UInt8)) :
    s.Loses (s.failHome conn random) := by
  rcases s.failHome_cases conn random with ⟨-, h⟩ | ⟨hc, h⟩ <;> rw [h]
  · exact .kept rfl rfl rfl rfl
  · exact .lost hc rfl ⟨AList.lookup_erase .., random, rfl, rfl⟩

/-- A failure of a foreign relay. -/
theorem failRelay_loses (s : Sys) {key : RelayKey} (hk : key ≠ homeRelay) :
    s.Loses { s with st := s.st.failRelay key } :=
  .kept (failRelay_pool hk) rfl rfl rfl

/-- A failing receive. -/
theorem failReceive_loses (s : Sys) (key : RelayKey) (conn : RelayConn)
    (random : Option (UInt8 × UInt8)) : s.Loses (s.failReceive key conn random) := by
  rw [failReceive]
  split
  · exact .kept rfl rfl rfl rfl
  · split <;> rename_i hk
    · exact s.failHome_loses conn random
    · exact s.failRelay_loses hk

/-- The liveness sweep. -/
theorem sweep_loses (s : Sys) (verdict : RelayConn → ProbeStep)
    (random : Option (UInt8 × UInt8)) : s.Loses (s.sweep verdict random) := by
  rw [sweep]
  generalize s.st.relayPool.entries = l
  induction l generalizing s with
  | nil => exact .kept rfl rfl rfl rfl
  | cons entry l ih =>
    refine Loses.trans ?_ (ih (sweepOne verdict random s entry))
    rw [sweepOne]
    split
    · split <;> rename_i hk
      · exact s.failHome_loses entry.2 random
      · exact s.failRelay_loses hk
    · exact .kept rfl rfl rfl rfl
    · exact .kept rfl rfl rfl rfl

/-- What failing relays do is what the step does in which they fail. -/
theorem Loses.redials {pc : PumpPc} (h : s.Loses s') : s.Redials (s'.goto pc) := by
  cases h with
  | kept hhome _ hbackoff => exact .kept hhome hbackoff
  | lost hconn _ harms => exact .lost hconn ⟨harms.down, harms.armed⟩

end Sys

/-- What a step of the pump does to the home relay. -/
theorem PumpStep.redials {s s' : Sys} (hi : s.homeSlot.Inv) (h : PumpStep s s') :
    s.Redials s' := by
  cases h with
  | drain _ hd =>
    rw [(drain_polls hd).woken]
    exact .kept rfl rfl
  | @relaySendFailed key conn random =>
    refine Sys.Loses.redials ?_
    split
    · exact s.failHome_loses conn random
    · exact .kept rfl rfl rfl rfl
  | arm =>
    rw [Sys.foldl_spawnUpgrade_frame]
    exact .kept rfl rfl
  | relaySignal =>
    rw [Sys.handleSignal_frame]
    exact .kept rfl rfl
  | relayDatagram _ _ _ _ hd =>
    rw [handleRelayDatagram_frame hd]
    exact .kept rfl rfl
  | @relayFailed key conn random =>
    -- The receive that failed is not pending any more.
    have hkept : s.Loses { s with pump := { s.pump with
        relayRecvs := s.pump.relayRecvs.erase (key, conn) } } := .kept rfl rfl rfl rfl
    exact (hkept.trans (Sys.failReceive_loses _ key conn random)).redials
  | udpReceived _ _ _ hd =>
    rw [handleDatagram_frame hd]
    exact .kept rfl rfl
  | channelDatagram _ _ _ hd =>
    rw [handleChannelDatagram_frame hd]
    exact .kept rfl rfl
  | channelFailed =>
    rw [retireChannel_frame]
    exact .kept rfl rfl
  | @redialTaken conn hpc =>
    refine @Sys.Redials.up _ _ conn ?_ ?_ rfl
    · -- While a result is at hand, the slot is empty.
      have hdialed : s.homeSlot.dialed = some conn := by
        rw [Sys.homeSlot, hpc]
        rfl
      rw [Option.eq_none_iff_forall_ne_some]
      intro cur hcur
      rw [(hi.filled cur hcur).2] at hdialed
      cases hdialed
    · exact AList.lookup_insert _
  | @redialFailed redial random _ _ hredial =>
    cases hc : s.st.closed with
    | true =>
      rw [Sys.failRedial, if_pos hc]
      exact .kept rfl rfl
    | false => exact .failed ⟨by simp [hredial], hc, random, rfl⟩
  | @tick verdict random =>
    have hkept : s.Loses { s with pump := { s.pump with forceWake := true } } :=
      .kept rfl rfl rfl rfl
    exact (hkept.trans (Sys.sweep_loses _ verdict random)).redials
  | closeRelays =>
    rw [foldl_closeRelay]
    exact .kept rfl rfl
  | closeWires =>
    rw [foldl_closeWire]
    exact .kept rfl rfl
  | _ => exact .kept rfl rfl

/-- A step of a `connect` call leaves the home relay and the pump alone. -/
theorem ConnectStep.redials {s s' : Sys} (hi : s.homeSlot.Inv) (h : ConnectStep s s') :
    s'.home = s.home ∧ s'.pump = s.pump := by
  cases h with
  | found _ _ _ _ he | closed _ _ _ _ he | claimed _ _ _ _ he | shared _ _ _ _ he =>
    rw [ensureRelay_frame he]
    exact ⟨rfl, rfl⟩
  | opened _ _ _ _ hr =>
    obtain ⟨-, rfl, rfl⟩ := registerRelay_eq hr
    exact ⟨AList.lookup_insert_ne hi.foreign.symm, rfl⟩
  | dialFailed _ _ _ _ ha =>
    rw [dialAddr_frame ha]
    exact ⟨rfl, rfl⟩
  | dialed _ _ _ _ ha hd =>
    obtain ⟨s₁, _, h₁, rfl⟩ := dialed_eq hd
    obtain ⟨-, -, -, rfl⟩ := insertConn_eq h₁
    rw [dialAddr_frame ha]
    exact ⟨rfl, rfl⟩
  | failed | cancelParked =>
    rcases s.st.closeConnection_cases _ _ _ _ with ⟨h, -⟩ | ⟨_, -, -, -, h⟩ <;>
      rw [dropDialGuard, h] <;> exact ⟨rfl, rfl⟩
  | _ => exact ⟨rfl, rfl⟩

/-- A step of a session leaves the home relay and the pump alone. -/
theorem SessionStep.redials {s s' : Sys} (h : SessionStep s s') :
    s'.home = s.home ∧ s'.pump = s.pump := by
  cases h with
  | begin _ _ _ hb =>
    obtain ⟨-, rfl⟩ := beginSignaling_eq hb
    exact ⟨rfl, rfl⟩
  | receive =>
    rw [nextSignalCheck_frame]
    exact ⟨rfl, rfl⟩
  | upgraded _ _ _ _ hr | answered _ _ _ _ hr =>
    rw [registerChannel_frame hr]
    exact ⟨rfl, rfl⟩
  | _ => exact ⟨rfl, rfl⟩

/-- What a step does to the home relay. -/
theorem Step.redials {s s' : Sys} (hs : endpoint.Reachable s) (h : Step s s') : s.Redials s' := by
  have hi := HomeSlot.Inv.reachable (homeSlot_simulation.reachable hs)
  have hkept : s'.home = s.home ∧ s'.pump = s.pump → s.Redials s' :=
    fun ⟨hhome, hpump⟩ => .kept hhome (congrArg Pump.backoff hpump)
  rcases h.cases with h | h | h | h
  · exact h.redials hi
  · exact hkept (h.redials hi)
  · exact hkept h.redials
  · rw [h.frame]
    exact .kept rfl rfl

/-! ## The stretches -/

/-- A redial that was armed. -/
structure Redialed where
  /-- How long the connection that was lost had been registered, unless it was a redial that
      failed. -/
  age : Option Duration
  /-- How many redials of its stretch were armed before it. -/
  index : ℕ
  delay : Duration

/-- The redial answers the loss of an established connection. -/
def Redialed.established (e : Redialed) : Bool :=
  (e.age.map fun age => decide (age ≥ redialEstablished)).getD false

/-- The history of the home relay: since when the connection in the pool is registered, how
    many redials were armed in the current stretch, and all that were, newest first. -/
structure Stretch where
  since : Option Instant
  index : ℕ
  log : List Redialed

/-- A redial is armed. One that answers the loss of an established connection begins a new
    stretch, in which it does not count. -/
def Stretch.arm (r : Stretch) (now : Instant) (delay : Duration) : Stretch :=
  let redialed : Redialed := ⟨r.since.map (now - ·), r.index, delay⟩
  ⟨none, if redialed.established then 0 else r.index + 1, redialed :: r.log⟩

/-- What a step adds to the history. -/
inductive Notes : Sys → Sys → Stretch → Stretch → Prop
  /-- The connection is lost. -/
  | lost {s s' : Sys} {redial : Redial} {r : Stretch} :
      s.home ≠ none → s'.home = none → s'.pump.redial = some redial →
      Notes s s' r (r.arm s.now redial.delay)
  /-- The redial in flight fails. -/
  | failed {s s' : Sys} {redial : Redial} {r : Stretch} :
      s.RedialFails s' → s'.pump.redial = some redial →
      Notes s s' r (r.arm s.now redial.delay)
  /-- A connection takes the slot. -/
  | up {s s' : Sys} {r : Stretch} :
      s.home = none → s'.home ≠ none → Notes s s' r { r with since := some s.now }
  /-- Every other step leaves the home relay and its backoff. -/
  | other {s s' : Sys} {r : Stretch} :
      s'.home = s.home → s'.pump.backoff = s.pump.backoff → Notes s s' r r

/-- The runs of an endpoint, with the history of its home relay: `bind` has registered it. -/
def redialing : System (Sys × Stretch) where
  init := {x | x.1 ∈ endpoint.init ∧ x.2 = ⟨some x.1.now, 0, []⟩}
  step x y := Step x.1 y.1 ∧ Notes x.1 y.1 x.2 y.2

/-- A log escalates: the loss of an established connection is answered at once, and every
    other redial waits as long as its place in the stretch says, or up to the ceiling. -/
def Escalates (log : List Redialed) : Prop := ∀ e ∈ log,
  if e.established then e.delay = 0
  else min (redialMinDelay * 2 ^ e.index) redialMaxDelay ≤ e.delay ∧ e.delay ≤ redialMaxDelay

/-- A connection that is lost young is the first of its stretch: no redial that counts has
    obtained it. -/
def Steady (log : List Redialed) : Prop :=
  ∀ e ∈ log, e.age ≠ none → e.established = false → e.index = 0

variable {s s' : Sys} {r r' : Stretch}

/-- What the next redial waits, and leaves of the backoff. -/
theorem nextRedialDelay_eq (b : Backoff) (now : Instant) (random : Option (UInt8 × UInt8))
    (index : ℕ) (delay : Duration) :
    nextRedialDelay b now random =
      if Redialed.established ⟨b.homeSince.map (now - ·), index, delay⟩ then (0, ⟨0, none⟩)
      else (redialDelay b.attempt random, ⟨min (b.attempt + 1) (2 ^ 32 - 1), none⟩) := by
  rw [nextRedialDelay, Redialed.established, Option.map_map]
  rfl

/-- Every step has a note. -/
theorem Step.notes (hs : endpoint.Reachable s) (h : Step s s') (r : Stretch) :
    ∃ r', Notes s s' r r' := by
  have hi := HomeSlot.Inv.reachable (homeSlot_simulation.reachable hs)
  cases h.redials hs with
  | kept hhome hbackoff => exact ⟨_, .other hhome hbackoff⟩
  | lost hconn harms =>
    obtain ⟨_, hredial, -⟩ := harms.armed
    exact ⟨_, .lost (by simp [hconn]) harms.down hredial⟩
  | failed hfails =>
    obtain ⟨_, hredial, -⟩ := (hfails.arms hi).armed
    exact ⟨_, .failed hfails hredial⟩
  | up hdown hup => exact ⟨_, .up hdown (by simp [hup])⟩

/-- Every run has a history. -/
theorem redialing_reachable (hs : endpoint.Reachable s) : ∃ r, redialing.Reachable (s, r) := by
  induction hs with
  | @init s h => exact ⟨⟨some s.now, 0, []⟩, .init ⟨h, rfl⟩⟩
  | @step s s' hr hst ih =>
    obtain ⟨r, hr'⟩ := ih
    obtain ⟨r', hnote⟩ := hst.notes hr r
    exact ⟨r', .step hr' ⟨hst, hnote⟩⟩

namespace Stretch

/-- What the state of the backoff says about the history. -/
structure Counts (b : Backoff) (r : Stretch) : Prop where
  since : b.homeSince = r.since
  /-- While a connection is registered, the attempts start again. -/
  fresh : r.since ≠ none → b.attempt = 0
  /-- While none is, they are the redials of the stretch, if the log is steady. -/
  counted : r.since = none → Steady r.log → b.attempt = min r.index (2 ^ 32 - 1)
  escalates : Steady r.log ↔ Escalates r.log

/-- One more redial is steady. -/
theorem steady_cons {e : Redialed} {log : List Redialed} :
    Steady (e :: log) ↔ (e.age ≠ none → e.established = false → e.index = 0) ∧ Steady log :=
  List.forall_mem_cons

/-- One more redial escalates. -/
theorem escalates_cons {e : Redialed} {log : List Redialed} (he : e.established = false) :
    Escalates (e :: log) ↔
      (redialBase e.index ≤ e.delay ∧ e.delay ≤ redialMaxDelay) ∧ Escalates log := by
  rw [Escalates, List.forall_mem_cons, he, if_neg Bool.false_ne_true, redialBase_eq]
  rfl

/-- The loss of an established connection is answered at once, and begins a stretch. -/
theorem Counts.established {b : Backoff} (h : Counts b r) {now : Instant}
    (random : Option (UInt8 × UInt8))
    (he : Redialed.established ⟨r.since.map (now - ·), r.index, 0⟩ = true) :
    Counts (nextRedialDelay b now random).2 (r.arm now (nextRedialDelay b now random).1) := by
  have hnext : nextRedialDelay b now random = (0, ⟨0, none⟩) := by
    rw [nextRedialDelay_eq b now random r.index 0, h.since, if_pos he]
  rw [hnext, arm]
  dsimp only
  rw [if_pos he]
  refine ⟨rfl, fun hne => absurd rfl hne, fun _ _ => (Nat.zero_min _).symm, ?_⟩
  rw [steady_cons, Escalates, List.forall_mem_cons, he, if_pos rfl]
  exact and_congr (iff_of_true (fun _ h => nomatch h) rfl) h.escalates

/-- A connection that is lost young is answered after the first delay. -/
theorem Counts.lost {b : Backoff} (h : Counts b r) {now at_ : Instant}
    (random : Option (UInt8 × UInt8)) (hsince : r.since = some at_)
    (he : Redialed.established ⟨r.since.map (now - ·), r.index, 0⟩ = false) :
    Counts (nextRedialDelay b now random).2 (r.arm now (nextRedialDelay b now random).1) := by
  have hattempt : b.attempt = 0 := h.fresh (by simp [hsince])
  have hnext : nextRedialDelay b now random = (redialDelay 0 random, ⟨1, none⟩) := by
    rw [nextRedialDelay_eq b now random r.index 0, h.since, he, if_neg Bool.false_ne_true, hattempt]
    rfl
  rw [hnext, arm]
  dsimp only
  have he' : Redialed.established
    ⟨r.since.map (now - ·), r.index, redialDelay 0 random⟩ = false := he
  rw [he', if_neg Bool.false_ne_true]
  refine ⟨rfl, fun hne => absurd rfl hne, fun _ hsteady => ?_, ?_⟩
  · have hindex := (steady_cons.1 hsteady).1 (by simp [hsince]) he'
    dsimp only at hindex ⊢
    rw [hindex]
    rfl
  · -- The first delay is that of the first redial of a stretch.
    rw [steady_cons, escalates_cons he']
    refine and_congr ⟨fun hindex => ?_, fun hdelay _ _ => ?_⟩ h.escalates
    · exact ⟨(redialDelay_zero_iff random _).2 (hindex (by simp [hsince]) he'),
        (redialDelay_bounds 0 random).2⟩
    · exact (redialDelay_zero_iff random _).1 hdelay.1

/-- A redial that fails is answered after the next delay. -/
theorem Counts.failed {b : Backoff} (h : Counts b r) (now : Instant)
    (random : Option (UInt8 × UInt8)) (hsince : r.since = none) :
    Counts (nextRedialDelay b now random).2 (r.arm now (nextRedialDelay b now random).1) := by
  have hnext : nextRedialDelay b now random =
      (redialDelay b.attempt random, ⟨min (b.attempt + 1) (2 ^ 32 - 1), none⟩) := by
    rw [nextRedialDelay, h.since, hsince]
    rfl
  have he : ∀ delay, Redialed.established ⟨r.since.map (now - ·), r.index, delay⟩ = false := by
    intro delay
    rw [hsince]
    rfl
  rw [hnext, arm]
  dsimp only
  rw [he, if_neg Bool.false_ne_true]
  have hage : r.since.map (now - ·) = none := by rw [hsince]; rfl
  refine ⟨rfl, fun hne => absurd rfl hne, fun _ hsteady => ?_, ?_⟩
  · rw [h.counted hsince (steady_cons.1 hsteady).2]
    dsimp only
    omega
  · rw [steady_cons, escalates_cons (he _)]
    constructor
    · rintro ⟨-, hsteady⟩
      have hbounds := redialDelay_bounds b.attempt random
      rw [h.counted hsince hsteady, redialBase_saturated (by omega),
        ← h.counted hsince hsteady] at hbounds
      exact ⟨hbounds, h.escalates.1 hsteady⟩
    · rintro ⟨-, hlog⟩
      exact ⟨fun hne => absurd hage hne, h.escalates.2 hlog⟩

/-- A redial that is armed. -/
theorem Counts.arm {b : Backoff} (h : Counts b r) (now : Instant)
    (random : Option (UInt8 × UInt8)) :
    Counts (nextRedialDelay b now random).2 (r.arm now (nextRedialDelay b now random).1) := by
  cases he : Redialed.established ⟨r.since.map (now - ·), r.index, 0⟩ with
  | true => exact h.established random he
  | false =>
    cases hsince : r.since with
    | some at_ => exact h.lost random hsince he
    | none => exact h.failed now random hsince

/-- The history of a run, with what the pump's variables say about it. -/
structure Inv (s : Sys) (r : Stretch) : Prop where
  sys : endpoint.Reachable s
  home : r.since = none ↔ s.home = none
  counts : r.Counts s.pump.backoff

/-- A redial that is armed keeps the invariant. -/
theorem Inv.arm (hi : Inv s r) (hs' : endpoint.Reachable s') (harms : s.Arms s')
    {redial : Redial} (hredial : s'.pump.redial = some redial) :
    Inv s' (r.arm s.now redial.delay) := by
  obtain ⟨random, hnext, hbackoff⟩ := harms.armed
  obtain rfl : redial = ⟨(nextRedialDelay s.pump.backoff s.now random).1⟩ :=
    Option.some.inj (hredial.symm.trans hnext)
  refine ⟨hs', by simp [Stretch.arm, harms.down], ?_⟩
  rw [hbackoff]
  exact hi.counts.arm s.now random

/-- A step keeps the invariant. -/
theorem Inv.step (hi : Inv s r) (hst : Step s s') (hn : Notes s s' r r') : Inv s' r' := by
  have hs' := hi.sys.step hst
  have hredials := hst.redials hi.sys
  have hslot := HomeSlot.Inv.reachable (homeSlot_simulation.reachable hi.sys)
  cases hn with
  | lost hup hdown hredial =>
    cases hredials with
    | kept hhome => exact absurd (hhome.symm.trans hdown) hup
    | lost _ harms => exact hi.arm hs' harms hredial
    | failed hfails => exact absurd (hfails.home hslot) hup
    | up hdown₀ => exact absurd hdown₀ hup
  | failed hfails hredial => exact hi.arm hs' (hfails.arms hslot) hredial
  | up hdown hup =>
    cases hredials with
    | kept hhome => exact absurd (hhome.trans hdown) hup
    | lost hconn => cases hconn.symm.trans hdown
    | failed hfails => exact absurd (hfails.arms hslot).down hup
    | up _ _ hbackoff =>
      refine ⟨hs', by simp [hup], ?_⟩
      rw [hbackoff]
      exact ⟨rfl, fun _ => rfl, nofun, hi.counts.escalates⟩
  | other hhome hbackoff => exact ⟨hs', hhome ▸ hi.home, hbackoff ▸ hi.counts⟩

end Stretch

/-- In every run, the pump's variables count the history. -/
theorem redialing_inv (hs : redialing.Reachable (s, r)) : Stretch.Inv s r := by
  refine hs.invariant (P := fun x => Stretch.Inv x.1 x.2) ?_ ?_
  · rintro ⟨s, r⟩ ⟨hinit, hr⟩
    obtain ⟨conn, hslot⟩ := homeSlot_simulation.init s hinit
    have hhome : s.home = some conn := congrArg HomeSlot.slot hslot
    dsimp only at hr
    subst hr
    obtain ⟨config, webrtc, now, st, key, -, rfl⟩ := id hinit
    exact ⟨.init hinit, by simp [hhome], rfl, fun _ => rfl, nofun, iff_of_true nofun nofun⟩
  · rintro ⟨s, r⟩ ⟨s', r'⟩ - ⟨hst, hnote⟩ hi
    exact hi.step hst hnote

/-- The redials of a run escalate if and only if no connection that a redial of its stretch
    has obtained is lost young. -/
theorem escalates_iff (hs : redialing.Reachable (s, r)) : Escalates r.log ↔ Steady r.log :=
  (redialing_inv hs).counts.escalates.symm

/-- While the endpoint rests, its history stands still. -/
theorem redialing_rests (h : redialing.Reachable (s, r))
    (hl : (endpoint.restrict Sys.Rests).Leads s s') : redialing.Reachable (s', r) := by
  induction hl with
  | refl => exact h
  | tail _ hst ih =>
    exact ih.step ⟨hst.1, .other (congrArg (AList.lookup homeRelay) hst.2.pool) hst.2.backoff⟩

/-- An endpoint whose home relay has failed as soon as it was bound. -/
def Sys.outage : Sys :=
  let s := Sys.bound (.relayOnly "https://home.example") 0 (State.bound false "https://home.example")
  { s with
    st := { s.st with newRelays := [], relayPool := ∅, closedRelays := [⟨0⟩] }
    pump := { s.pump with relayRecvs := [], redial := some ⟨redialMinDelay⟩, backoff := ⟨1, none⟩ } }

/-- The home relay may fail as soon as the endpoint is bound. -/
theorem outage_reachable :
    redialing.Reachable (Sys.outage, ⟨none, 1, [⟨some 0, 0, redialMinDelay⟩]⟩) := by
  have hbound : redialing.Reachable
      (Sys.bound (.relayOnly "https://home.example") 0 (State.bound false "https://home.example"),
        ⟨some 0, 0, []⟩) := .init ⟨⟨_, _, _, _, homeRelay, rfl, rfl⟩, rfl⟩
  have hdrain : (endpoint.restrict Sys.Rests).Leads _ _ := .single ⟨.pump (@PumpStep.drain
    (Sys.bound (.relayOnly "https://home.example") 0 (State.bound false "https://home.example"))
    (fun _ => ⟨[], false⟩) _ _ rfl rfl), ⟨fun _ => rfl, rfl, nofun⟩, rfl, rfl⟩
  have hselect := redialing_rests hbound (hdrain.trans (select_rests rfl rfl rfl rfl rfl rfl))
  have hlost : redialing.Reachable (_, _) := hselect.step
    ⟨.pump (@PumpStep.relayFailed _ homeRelay ⟨0⟩ none rfl rfl List.mem_cons_self),
      .lost (Option.some_ne_none (RelayConn.mk 0)) rfl rfl⟩
  exact hlost

/-- The first redial of a run waits for the first delay. -/
theorem escalates_outage : Escalates [⟨some 0, 0, redialMinDelay⟩] :=
  (escalates_iff outage_reachable).2 fun _ he _ _ => by rw [List.mem_singleton.1 he]

/-- A home relay that can be dialed, and fails as soon as it was, is redialed after the first
    delay again. -/
theorem not_escalates_flapping : ∃ s r, redialing.Reachable (s, r) ∧ ¬Escalates r.log := by
  have hdrain : (endpoint.restrict Sys.Rests).Leads _ _ := .single ⟨.pump (@PumpStep.drain
    Sys.outage (fun _ => ⟨[], false⟩) _ _ rfl rfl), ⟨fun _ => rfl, rfl, nofun⟩, rfl, rfl⟩
  have hselect := redialing_rests outage_reachable
    (hdrain.trans (select_rests rfl rfl rfl rfl rfl rfl))
  have hopened : redialing.Reachable (_, _) := hselect.step
    ⟨.pump (.redialOpened rfl rfl rfl), .other rfl rfl⟩
  have htaken : redialing.Reachable (_, _) := hopened.step
    ⟨.pump (.redialTaken rfl rfl), .up rfl (Option.some_ne_none (RelayConn.mk 1))⟩
  have hdrain' := redialing_rests htaken (.single ⟨.pump (@PumpStep.drain
    _ (fun _ => ⟨[], false⟩) _ _ rfl rfl), ⟨fun _ => rfl, rfl, nofun⟩, rfl, rfl⟩)
  have hselect' := redialing_rests hdrain' (select_rests rfl rfl rfl rfl rfl rfl)
  have hlost : redialing.Reachable (_, _) := hselect'.step
    ⟨.pump (@PumpStep.relayFailed _ homeRelay ⟨1⟩ none rfl rfl List.mem_cons_self),
      .lost (Option.some_ne_none (RelayConn.mk 1)) rfl rfl⟩
  refine ⟨_, _, hlost, fun h => ?_⟩
  -- The second redial of the stretch waits no longer than the first.
  have hdelay := h _ List.mem_cons_self
  exact absurd hdelay (by decide)

end IrohEndpoint
