import IrohEndpoint.Teardown
import IrohEndpoint.Wakeups

/-!
# The deadline of a call

A `connect` call that waits for another call's open of a relay gives up after `relayOpenDeadline`.
It looks at the clock only when it is woken, and nothing else may happen on the endpoint before the
deadline is over. So it depends on the tick of the pump, which has the next poll wake the waiters
whatever it finds.

The record of a run (`Sys.Elapses`) is the time since the last tick. In the runs with a punctual
pump and punctual tasks (`Punctual`: ticks are at most `tick` apart, and time passes only once
whoever was woken has run), a call waits no longer than its deadline and one tick
(`released_in_time`).
-/

namespace IrohEndpoint

open Transition State

/-- `TICK_NS`: the interval of the tick. -/
def tickNs : Duration := 10000000

/-- The call `tid` waits since `started` for another call's open of a relay. -/
def Sys.Waits (s : Sys) (tid : TaskId) (normalized : String) (started : Instant) : Prop :=
  ∃ task target url, s.connects.lookup tid = some task ∧ task.phase = .waiting target started ∧
    target.url task.plan = some url ∧ normalizeRelayUrl url = normalized

/-- The time since the last tick, which sets the pump to wake the waiters. -/
def Sys.Elapses (s s' : Sys) (since since' : Duration) : Prop :=
  since' = if s'.pump.forceWake && !s.pump.forceWake then 0 else since + (s'.now - s.now)

/-- The runs with the time since the last tick. -/
def ticking : System (Sys × Duration) := endpoint.observe 0 Sys.Elapses

/-- A step of a run whose ticks and tasks are on time. -/
structure Punctual (tick : Duration) (x y : Sys × Duration) : Prop where
  /-- A call parks again only if it finds nothing, the deadline included. -/
  parks : ∀ tid normalized started, y.1.st.waiters = tid :: x.1.st.waiters →
    y.1.Waits tid normalized started → y.1.st.ensureRelayCheck normalized started y.1.now = none
  /-- Time passes only once the poll after a tick is done, and all who were woken have run. -/
  idle : y.1.now ≠ x.1.now → x.1.pump.forceWake = false ∧
    ∀ tid normalized started, x.1.Waits tid normalized started → tid ∈ x.1.st.waiters
  ticks : y.2 ≤ tick

section Steps

variable {s s' : Sys} {tid : TaskId} {normalized : String} {started : Instant}

/-- A call that waits has been waiting, or parks. -/
theorem Step.waits (h : Step s s') (hw : s'.Waits tid normalized started) :
    s.Waits tid normalized started ∨ s'.st.waiters = tid :: s.st.waiters := by
  obtain ⟨task, target, url, hl, hp, hurl, hnorm⟩ := hw
  exact (h.parks.connects tid task hl (by rw [hp]; rfl)).imp_left fun hl =>
    ⟨task, target, url, hl, hp, hurl, hnorm⟩

/-- A call that finds nothing is within its deadline. -/
theorem State.ensureRelayCheck_none {s : State} {now : Instant}
    (h : s.ensureRelayCheck normalized started now = none) : now ≤ started + relayOpenDeadline := by
  unfold ensureRelayCheck at h
  split at h
  · cases h
  · split at h
    · cases h
    · split at h
      · cases h
      · split at h <;> rename_i hover
        · cases h
        · exact Nat.sub_le_iff_le_add'.1 (Nat.le_of_not_lt hover)

/-- Failing relays do not take the wake of a tick back. -/
theorem Sys.FailsRelays.forceWake (h : s.FailsRelays s') :
    s'.pump.forceWake = s.pump.forceWake := by
  rw [FailsRelays] at h
  rw [h]

/-- The poll after a tick wakes the waiters. -/
theorem PumpStep.wakes (h : PumpStep s s') (hset : s.pump.forceWake = true)
    (hreset : s'.pump.forceWake = false) : s'.st.waiters = [] := by
  have hkept : s'.pump.forceWake ≠ s.pump.forceWake := by
    rw [hset, hreset]
    exact Bool.false_ne_true
  cases h with
  | @drain polling st progressed =>
    rw [hset, Bool.or_true, if_pos rfl]
    rfl
  | relaySendFailed =>
    refine absurd ?_ hkept
    split
    · exact (s.failHome_fails _ _).forceWake
    · rfl
  | arm =>
    refine absurd ?_ hkept
    rw [Sys.foldl_spawnUpgrade_frame]
  | relaySignal =>
    refine absurd ?_ hkept
    rw [Sys.handleSignal_frame]
    rfl
  | relayFailed => exact absurd (Sys.failReceive_fails _ _ _ _).forceWake hkept
  | redialFailed =>
    refine absurd ?_ hkept
    rw [Sys.failRedial]
    split <;> rfl
  | tick =>
    cases hreset.symm.trans (Sys.sweep_fails _ _ _).forceWake
  | _ => exact absurd rfl hkept

theorem Step.wakes (h : Step s s') (hset : s.pump.forceWake = true)
    (hreset : s'.pump.forceWake = false) : s'.st.waiters = [] := by
  rcases h.pumps with h | hpump
  · exact h.wakes hset hreset
  · rw [hpump, hset] at hreset
    cases hreset

/-- Only the passing of time moves the clock. -/
theorem Step.clock (h : Step s s') : s'.now = s.now ∨ ∃ d, s' = { s with now := s.now + d } := by
  cases h with
  | pump h => exact .inl (Sys.closing_eq h.closing).2.1
  | connect h => exact .inl (by rw [h.frame])
  | session h => exact .inl (by cases h <;> rfl)
  | @pass d => exact .inr ⟨d, rfl⟩
  | _ => exact .inl rfl

end Steps

/-- A call that waits is within its deadline at the last tick after which it has parked. -/
structure Due (tick : Duration) (started : Instant) (tid : TaskId) (x : Sys × Duration) :
    Prop where
  parked : tid ∈ x.1.st.waiters → x.1.pump.forceWake = false →
    x.1.now ≤ started + relayOpenDeadline + x.2
  late : x.1.now ≤ started + relayOpenDeadline + tick

section Runs

variable {tick : Duration} {x y : Sys × Duration} {tid : TaskId} {normalized : String}
  {started : Instant}

/-- A call that parks is within its deadline. -/
theorem Due.of_parks (hok : Punctual tick x y) (hparks : y.1.st.waiters = tid :: x.1.st.waiters)
    (hw : y.1.Waits tid normalized started) : Due tick started tid y := by
  have hnow := ensureRelayCheck_none (hok.parks tid normalized started hparks hw)
  exact ⟨fun _ _ => Nat.le_add_right_of_le hnow, Nat.le_add_right_of_le hnow⟩

/-- A call that waits stays within its deadline and a tick. -/
theorem Due.step (hst : ticking.step x y) (hok : Punctual tick x y)
    (hx : ∀ tid normalized started, x.1.Waits tid normalized started → Due tick started tid x)
    (hw : y.1.Waits tid normalized started) : Due tick started tid y := by
  obtain ⟨hstep, hnote⟩ := hst
  by_cases hparks : y.1.st.waiters = tid :: x.1.st.waiters
  · exact .of_parks hok hparks hw
  have hwaits := (hstep.waits hw).resolve_right hparks
  obtain ⟨hparked, hlate⟩ := hx tid normalized started hwaits
  by_cases hnow : y.1.now = x.1.now
  · refine ⟨fun hmem hset => ?_, hnow ▸ hlate⟩
    -- The call has not been woken, so the last tick is the one before this step.
    have hbefore : tid ∈ x.1.st.waiters := by
      rcases hstep.parks.waiters.resolve_left (List.ne_nil_of_mem hmem) with hsame | ⟨tid', hcons⟩
      · exact hsame ▸ hmem
      · rw [hcons] at hmem hparks
        rcases List.mem_cons.1 hmem with rfl | hmem
        · exact absurd rfl hparks
        · exact hmem
    have hunset : x.1.pump.forceWake = false := by
      by_contra hset'
      exact List.ne_nil_of_mem hmem (hstep.wakes (by simpa using hset') hset)
    have hsince : y.2 = x.2 := by
      rw [Sys.Elapses, hset, hnow, Nat.sub_self] at hnote
      exact hnote
    rw [hnow, hsince]
    exact hparked hbefore hunset
  · -- All who were woken have run, so the call has parked since the last tick.
    obtain ⟨hset, hall⟩ := hok.idle hnow
    obtain ⟨d, hd⟩ := hstep.clock.resolve_left hnow
    have hbefore := hparked (hall tid normalized started hwaits) hset
    have hclock : y.1.now = x.1.now + d := by rw [hd]
    have hsince : y.2 = x.2 + d := by
      rw [Sys.Elapses, hd, hset, Nat.add_sub_cancel_left] at hnote
      exact hnote
    have hafter : y.1.now ≤ started + relayOpenDeadline + y.2 := by
      rw [hclock, hsince]
      exact (Nat.add_le_add_right hbefore d).trans_eq (Nat.add_assoc _ _ _)
    exact ⟨fun _ _ => hafter, hafter.trans (Nat.add_le_add_left hok.ticks _)⟩

/-- **A call that waits** for another call's open of a relay is released when its deadline is
    over, at the latest one tick later. -/
theorem released_in_time (hx : (ticking.restrict (Punctual tick)).Reachable x)
    (hw : x.1.Waits tid normalized started) :
    x.1.now ≤ started + relayOpenDeadline + tick := by
  have hdue : ∀ tid normalized started, x.1.Waits tid normalized started →
      Due tick started tid x := by
    refine hx.invariant (P := fun x => ∀ tid normalized started,
      x.1.Waits tid normalized started → Due tick started tid x) ?_ ?_
    · rintro ⟨_, _⟩ ⟨⟨config, webrtc, now, st, key, -, rfl⟩, -⟩ tid normalized started
      rintro ⟨_, _, _, hl, -⟩
      cases hl
    · exact fun x y _ ⟨hst, hok⟩ hall tid normalized started hw => .step hst hok hall hw
  exact (hdue tid normalized started hw).late

end Runs

/-- A step that takes no time is on time, if the calls that park find nothing. -/
theorem ticking_step {s s' : Sys} (hs : (ticking.restrict (Punctual tickNs)).Reachable (s, 0))
    (hst : Step s s') (hnow : s'.now = s.now)
    (hparks : ∀ tid normalized started, s'.st.waiters = tid :: s.st.waiters →
      s'.Waits tid normalized started →
      s'.st.ensureRelayCheck normalized started s'.now = none) :
    (ticking.restrict (Punctual tickNs)).Reachable (s', 0) := by
  refine hs.step ⟨⟨hst, ?_⟩, hparks, fun hne => absurd hnow hne, Nat.zero_le _⟩
  rw [Sys.Elapses, hnow, Nat.sub_self]
  split <;> rfl

/-- The pump alone is on time, as long as no call waits. -/
theorem ticking_of_pumped {s : Sys}
    (h : (endpoint.restrict fun s s' => PumpStep s s').Reachable s) : s.connects = ∅ ∧
    (ticking.restrict (Punctual tickNs)).Reachable (s, 0) := by
  induction h with
  | init hinit =>
    refine ⟨?_, .init ⟨hinit, rfl⟩⟩
    obtain ⟨config, webrtc, now, st, key, -, rfl⟩ := hinit
    rfl
  | @step s s' _ hst ih =>
    obtain ⟨hnone, hs⟩ := ih
    obtain ⟨hst, hpump⟩ := hst
    have hnone' : s'.connects = ∅ := hpump.handles.1.trans hnone
    have hnow : s'.now = s.now := (Sys.closing_eq hpump.closing).2.1
    refine ⟨hnone', ticking_step hs hst hnow fun tid normalized started _ hw => ?_⟩
    obtain ⟨_, _, _, hl, -⟩ := hw
    rw [hnone'] at hl
    cases hl

/-- A call that waits for the relay that another one dials. -/
def Sys.sharing : Sys :=
  let s := Sys.idle (.relayOnly "https://home.example") false 0
  { s with
    st := { s.st with
      relayOpening := [normalizeRelayUrl "https://other.example"]
      waiters := [1] }
    connects := AList.insert 1 { ConnectTask.abroad with phase := .waiting .dial 0 }
      (AList.insert 0 .abroad ∅) }

/-- Nobody else waits there. -/
theorem sharing_waits {s : Sys} (hs : s.connects = Sys.sharing.connects) {tid : TaskId}
    {normalized : String} {started : Instant} : s.Waits tid normalized started ↔
      tid = 1 ∧ normalized = normalizeRelayUrl "https://other.example" ∧ started = 0 := by
  constructor
  · rintro ⟨task, target, url, hl, hp, hurl, rfl⟩
    rw [hs] at hl
    rcases Table.lookup_insert_some.1 hl with ⟨rfl, rfl⟩ | ⟨-, hl⟩
    · cases hp
      cases hurl
      exact ⟨rfl, rfl, rfl⟩
    · rcases Table.lookup_insert_some.1 hl with ⟨-, rfl⟩ | ⟨-, hl⟩
      · cases hp
      · cases hl
  · rintro ⟨rfl, rfl, rfl⟩
    exact ⟨_, .dial, "https://other.example", by rw [hs]; rfl, rfl, rfl, rfl⟩

/-- A call can wait. -/
theorem sharing_reachable : (ticking.restrict (Punctual tickNs)).Reachable (Sys.sharing, 0) := by
  have hidle := (ticking_of_pumped (idle_pumped (fun h _ => h) false)).2
  -- The first call dials the relay,
  have hcall := ticking_step hidle (.connect (@ConnectStep.call _ 0
    ⟨List.replicate 32 7, [.relay "https://other.example"]⟩ (Vector.replicate 32 7) rfl rfl rfl))
    rfl nofun
  have hclaimed := ticking_step hcall (.connect (@ConnectStep.claimed _ 0 _ .dial
    "https://other.example" _ rfl rfl rfl rfl rfl)) rfl nofun
  -- and the second one waits for it.
  have hcall' := ticking_step hclaimed (.connect (@ConnectStep.call _ 1
    ⟨List.replicate 32 7, [.relay "https://other.example"]⟩ (Vector.replicate 32 7) rfl rfl rfl))
    rfl nofun
  have hparks : ∀ tid normalized started, Sys.sharing.Waits tid normalized started →
      Sys.sharing.st.ensureRelayCheck normalized started 0 = none := by
    intro tid normalized started hw
    obtain ⟨-, rfl, rfl⟩ := (sharing_waits rfl).1 hw
    rfl
  have hshared := ticking_step hcall' (.connect (@ConnectStep.shared _ 1 _ .dial
    "https://other.example" _ rfl rfl rfl rfl rfl)) rfl
    fun tid normalized started _ hw => hparks tid normalized started hw
  exact hshared

/-- It waits until the next tick. -/
theorem released_in_time_sharing : ∃ x : Sys × Duration,
    (ticking.restrict (Punctual tickNs)).Reachable x ∧
      x.1.Waits 1 (normalizeRelayUrl "https://other.example") 0 ∧ x.2 = tickNs ∧
      x.1.now ≤ 0 + relayOpenDeadline + tickNs := by
  have hpass : (ticking.restrict (Punctual tickNs)).Reachable
      ({ Sys.sharing with now := 0 + tickNs }, tickNs) := by
    refine sharing_reachable.step ⟨⟨.pass, ?_⟩, nofun, fun _ => ⟨rfl, ?_⟩, le_refl _⟩
    · exact (Nat.zero_add tickNs).symm.trans (Nat.zero_add _).symm
    · rintro tid normalized started hw
      obtain ⟨rfl, -, -⟩ := (sharing_waits rfl).1 hw
      exact List.mem_cons_self
  have hwaits := (@sharing_waits { Sys.sharing with now := 0 + tickNs } rfl _ _ _).2
    ⟨rfl, rfl, rfl⟩
  exact ⟨_, hpass, hwaits, rfl, released_in_time hpass hwaits⟩

end IrohEndpoint
