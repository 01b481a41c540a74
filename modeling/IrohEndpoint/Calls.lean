import IrohEndpoint.Frame
import IrohEndpoint.System.Step

/-!
# The calls of the resources

A step is one of the pump, of a `connect` call or of a signaling session, or serves
another call (`Step.cases`); what the latter may change is `Sys.Serves`. The pump
leaves its loop only once the endpoint is closed (`Step.left`).

The `connect` calls change only by their own steps (`Step.calls`). A call looks for the
relay to dial through, and for the one to signal an upgrade through (`Sys.Seeks`); the
pool key it gets (`Sys.Returns`) is the one that the URL has then (`Step.returns`), and
the dial of a relay ends with a key or a released claim (`Step.dialing`).
-/

namespace IrohEndpoint

open Transition State

/-! ## The other calls -/

/-- What the calls other than `connect` may change, and the passing of time: the
    connections and what is handed out, who is parked, whether the pump is kicked, and
    whether the endpoint is closed. -/
structure Sys.Serves (s s' : Sys) : Prop where
  frame : s' = { s with
    st := { s.st with
      conns := s'.st.conns
      acceptQueue := s'.st.acceptQueue
      waiters := s'.st.waiters
      pumpKicked := s'.st.pumpKicked
      pumpWaker := s'.st.pumpWaker
      closed := s'.st.closed
      closedAt := s'.st.closedAt }
    now := s'.now
    accepts := s'.accepts
    connections := s'.connections
    streams := s'.streams
    watches := s'.watches }
  closes : s'.st.closed = s.st.closed ∨ s'.st.closed = true
  kicks : (s'.st.pumpKicked = s.st.pumpKicked ∧ s'.st.pumpWaker = s.st.pumpWaker) ∨
    (s'.st.pumpKicked = true ∧ s'.st.pumpWaker = false)

/-- A step is one of the pump, of a `connect` call or of a session, or serves another
    call. -/
theorem Step.cases {s s' : Sys} (h : Step s s') :
    PumpStep s s' ∨ ConnectStep s s' ∨ SessionStep s s' ∨ s.Serves s' := by
  cases h with
  | pump h => exact .inl h
  | connect h => exact .inr (.inl h)
  | session h => exact .inr (.inr (.inl h))
  | accept _ h | acceptClosed _ h | acceptPark _ h =>
    obtain rfl := acceptCheck_eq h
    exact .inr (.inr (.inr ⟨rfl, .inl rfl, .inl ⟨rfl, rfl⟩⟩))
  | closeEndpoint =>
    rw [State.closeEndpoint]
    split
    · exact .inr (.inr (.inr ⟨rfl, .inl rfl, .inl ⟨rfl, rfl⟩⟩))
    · exact .inr (.inr (.inr ⟨rfl, .inr rfl, .inr ⟨rfl, rfl⟩⟩))
  | closeConnection =>
    rcases s.st.closeConnection_cases _ _ _ _ with ⟨h, -⟩ | ⟨_, -, -, -, h⟩ <;> rw [h]
    · exact .inr (.inr (.inr ⟨rfl, .inl rfl, .inl ⟨rfl, rfl⟩⟩))
    · exact .inr (.inr (.inr ⟨rfl, .inl rfl, .inr ⟨rfl, rfl⟩⟩))
  | dropConnection =>
    rcases s.st.closeConnection_cases _ _ _ _ with ⟨h, -⟩ | ⟨_, -, -, -, h⟩ <;>
      rw [State.dropConnection, h]
    · exact .inr (.inr (.inr ⟨rfl, .inl rfl, .inl ⟨rfl, rfl⟩⟩))
    · exact .inr (.inr (.inr ⟨rfl, .inl rfl, .inr ⟨rfl, rfl⟩⟩))
  | openStream _ _ h =>
    rcases openStreamCheck_cases h with rfl | rfl
    · exact .inr (.inr (.inr ⟨rfl, .inl rfl, .inl ⟨rfl, rfl⟩⟩))
    · exact .inr (.inr (.inr ⟨rfl, .inl rfl, .inr ⟨rfl, rfl⟩⟩))
  | acceptStream _ _ h =>
    rcases acceptStreamCheck_cases h with rfl | ⟨_, _, -, rfl⟩ <;>
      exact .inr (.inr (.inr ⟨rfl, .inl rfl, .inl ⟨rfl, rfl⟩⟩))
  | kick => exact .inr (.inr (.inr ⟨rfl, .inl rfl, .inr ⟨rfl, rfl⟩⟩))
  | pass | repark | acceptCancel | pathChanges =>
    exact .inr (.inr (.inr ⟨rfl, .inl rfl, .inl ⟨rfl, rfl⟩⟩))

/-- What a `connect` call may change: the connections, the standins and their routes,
    the relays, the requested upgrades, who is parked, and whether the pump is kicked. -/
theorem ConnectStep.frame {s s' : Sys} (h : ConnectStep s s') :
    s' = { s with
      st := { s.st with
        conns := s'.st.conns
        nextConnEpoch := s'.st.nextConnEpoch
        insertions := s'.st.insertions
        peerToAddr := s'.st.peerToAddr
        addrToPeer := s'.st.addrToPeer
        nextHost := s'.st.nextHost
        routes := s'.st.routes
        relayPool := s'.st.relayPool
        relayKeys := s'.st.relayKeys
        relayOpening := s'.st.relayOpening
        newRelays := s'.st.newRelays
        nextRelayKey := s'.st.nextRelayKey
        pendingUpgrades := s'.st.pendingUpgrades
        waiters := s'.st.waiters
        pumpKicked := s'.st.pumpKicked
        pumpWaker := s'.st.pumpWaker }
      running := s'.running
      connects := s'.connects
      connections := s'.connections
      relayConns := s'.relayConns } := by
  cases h with
  | found _ _ _ _ he | closed _ _ _ _ he | claimed _ _ _ _ he | shared _ _ _ _ he =>
    rw [ensureRelay_frame he]
    rfl
  | opened _ _ _ _ hr =>
    obtain ⟨-, -, rfl⟩ := registerRelay_eq hr
    rfl
  | dialFailed _ _ _ _ ha =>
    rw [dialAddr_frame ha]
    rfl
  | dialed _ _ _ _ ha hd =>
    obtain ⟨s₁, _, h₁, rfl⟩ := dialed_eq hd
    obtain ⟨-, -, -, rfl⟩ := insertConn_eq h₁
    rw [dialAddr_frame ha]
    rfl
  | failed | cancelParked =>
    rcases s.st.closeConnection_cases _ _ _ _ with ⟨h, -⟩ | ⟨_, -, -, -, h⟩ <;>
      rw [dropDialGuard, h] <;> rfl
  | _ => rfl

/-! ## The end of the pump -/

/-- The pump only ends on a closed endpoint. -/
theorem State.closed_of_mayEnd {s : State} {now : Instant} (h : s.mayEnd now = true) :
    s.closed = true := by
  rw [mayEnd, Bool.and_eq_true] at h
  exact h.1

/-- A step of the pump out of its loop is the end of the loop, which it may end. -/
theorem PumpStep.left {s s' : Sys} (h : PumpStep s s') (hl : s'.pump.pc.left = true) :
    s.pump.pc.left = true ∨
      s.pump.pc = .check ∧ s'.pump.pc = .leaving ∧ s.st.mayEnd s.now = true := by
  cases h with
  | leave hpc hend => exact .inr ⟨hpc, rfl, hend⟩
  | arm =>
    rw [Sys.foldl_spawnUpgrade_frame] at hl
    cases hl
  | relayLost => exact .inl hl
  | closeRelays hpc | closeWires hpc | settled hpc => exact .inl (by rw [hpc]; rfl)
  | udpSend | channelSend =>
    dsimp only [Sys.goto] at hl
    split at hl <;> cases hl
  | _ => cases hl

/-- Only the pump leaves its loop, on a closed endpoint. -/
theorem Step.left {s s' : Sys} (h : Step s s') (hl : s'.pump.pc.left = true) :
    s.pump.pc.left = true ∨
      s.pump.pc = .check ∧ s'.pump.pc = .leaving ∧ s.st.closed = true := by
  rcases h.cases with h | h | h | h
  · exact (h.left hl).imp_right (.imp_right (.imp_right State.closed_of_mayEnd))
  · cases h <;> exact .inl hl
  · cases h <;> exact .inl hl
  · rw [h.frame] at hl
    exact .inl hl

/-! ## The `connect` calls -/

/-- A failing relay hands out no connection. -/
theorem Sys.FailsRelays.handles {s s' : Sys} (h : Sys.FailsRelays s s') :
    s'.connects = s.connects ∧ s'.connections = s.connections := by
  rw [FailsRelays] at h
  rw [h]
  exact ⟨rfl, rfl⟩

/-- A step of the pump hands out no connection. -/
theorem PumpStep.handles {s s' : Sys} (h : PumpStep s s') :
    s'.connects = s.connects ∧ s'.connections = s.connections := by
  cases h with
  | relaySendFailed =>
    split
    · exact (s.failHome_fails _ _).handles
    · exact ⟨rfl, rfl⟩
  | arm =>
    rw [Sys.foldl_spawnUpgrade_frame]
    exact ⟨rfl, rfl⟩
  | relaySignal =>
    rw [Sys.handleSignal_frame]
    exact ⟨rfl, rfl⟩
  | relayFailed => exact (Sys.failReceive_fails _ _ _ _).handles
  | redialFailed =>
    rw [Sys.failRedial]
    split <;> exact ⟨rfl, rfl⟩
  | tick => exact (Sys.sweep_fails _ _ _).handles
  | _ => exact ⟨rfl, rfl⟩

/-- A step of a session hands out no connection. -/
theorem SessionStep.handles {s s' : Sys} (h : SessionStep s s') :
    s'.connects = s.connects ∧ s'.connections = s.connections := by
  cases h <;> exact ⟨rfl, rfl⟩

/-- The calls change by their own steps. -/
theorem Step.calls {s s' : Sys} (h : Step s s') :
    ConnectStep s s' ∨ s'.connects = s.connects := by
  rcases h.cases with h | h | h | h
  · exact .inr h.handles.1
  · exact .inl h
  · exact .inr h.handles.1
  · exact .inr (by rw [h.frame])

/-! ## Looking for a relay -/

/-- The outcomes of looking for a relay. -/
theorem State.ensureRelay_cases {s s' : State} {url : String} {opening : Opening}
    (h : s.ensureRelay url = (s', opening)) :
    (∃ key, opening = .found key ∧ s' = s ∧ s.relayKeys.lookup (normalizeRelayUrl url) = some key) ∨
      (s.relayKeys.lookup (normalizeRelayUrl url) = none ∧
        ((opening = .closed ∧ s' = s ∧ s.closed = true) ∨
          (opening = .shared ∧ s' = s ∧ normalizeRelayUrl url ∈ s.relayOpening) ∨
          (opening = .claimed ∧ s.closed = false ∧ normalizeRelayUrl url ∉ s.relayOpening ∧
            s' = { s with relayOpening := normalizeRelayUrl url :: s.relayOpening }))) := by
  rw [ensureRelay] at h
  split at h <;> rename_i hk
  · cases h
    exact .inl ⟨_, rfl, rfl, hk⟩
  · refine .inr ⟨hk, ?_⟩
    split at h <;> rename_i hc
    · cases h
      exact .inl ⟨rfl, rfl, hc⟩
    · split at h <;> rename_i ho <;> cases h
      · exact .inr (.inl ⟨rfl, rfl, ho⟩)
      · exact .inr (.inr ⟨rfl, by simpa using hc, ho, rfl⟩)

namespace Sys

/-- The call `tid` is dialing the relay `url`. -/
def Dialing (s : Sys) (tid : TaskId) (url : String) : Prop :=
  ∃ task target, s.connects.lookup tid = some task ∧ task.phase = .opening target ∧
    target.url task.plan = some url

/-- The call `tid` looks for the relay `url`: it begins, dials or waits. -/
def Seeks (s : Sys) (tid : TaskId) (task : ConnectTask) (target : Target) (url : String) : Prop :=
  s.connects.lookup tid = some task ∧ target.url task.plan = some url ∧
    (task.phase = .resolve target ∨ task.phase = .opening target ∨
      ∃ started, task.phase = .waiting target started)

/-- In the step from `s` to `s'`, the call `tid` gets the pool key `key` for `url`. -/
def Returns (s s' : Sys) (tid : TaskId) (url : String) (key : RelayKey) : Prop :=
  ∃ task target task', s.Seeks tid task target url ∧ s'.connects.lookup tid = some task' ∧
    task'.phase = target.next key

/-- The next call for `url` opens it, unless the endpoint is closed. -/
def Openable (s : Sys) (url : String) : Prop :=
  normalizeRelayUrl url ∉ s.st.relayOpening ∧
    (s.st.closed = false → ∃ st, s.st.ensureRelay url = (st, .claimed))

variable {s s' : Sys} {tid : TaskId} {task : ConnectTask} {target : Target} {url : String}
  {key : RelayKey}

/-- A call that looks for a relay has no key for it yet. -/
theorem Seeks.ne_next (h : s.Seeks tid task target url) : task.phase ≠ target.next key := by
  obtain ⟨-, -, h | h | ⟨_, h⟩⟩ := h <;> rw [h] <;> cases target <;> simp [Target.next]

/-- A call that gets a key is the one that moves. -/
theorem Returns.moved {tid₀ : TaskId} {task₀ : ConnectTask} (h : s.Returns s' tid url key)
    (hc : s'.connects = s.connects.insert tid₀ task₀) :
    tid = tid₀ ∧ ∃ task target, s.Seeks tid task target url ∧ task₀.phase = target.next key := by
  obtain ⟨task, target, task', hseeks, hl, hp⟩ := h
  rw [hc] at hl
  rcases Table.lookup_insert_some.1 hl with ⟨heq, rfl⟩ | ⟨-, hl⟩
  · exact ⟨heq, task, target, hseeks, hp⟩
  · cases Option.some.inj (hseeks.1.symm.trans hl)
    exact absurd hp hseeks.ne_next

/-- A call gets no key if none moves. -/
theorem not_returns (hc : s'.connects = s.connects ∨ ∃ tid₀, s'.connects = s.connects.erase tid₀) :
    ¬s.Returns s' tid url key := by
  rintro ⟨task, target, task', hseeks, hl, hp⟩
  have hold : s.connects.lookup tid = some task' := by
    rcases hc with hc | ⟨tid₀, hc⟩
    · rwa [hc] at hl
    · rw [hc] at hl
      exact (Table.lookup_erase_some.1 hl).2
  cases Option.some.inj (hseeks.1.symm.trans hold)
  exact hseeks.ne_next hp

/-- The phase in which a call looks for a relay names its target. -/
theorem Seeks.target_eq {target' : Target} {task' : ConnectTask} (h : s.Seeks tid task target url)
    (hl : s.connects.lookup tid = some task')
    (hp : task'.phase = .resolve target' ∨ task'.phase = .opening target' ∨
      ∃ started, task'.phase = .waiting target' started) : task' = task ∧ target' = target := by
  obtain ⟨hl', -, hp'⟩ := h
  cases Option.some.inj (hl.symm.trans hl')
  refine ⟨rfl, ?_⟩
  rcases hp with hp | hp | ⟨_, hp⟩ <;> rw [hp] at hp' <;> simpa using hp'

/-- A call goes on dialing while another one moves or ends. -/
theorem Dialing.stays {tid₀ : TaskId} (h : s.Dialing tid url) (hne : tid ≠ tid₀)
    (hc : (∃ task₀, s'.connects = s.connects.insert tid₀ task₀) ∨
      s'.connects = s.connects.erase tid₀) : s'.Dialing tid url := by
  obtain ⟨task, target, hl, hp⟩ := h
  refine ⟨task, target, ?_, hp⟩
  rcases hc with ⟨task₀, hc⟩ | hc <;> rw [hc]
  · rw [Table.lookup_insert_eq, if_neg hne, hl]
  · rw [Table.lookup_erase_eq, if_neg hne, hl]

/-- A call in another phase is not the one that dials. -/
theorem Dialing.ne {tid₀ : TaskId} {task₀ : ConnectTask} {phase : ConnectPhase}
    (h : s.Dialing tid url) (hl : s.connects.lookup tid₀ = some task₀) (hp : task₀.phase = phase)
    (hphase : ∀ target, phase ≠ .opening target) : tid ≠ tid₀ := by
  rintro rfl
  obtain ⟨task, target, hl', hp', -⟩ := h
  cases Option.some.inj (hl.symm.trans hl')
  exact hphase target (hp.symm.trans hp')

end Sys

/-- The key that a call gets is a part of its phase. -/
theorem Target.next_injective {target : Target} {key key' : RelayKey}
    (h : target.next key = target.next key') : key = key' := by
  cases target <;> simpa [next] using h

/-- The key that a call gets is the one that the URL has then. -/
theorem Step.returns {s s' : Sys} {tid : TaskId} {url : String} {key : RelayKey} (h : Step s s')
    (hr : s.Returns s' tid url key) : s'.st.relayKeys.lookup (normalizeRelayUrl url) = some key := by
  rcases h.calls with h | hc
  · cases h with
    | refused => exact absurd hr (Sys.not_returns (.inl rfl))
    | cancelOpening | cancelWaiting | cancelParked =>
      exact absurd hr (Sys.not_returns (.inr ⟨_, rfl⟩))
    | call _ hn =>
      obtain ⟨rfl, _, _, hseeks, -⟩ := hr.moved rfl
      rw [hseeks.1] at hn
      cases hn
    | skip _ hl hp hurl =>
      obtain ⟨rfl, _, _, hseeks, -⟩ := hr.moved rfl
      obtain ⟨rfl, rfl⟩ := hseeks.target_eq hl (.inl hp)
      cases hurl.symm.trans hseeks.2.1
    | found _ hl hp hurl he =>
      obtain ⟨rfl, _, _, hseeks, hnext⟩ := hr.moved rfl
      obtain ⟨rfl, rfl⟩ := hseeks.target_eq hl (.inl hp)
      cases hurl.symm.trans hseeks.2.1
      rcases ensureRelay_cases he with ⟨_, ho, rfl, hk⟩ | ⟨-, ho | ho | ho⟩
      · cases ho
        exact Target.next_injective hnext ▸ hk
      all_goals cases ho.1
    | opened _ hl hp hurl hreg =>
      obtain ⟨rfl, _, _, hseeks, hnext⟩ := hr.moved rfl
      obtain ⟨rfl, rfl⟩ := hseeks.target_eq hl (.inr (.inl hp))
      cases hurl.symm.trans hseeks.2.1
      obtain ⟨-, rfl, rfl⟩ := registerRelay_eq hreg
      exact Target.next_injective hnext ▸ AList.lookup_insert _
    | woken _ hl hp hurl hcheck =>
      obtain ⟨rfl, _, _, hseeks, hnext⟩ := hr.moved rfl
      obtain ⟨rfl, rfl⟩ := hseeks.target_eq hl (.inr (.inr ⟨_, hp⟩))
      cases hurl.symm.trans hseeks.2.1
      rw [ensureRelayCheck] at hcheck
      split at hcheck <;> rename_i hk
      · cases hcheck
        exact Target.next_injective hnext ▸ hk
      · split at hcheck
        · cases hcheck
        · split at hcheck
          · cases hcheck
          · split at hcheck <;> cases hcheck
    | _ =>
      obtain ⟨-, _, target, -, hnext⟩ := hr.moved rfl
      cases target <;> cases hnext
  · exact absurd hr (Sys.not_returns (.inl hc))

/-- A call that dials a relay goes on, gets a key, or has its claim released. -/
theorem Step.dialing {s s' : Sys} {tid : TaskId} {url : String} (h : Step s s')
    (hd : s.Dialing tid url) :
    s'.Dialing tid url ∨ (∃ key, s.Returns s' tid url key) ∨ s'.st = s.st.releaseClaim url := by
  -- The call that moves is this one, or another one.
  have hsame : ∀ {tid₀ task₀ target₀ url₀}, s.connects.lookup tid₀ = some task₀ →
      task₀.phase = .opening target₀ → target₀.url task₀.plan = some url₀ → tid = tid₀ →
      url₀ = url := by
    rintro tid₀ task₀ target₀ url₀ hl hp hurl rfl
    obtain ⟨task, target, hl', hp', hurl'⟩ := hd
    cases Option.some.inj (hl.symm.trans hl')
    cases hp.symm.trans hp'
    exact Option.some.inj (hurl.symm.trans hurl')
  rcases h.calls with h | hc
  · cases h with
    | refused => exact .inl hd
    | @call tid₀ addr peer _ hn =>
      refine .inl (hd.stays ?_ (.inl ⟨_, rfl⟩))
      rintro rfl
      obtain ⟨task, target, hl, -⟩ := hd
      cases hn.symm.trans hl
    | @opened tid₀ task₀ target₀ url₀ st key _ hl hp hurl =>
      by_cases heq : tid = tid₀
      · cases hsame hl hp hurl heq
        subst heq
        exact .inr (.inl ⟨key, task₀, target₀, _, ⟨hl, hurl, .inr (.inl hp)⟩,
          AList.lookup_insert _, rfl⟩)
      · exact .inl (hd.stays heq (.inl ⟨_, rfl⟩))
    | @openFailed tid₀ task₀ target₀ url₀ err _ hl hp hurl =>
      by_cases heq : tid = tid₀
      · exact .inr (.inr (hsame hl hp hurl heq ▸ rfl))
      · exact .inl (hd.stays heq (.inl ⟨_, rfl⟩))
    | @cancelOpening tid₀ task₀ target₀ url₀ _ hl hp hurl =>
      by_cases heq : tid = tid₀
      · exact .inr (.inr (hsame hl hp hurl heq ▸ rfl))
      · exact .inl (hd.stays heq (.inr rfl))
    | cancelWaiting _ hl hp | cancelParked _ hl hp =>
      exact .inl (hd.stays (hd.ne hl hp (by simp)) (.inr rfl))
    | skip _ hl hp | found _ hl hp | closed _ hl hp | claimed _ hl hp | shared _ hl hp
    | woken _ hl hp | wokenFailed _ hl hp | tlsFailed _ hl hp | dialClosed _ hl hp
    | dialFailed _ hl hp | dialed _ hl hp | connected _ hl hp | failed _ hl hp =>
      exact .inl (hd.stays (hd.ne hl hp (by simp)) (.inl ⟨_, rfl⟩))
  · obtain ⟨task, target, hl, hp⟩ := hd
    exact .inl ⟨task, target, hc ▸ hl, hp⟩

end IrohEndpoint
