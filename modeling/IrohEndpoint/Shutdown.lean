import IrohEndpoint.Intake
import IrohEndpoint.Receives

/-!
# A closed endpoint

What straddles the closing of the endpoint checks, when it resumes, whether the
endpoint was closed meanwhile: a datagram makes no connection, a call that dials fails,
a session's channel is refused and closed, and the result of a redial is closed. One
does not: a `connect` call whose dial of a relay resolves (`Sys.Opens`) registers it in
the pool of a closed endpoint, and after the teardown nobody closes it.

In runs without such a step (`Sys.Timely`), a closed endpoint acquires nothing, and
once its pump has ended everything it has is closed.
-/

namespace IrohEndpoint

open Transition State

/-! ## The relays of a closed endpoint -/

namespace RelayPool

/-- What a closed endpoint does to its relays: apart from what was opened since, the pool
    only loses connections, and once the pump has closed the relays, all of it is
    closed. -/
structure Closing (r r' : RelayPool) : Prop where
  closed : r'.closed = true
  opened : r.opened ≤ r'.opened
  shut : ∀ conn ∈ r.closedConns, conn ∈ r'.closedConns
  pool : ∀ key conn, r'.pool.lookup key = some conn →
    r.pool.lookup key = some conn ∨ r.opened ≤ conn.id
  torn : r.stage.running = true → r'.stage.running = false → ∀ key conn,
    r'.pool.lookup key = some conn → conn ∈ r'.closedConns ∨ r.opened ≤ conn.id

theorem Closing.refl {r : RelayPool} (hc : r.closed = true) : r.Closing r :=
  ⟨hc, le_refl _, fun _ => id, fun _ _ => .inl, fun h h' => by rw [h] at h'; cases h'⟩

theorem Closing.trans {r₁ r₂ r₃ : RelayPool} (h₁ : r₁.Closing r₂) (h₂ : r₂.Closing r₃) :
    r₁.Closing r₃ := by
  refine ⟨h₂.closed, h₁.opened.trans h₂.opened, fun c hc => h₂.shut c (h₁.shut c hc), ?_, ?_⟩
  · intro key conn hc
    rcases h₂.pool key conn hc with hc | hc
    · exact h₁.pool key conn hc
    · exact .inr (h₁.opened.trans hc)
  · intro hrun hrun' key conn hc
    by_cases hmid : r₂.stage.running = true
    · exact (h₂.torn hmid hrun' key conn hc).imp_right h₁.opened.trans
    · rcases h₂.pool key conn hc with hc | hc
      · have htorn := h₁.torn hrun (by simpa using hmid) key conn hc
        exact htorn.imp_left (h₂.shut conn)
      · exact .inr (h₁.opened.trans hc)

/-- Every step of a closed endpoint. -/
theorem Step.closing {r r' : RelayPool} (h : Step r r') (hc : r.closed = true) :
    r.Closing r' := by
  -- Unless it is the teardown, a step does not take the pump out of its loop.
  have hstays : ∀ {r₁ : RelayPool}, r₁.stage = r.stage → r.stage.running = true →
      r₁.stage.running = false → ∀ key conn, r₁.pool.lookup key = some conn →
      conn ∈ r₁.closedConns ∨ r.opened ≤ conn.id := by
    intro r₁ hstage hrun hrun'
    rw [hstage, hrun] at hrun'
    cases hrun'
  cases h with
  | claim | release | take => exact ⟨hc, le_refl _, fun _ => id, fun _ _ => .inl, hstays rfl⟩
  | close => exact ⟨rfl, le_refl _, fun _ => id, fun _ _ => .inl, hstays rfl⟩
  | register =>
    refine ⟨hc, Nat.le_succ _, fun _ => id, fun key conn h => ?_, hstays rfl⟩
    rcases Table.lookup_insert_some.1 h with ⟨-, rfl⟩ | ⟨-, h⟩
    · exact .inr (le_refl _)
    · exact .inl h
  | retireHome | retire =>
    exact ⟨hc, le_refl _, fun _ => List.mem_cons_of_mem _,
      fun key conn h => .inl (Table.lookup_erase_some.1 h).2, hstays rfl⟩
  | dial => exact ⟨hc, Nat.le_succ _, fun _ => id, fun _ _ => .inl, nofun⟩
  | reoccupy _ hopen =>
    rw [hc] at hopen
    cases hopen
  | drop => exact ⟨hc, le_refl _, fun _ => List.mem_cons_of_mem _, fun _ _ => .inl, nofun⟩
  | tear =>
    refine ⟨hc, le_refl _, fun _ => List.mem_append_right _, fun _ _ => .inl, ?_⟩
    intro _ _ key conn h
    exact .inl (List.mem_append_left _ (List.mem_reverse.2 (Table.mem_values.2 ⟨key, h⟩)))
  | settle hstage =>
    refine ⟨hc, le_refl _, fun _ => id, fun _ _ => .inl, fun hrun => ?_⟩
    rw [hstage] at hrun
    cases hrun

/-- Every run of a closed endpoint. -/
theorem Closing.leads {r r' : RelayPool} (hr : machine.Reachable r) (h : machine.Leads r r')
    (hc : r.closed = true) : r.Closing r' := by
  have hrel : r.closed = true → r.Closing r' :=
    System.Leads.rel (R := fun r r' => r.closed = true → r.Closing r') (fun _ => .refl)
      (fun _ _ _ h₁ h₂ hc => (h₁ hc).trans (h₂ (h₁ hc).closed)) (fun _ _ _ => Step.closing) hr h
  exact hrel hc

end RelayPool

/-! ## The channels of a closed endpoint -/

namespace ChannelWires

/-- What a closed endpoint does to its channels: they are only retired, and a wire that
    is opened is closed. -/
structure Closing (c c' : ChannelWires) : Prop where
  closed : c'.closed = true
  shut : ∀ wire ∈ c.closedWires, wire ∈ c'.closedWires
  channels : ∀ id entry, c'.channels.lookup id = some entry → c.channels.lookup id = some entry
  opened : ∀ n, c.opened ≤ n → n < c'.opened → ⟨n⟩ ∈ c'.closedWires

theorem Closing.refl {c : ChannelWires} (hc : c.closed = true) : c.Closing c :=
  ⟨hc, fun _ => id, fun _ _ => id, fun _ hle hlt => absurd hlt hle.not_gt⟩

theorem Closing.trans {c₁ c₂ c₃ : ChannelWires} (h₁ : c₁.Closing c₂) (h₂ : c₂.Closing c₃) :
    c₁.Closing c₃ := by
  refine ⟨h₂.closed, fun w hw => h₂.shut w (h₁.shut w hw),
    fun id e he => h₁.channels id e (h₂.channels id e he), fun n hle hlt => ?_⟩
  rcases lt_or_ge n c₂.opened with hlt' | hge
  · exact h₂.shut _ (h₁.opened n hle hlt')
  · exact h₂.opened n hge hlt

/-- Every step of a closed endpoint. -/
theorem Step.closing {c c' : ChannelWires} (h : Step c c') (hc : c.closed = true) :
    c.Closing c' := by
  have hnone : ∀ {P : ℕ → Prop} n, c.opened ≤ n → n < c.opened → P n :=
    fun n hle hlt => absurd hlt hle.not_gt
  cases h with
  | register hopen =>
    rw [hc] at hopen
    cases hopen
  | refuse =>
    refine ⟨hc, fun _ => List.mem_cons_of_mem _, fun _ _ => id, fun n hle hlt => ?_⟩
    cases hle.antisymm (Nat.lt_succ_iff.1 hlt)
    exact List.mem_cons_self
  | retire => exact ⟨hc, fun _ => id, fun _ _ h => (Table.lookup_erase_some.1 h).2, hnone⟩
  | tear => exact ⟨hc, fun _ => List.mem_append_right _, fun _ _ => id, hnone⟩
  | close => exact ⟨rfl, fun _ => id, fun _ _ => id, hnone⟩
  | leave | settle => exact ⟨hc, fun _ => id, fun _ _ => id, hnone⟩

/-- Every run of a closed endpoint. -/
theorem Closing.leads {c c' : ChannelWires} (hr : machine.Reachable c) (h : machine.Leads c c')
    (hc : c.closed = true) : c.Closing c' := by
  have hrel : c.closed = true → c.Closing c' :=
    System.Leads.rel (R := fun c c' => c.closed = true → c.Closing c') (fun _ => .refl)
      (fun _ _ _ h₁ h₂ hc => (h₁ hc).trans (h₂ (h₁ hc).closed)) (fun _ _ _ => Step.closing) hr h
  exact hrel hc

end ChannelWires

/-! ## What a step acquires -/

/-- In the step from `s` to `s'`, the dial of a relay by a `connect` call resolves with a
    connection. -/
def Sys.Opens (s s' : Sys) : Prop := ∃ tid url key, s.Dialing tid url ∧ s.Returns s' tid url key

/-- A step in which no such dial resolves on a closed endpoint. -/
def Sys.Timely (s s' : Sys) : Prop := s.st.closed = true → ¬s.Opens s'

/-- The step from `s` to `s'` acquires nothing. -/
structure Sys.AcquiresNothing (s s' : Sys) : Prop where
  /-- An entry of the tables was there before. -/
  conns : ∀ handle e', s'.st.conns.lookup handle = some e' →
    ∃ e, s.st.conns.lookup handle = some e ∧ e'.epoch = e.epoch ∧ e'.conn.id = e.conn.id
  channels : ∀ id entry, s'.st.channels.lookup id = some entry →
    s.st.channels.lookup id = some entry
  pool : ∀ key conn, s'.st.relayPool.lookup key = some conn →
    s.st.relayPool.lookup key = some conn
  /-- A relay connection that it obtained is closed, or at the hands of the pump, which
      closes it before anything else happens. -/
  relay : ∀ n, s.relayConns ≤ n → n < s'.relayConns →
    ⟨n⟩ ∈ s'.st.closedRelays ∨ s'.pump.pc = .redialed ⟨n⟩
  handled : ∀ conn, s'.pump.pc = .redialed conn → s'.pump.pc.awaits = false ∧
    ∀ s'', PumpStep s' s'' → conn ∈ s''.st.closedRelays
  /-- A channel that it obtained is closed. -/
  wire : ∀ n, s.channelWires ≤ n → n < s'.channelWires → ⟨n⟩ ∈ s'.st.closedWires

/-- A failing relay opens no connection. -/
theorem Sys.FailsRelays.relayConns {s s' : Sys} (h : Sys.FailsRelays s s') :
    s'.relayConns = s.relayConns := by
  rw [FailsRelays] at h
  rw [h]

/-- The pump obtains a relay connection only by a redial. -/
theorem PumpStep.relayConns {s s' : Sys} (h : PumpStep s s') :
    s'.relayConns = s.relayConns ∨
      (s'.relayConns = s.relayConns + 1 ∧ s'.pump.pc = .redialed ⟨s.relayConns⟩) := by
  cases h with
  | relaySendFailed =>
    refine .inl ?_
    split
    · exact (s.failHome_fails _ _).relayConns
    · rfl
  | arm =>
    rw [Sys.foldl_spawnUpgrade_frame]
    exact .inl rfl
  | relaySignal =>
    rw [Sys.handleSignal_frame]
    exact .inl rfl
  | relayFailed => exact .inl (Sys.failReceive_fails _ _ _ _).relayConns
  | redialOpened => exact .inr ⟨rfl, rfl⟩
  | redialFailed =>
    rw [Sys.failRedial]
    split <;> exact .inl rfl
  | tick => exact .inl (Sys.sweep_fails _ _ _).relayConns
  | _ => exact .inl rfl

/-- A relay connection is obtained by a redial, or by a call. -/
theorem Step.relayConns {s s' : Sys} (h : Step s s') :
    s'.relayConns = s.relayConns ∨
      (s'.relayConns = s.relayConns + 1 ∧ s'.pump.pc = .redialed ⟨s.relayConns⟩) ∨ s.Opens s' := by
  rcases h.cases with h | h | h | h
  · exact h.relayConns.imp_right .inl
  · cases h with
    | @opened tid task target url st key _ hl hp hurl =>
      exact .inr (.inr ⟨tid, url, key, ⟨task, target, hl, hp, hurl⟩, task, target, _,
        ⟨hl, hurl, .inr (.inl hp)⟩, AList.lookup_insert _, rfl⟩)
    | _ => exact .inl rfl
  · cases h <;> exact .inl rfl
  · exact .inl (by rw [h.frame])

/-- A dial that resolves puts its connection in the pool. -/
theorem Sys.Opens.pool {s s' : Sys} (h : Step s s') (ho : s.Opens s') :
    s'.st.relayPool.lookup s.st.nextRelayKey = some ⟨s.relayConns⟩ := by
  obtain ⟨tid, url, key, hd, hr⟩ := ho
  rcases h.calls with h | hc
  · cases h with
    | refused => exact absurd hr (not_returns (.inl rfl))
    | cancelOpening | cancelWaiting | cancelParked => exact absurd hr (not_returns (.inr ⟨_, rfl⟩))
    | call _ hn =>
      obtain ⟨rfl, _, _, hseeks, -⟩ := hr.moved rfl
      cases hn.symm.trans hseeks.1
    | opened _ _ _ _ hreg =>
      obtain ⟨-, -, rfl⟩ := registerRelay_eq hreg
      exact AList.lookup_insert _
    | openFailed =>
      obtain ⟨-, _, target, -, hnext⟩ := hr.moved rfl
      cases target <;> cases hnext
    | skip _ hl hp | found _ hl hp | closed _ hl hp | claimed _ hl hp | shared _ hl hp
    | woken _ hl hp | wokenFailed _ hl hp | tlsFailed _ hl hp | dialClosed _ hl hp
    | dialFailed _ hl hp | dialed _ hl hp | connected _ hl hp | failed _ hl hp =>
      exact absurd (hr.moved rfl).1 (hd.ne hl hp (by simp))
  · exact absurd hr (not_returns (.inl hc))

/-- A closed endpoint makes no connection. -/
theorem Step.insertions_closed {s s' : Sys} (h : Step s s') (hc : s.st.closed = true) :
    s'.st.nextConnEpoch = s.st.nextConnEpoch := by
  rcases h.acts with ⟨polling, hd⟩ | ⟨stamp, _, st, _, -, ha, -, rfl⟩ |
    ⟨res, dir, id, _, st, -, -, ha, rfl⟩ | hacts
  · exact hd.hear.1
  · obtain ⟨_, _, _, -, -, -, rfl⟩ := acceptCheck_ok ha
    rfl
  · obtain ⟨_, _, -, -, rfl⟩ := acceptStreamCheck_ok ha
    rfl
  · generalize hd : s'.st.desk = d at hacts
    have hnext : s'.st.nextConnEpoch = d.nextConnEpoch := congrArg Desk.nextConnEpoch hd
    cases hacts with
    | inserted hopen =>
      rw [hc] at hopen
      cases hopen
    | _ => exact hnext

/-- The pump closes the result of a redial on a closed endpoint. -/
theorem PumpStep.redialed {s s' : Sys} {conn : RelayConn} (h : PumpStep s s')
    (hpc : s.pump.pc = .redialed conn) (hc : s.st.closed = true) : conn ∈ s'.st.closedRelays := by
  cases h with
  | redialTaken _ hopen =>
    rw [hc] at hopen
    cases hopen
  | redialDropped h =>
    cases h.symm.trans hpc
    exact List.mem_cons_self
  | _ => simp_all [PumpPc.inSelect]

/-! ## Closing down -/

/-- On a closed endpoint, a step that opens no relay acquires nothing. -/
theorem Step.acquiresNothing {s s' : Sys} (hs : endpoint.Reachable s) (h : Step s s')
    (hc : s.st.closed = true) (ho : ¬s.Opens s') : s.AcquiresNothing s' := by
  have hr := relays_simulation.reachable hs
  have hw := wires_simulation.reachable hs
  have hrelays := RelayPool.Closing.leads hr (relays_simulation.step s s' hs hr h) hc
  have hwires := ChannelWires.Closing.leads hw (wires_simulation.step s s' hs hw h) hc
  have hwired := RelayPool.Wired.reachable (relays_simulation.reachable (hs.step h))
  have hobtained := h.relayConns
  refine ⟨fun handle e' he => ?_, hwires.channels, fun key conn hk => ?_, fun n hle hlt => ?_,
    fun conn hpc => ⟨by rw [hpc]; rfl, fun s'' hst => hst.redialed hpc hrelays.closed⟩,
    hwires.opened⟩
  · -- No stamp was issued, so the entry was there before.
    have hlt : e'.epoch < s.st.nextConnEpoch :=
      h.insertions_closed hc ▸ (ledger_inv (hs.step h)).entry_lt he
    obtain ⟨e, hl, hev⟩ := (ledger_advances hs (.single h)).entry handle e' he hlt
    exact ⟨e, hl, hev.epoch, hev.id⟩
  · rcases hrelays.pool key conn hk with hk' | hle
    · exact hk'
    · -- A connection that was opened by a redial is not in the pool yet.
      have hlt : conn.id < s'.relayConns := hwired.opened key conn hk
      rcases hobtained with hsame | ⟨hnext, hpc⟩ | hopens
      · exact absurd (hlt.trans_eq hsame) (Nat.not_lt.2 hle)
      · have hid : conn.id = s.relayConns :=
          Nat.le_antisymm (Nat.lt_succ_iff.1 (hlt.trans_eq hnext)) hle
        have hstage : s'.relays.stage = .dialed conn := by
          rw [Sys.relays, hpc, ← hid]
          rfl
        exact absurd hk ((hwired.fresh conn hstage).2.2.1 key)
      · exact absurd hopens ho
  · rcases hobtained with hsame | ⟨hnext, hpc⟩ | hopens
    · exact absurd (hlt.trans_eq hsame) (Nat.not_lt.2 hle)
    · cases Nat.le_antisymm (Nat.lt_succ_iff.1 (hlt.trans_eq hnext)) hle
      exact .inr hpc
    · exact absurd hopens ho

/-- A step that opens a relay acquires it. -/
theorem Sys.Opens.not_acquiresNothing {s s' : Sys} (hs : endpoint.Reachable s) (h : Step s s')
    (ho : s.Opens s') : ¬s.AcquiresNothing s' := by
  intro hn
  have hi := RelayPool.Inv.reachable (relays_simulation.reachable hs)
  exact absurd (hi.issued _ _ (hn.pool _ _ (ho.pool h))) (Nat.lt_irrefl _)

/-- A closed endpoint acquires nothing, unless a call opens a relay, and its teardown
    leaves nothing open. -/
structure ShutsDown (s : Sys) : Prop where
  step : s.st.closed = true → ∀ s', Step s s' → (s.AcquiresNothing s' ↔ ¬s.Opens s')
  relays : s.pump.pc = .done → ∀ key conn, s.st.relayPool.lookup key = some conn →
    conn ∈ s.st.closedRelays
  channels : s.pump.pc = .done → ∀ id entry, s.st.channels.lookup id = some entry →
    entry.wire ∈ s.st.closedWires

/-- The pump closes the relays out of its loop. -/
theorem PumpPc.left_of_torn {pc : PumpPc} (h : pc.stage.running = false) : pc.left = true := by
  cases pc <;> first | rfl | cases h

/-- Once the pump has closed the relays, those in the pool are closed, if no relay is
    opened on a closed endpoint. -/
theorem torn_closed {s : Sys} (hs : (endpoint.restrict Sys.Timely).Reachable s)
    (htorn : s.pump.pc.stage.running = false) {key : RelayKey} {conn : RelayConn}
    (hk : s.st.relayPool.lookup key = some conn) : conn ∈ s.st.closedRelays := by
  revert key conn
  revert htorn
  refine hs.invariant (P := fun s => s.pump.pc.stage.running = false → ∀ {key conn},
    s.st.relayPool.lookup key = some conn → conn ∈ s.st.closedRelays) ?_ ?_
  · rintro _ ⟨config, webrtc, now, st, key, hreg, rfl⟩ htorn
    cases htorn
  · intro s s' hr hst hi htorn key conn hk
    have hr := hr.of_restrict
    obtain ⟨hst, hok⟩ := hst
    -- The pump was out of its loop, hence the endpoint closed.
    have hc : s.st.closed = true := hst.closed_of_left hr (PumpPc.left_of_torn htorn)
    have hclosing := RelayPool.Closing.leads (relays_simulation.reachable hr)
      (relays_simulation.step s s' hr (relays_simulation.reachable hr) hst) hc
    have hold := (hst.acquiresNothing hr hc (hok hc)).pool key conn hk
    by_cases hrun : s.pump.pc.stage.running = true
    · refine (hclosing.torn hrun htorn key conn hk).resolve_right ?_
      have hwired := RelayPool.Wired.reachable (relays_simulation.reachable hr)
      exact Nat.not_le.2 (hwired.opened key conn hold)
    · exact hclosing.shut conn (hi (by simpa using hrun) hold)

/-- In every run in which no dial of a relay resolves on a closed endpoint, a closed
    endpoint acquires nothing and its teardown leaves nothing open. -/
theorem shutsDown_reachable {s : Sys} (hs : (endpoint.restrict Sys.Timely).Reachable s) :
    ShutsDown s := by
  have hr := hs.of_restrict
  refine ⟨fun hc s' hst => ⟨fun hn ho => ho.not_acquiresNothing hr hst hn,
    hst.acquiresNothing hr hc⟩, fun hpc key conn hk => ?_, fun hpc id entry he => ?_⟩
  · exact torn_closed hs (by rw [hpc]; rfl) hk
  · have hexit : s.wires.exit = .ended := by rw [Sys.wires, hpc]; rfl
    exact (ChannelWires.Inv.reachable (wires_simulation.reachable hr)).torn (.inr hexit) id entry he

/-- A run is free until the endpoint is closed. -/
theorem timely_open {s : Sys} (hs : endpoint.Reachable s) (hopen : s.st.closed = false) :
    (endpoint.restrict Sys.Timely).Reachable s := by
  induction hs with
  | init h => exact .init h
  | @step s s' hr hst ih =>
    have hopen' : s.st.closed = false := by
      refine Bool.eq_false_iff.2 fun hc => ?_
      have hrelays := relays_simulation.reachable hr
      have hclosing := RelayPool.Closing.leads hrelays
        (relays_simulation.step s s' hr hrelays hst) hc
      cases hopen.symm.trans hclosing.closed
    refine .step (ih hopen') ⟨hst, fun hc => ?_⟩
    cases hopen'.symm.trans hc

/-- The pump dials no relay for a call. -/
theorem PumpStep.timely {s s' : Sys} (h : PumpStep s s') :
    (endpoint.restrict Sys.Timely).step s s' :=
  ⟨.pump h, fun _ ⟨_, _, _, _, hr⟩ => Sys.not_returns (.inl h.handles.1) hr⟩

/-- A call that dials a foreign relay. -/
def ConnectTask.abroad : ConnectTask :=
  ⟨⟨List.replicate 32 7, [.relay "https://other.example"]⟩, Vector.replicate 32 7,
    ⟨none, some "https://other.example", none⟩, .opening .dial, rfl⟩

/-- The endpoint was closed during that call, and its pump has ended. -/
def Sys.ended : Sys :=
  let s := Sys.idle (.relayOnly "https://home.example") false 0
  { s with
    st := { s.st with
      relayOpening := [normalizeRelayUrl "https://other.example"]
      closed := true
      closedAt := some 0
      pumpWaker := false
      closedRelays := [⟨0⟩] }
    pump := { s.pump with pc := .done, relayRecvs := [] }
    connects := AList.insert 0 .abroad ∅ }

/-- The endpoint can be closed during a call. -/
theorem ended_reachable : (endpoint.restrict Sys.Timely).Reachable Sys.ended := by
  have hidle := idle_reachable (.relayOnly "https://home.example") false 0
  have hcall := hidle.step (.connect (@ConnectStep.call _ 0
    ⟨List.replicate 32 7, [.relay "https://other.example"]⟩ (Vector.replicate 32 7) rfl rfl rfl))
  have hclaimed := hcall.step (.connect (@ConnectStep.claimed _ 0 _ .dial
    "https://other.example" _ rfl rfl rfl rfl rfl))
  have hclosed := (timely_open hclaimed rfl).step ⟨@Step.closeEndpoint _ [] rfl, nofun⟩
  have hkicked := hclosed.step (PumpStep.kicked rfl rfl rfl).timely
  have hdrain := hkicked.step
    (@PumpStep.drain _ (fun _ => ⟨[], false⟩) _ _ rfl rfl).timely
  have hflush := ((hdrain.step (PumpStep.relayEmpty rfl rfl).timely).step
    (PumpStep.udpEmpty rfl rfl).timely).step (PumpStep.channelEmpty rfl rfl).timely
  have hleave := (hflush.step (PumpStep.arm rfl).timely).step (PumpStep.leave rfl rfl).timely
  exact ((hleave.step (PumpStep.closeRelays rfl).timely).step
    (PumpStep.closeWires rfl rfl).timely).step (PumpStep.settled rfl rfl).timely

/-- The teardown has closed the home relay, while a call still dials another one. -/
theorem shutsDown_ended : Sys.ended.pump.pc = .done ∧
    Sys.ended.st.relayPool.lookup homeRelay = some ⟨0⟩ ∧ ShutsDown Sys.ended :=
  ⟨rfl, rfl, shutsDown_reachable ended_reachable⟩

/-- The dial resolves on the closed endpoint: its connection joins the pool, and stays
    open after the teardown. -/
theorem not_shutsDown_opened : ∃ s s' : Sys, endpoint.Reachable s ∧ s.st.closed = true ∧
    Step s s' ∧ ¬s.AcquiresNothing s' ∧ ¬ShutsDown s' := by
  refine ⟨_, _, ended_reachable.of_restrict, rfl, .connect (@ConnectStep.opened _ 0 .abroad .dial
    "https://other.example" _ 1 rfl rfl rfl rfl rfl), fun h => ?_, fun h => ?_⟩
  · cases h.pool 1 ⟨1⟩ rfl
  · have hclosed : (⟨1⟩ : RelayConn) ∈ [⟨0⟩] := h.relays rfl 1 ⟨1⟩ rfl
    simp at hclosed

end IrohEndpoint
