import Mathlib.Logic.Basic
import IrohEndpoint.Calls

/-!
# The home relay

The home relay's slot in the pool is emptied by a failure of its connection (of
a send, of a receive, or by a liveness verdict), which arms a redial, and is
filled again by a redial that succeeds. `HomeSlot` is that part of the endpoint
and `HomeSlot.machine` says what may happen to it.

Its invariant (`HomeSlot.Inv`) is that the slot, the redial in flight and the
result of a redial exclude each other, and that one of them is there until the
endpoint is closed. The URL of the home relay keeps its pool key, because a
relay is only opened under a URL that has none.
-/

namespace IrohEndpoint

open Transition

/-! ## The machine -/

/-- The connection that a redial resolved with, while the pump handles it. -/
def PumpPc.dialed : PumpPc → Option RelayConn
  | redialed conn => some conn
  | _ => none

/-- The home relay's slot and what fills it. -/
structure HomeSlot where
  /-- The connection in the pool. -/
  slot : Option RelayConn
  /-- The pool key of the home URL. -/
  key : Option RelayKey
  /-- Some `connect` call is opening the home URL. -/
  opening : Prop
  nextKey : RelayKey
  /-- A redial is in flight. -/
  redial : Bool
  /-- The connection that a redial resolved with. -/
  dialed : Option RelayConn
  closed : Bool
  /-- The connections that were opened for the home relay, and those that were
      closed. -/
  conns : List RelayConn
  closedConns : List RelayConn

/-- Some call is opening a relay under the URL of the home relay. -/
def OpensHome (homeUrl : String) (connects : Table TaskId ConnectTask) : Prop :=
  ∃ tid task target url, connects.lookup tid = some task ∧ task.phase = .opening target ∧
    target.url task.plan = some url ∧ normalizeRelayUrl url = normalizeRelayUrl homeUrl

/-- The home relay of the endpoint. -/
def Sys.homeSlot (s : Sys) : HomeSlot where
  slot := s.st.relayPool.lookup homeRelay
  key := s.st.relayKeys.lookup (normalizeRelayUrl s.config.homeUrl)
  opening := OpensHome s.config.homeUrl s.connects
  nextKey := s.st.nextRelayKey
  redial := s.pump.redial.isSome
  dialed := s.pump.pc.dialed
  closed := s.st.closed
  conns := s.homeConns
  closedConns := s.st.closedRelays

namespace HomeSlot

/-- What may happen to the home relay. -/
inductive Step : HomeSlot → HomeSlot → Prop
  /-- Calls end or go on. -/
  | settle {h : HomeSlot} {p : Prop} : (p → h.opening) → Step h { h with opening := p }
  /-- A foreign relay is registered. -/
  | register {h : HomeSlot} : Step h { h with nextKey := h.nextKey + 1 }
  /-- Connections are closed. -/
  | shut {h : HomeSlot} {conns : List RelayConn} :
      Step h { h with closedConns := conns ++ h.closedConns }
  /-- The connection in the slot fails: it is closed, and a redial is armed. -/
  | retire {h : HomeSlot} {conn : RelayConn} :
      h.slot = some conn →
      Step h { h with slot := none, redial := true, closedConns := conn :: h.closedConns }
  /-- A redial fails after the endpoint was closed. -/
  | giveUp {h : HomeSlot} : h.closed = true → Step h { h with redial := false }
  /-- A redial resolves with a connection. -/
  | dial {h : HomeSlot} {conn : RelayConn} :
      h.redial = true →
      Step h { h with redial := false, dialed := some conn, conns := h.conns ++ [conn] }
  /-- The connection takes the slot. -/
  | take {h : HomeSlot} {conn : RelayConn} :
      h.dialed = some conn → Step h { h with slot := some conn, dialed := none }
  /-- The endpoint was closed: the connection is closed too. -/
  | drop {h : HomeSlot} {conn : RelayConn} :
      h.dialed = some conn → h.closed = true →
      Step h { h with dialed := none, closedConns := conn :: h.closedConns }
  | close {h : HomeSlot} : Step h { h with closed := true }

/-- The machine starts with a connection in the slot. -/
def machine : System HomeSlot where
  init := {h | ∃ conn, h = ⟨some conn, some homeRelay, False, 1, false, none, false, [conn], []⟩}
  step := Step

/-- The invariant of the home relay. -/
structure Inv (h : HomeSlot) : Prop where
  key : h.key = some homeRelay
  opening : ¬h.opening
  foreign : h.nextKey ≠ homeRelay
  /-- The slot, the redial and its result exclude each other, -/
  filled : ∀ conn, h.slot = some conn → h.redial = false ∧ h.dialed = none
  armed : h.redial = true → h.dialed = none
  /-- and one of them is there until the endpoint is closed. -/
  present : h.closed = false → h.slot = none → h.redial = false → h.dialed ≠ none
  /-- A connection that is not closed is in the slot or the result of a redial. -/
  accounted : ∀ conn ∈ h.conns, conn ∉ h.closedConns → h.slot = some conn ∨ h.dialed = some conn

/-- Every step keeps the invariant. -/
theorem Inv.step {h h' : HomeSlot} (hi : h.Inv) (hst : Step h h') : h'.Inv := by
  cases hst with
  | settle hp => exact { hi with opening := hi.opening ∘ hp }
  | register => exact { hi with foreign := Nat.succ_ne_zero _ }
  | shut =>
    exact { hi with accounted := fun c hc hn => hi.accounted c hc fun h => hn (by simp [h]) }
  | @retire conn hslot =>
    obtain ⟨-, hdialed⟩ := hi.filled conn hslot
    refine { hi with filled := nofun, armed := fun _ => hdialed, present := nofun, accounted := ?_ }
    intro c hc hn
    rw [List.mem_cons, not_or] at hn
    rcases hi.accounted c hc hn.2 with h | h
    · exact absurd (Option.some.inj (h.symm.trans hslot)) hn.1
    · exact .inr h
  | giveUp hclosed =>
    refine { hi with filled := ?_, armed := nofun, present := ?_ }
    · exact fun c hc => ⟨rfl, (hi.filled c hc).2⟩
    · intro hopen
      rw [hclosed] at hopen
      cases hopen
  | @dial conn hredial =>
    -- While a redial is armed, the slot is empty and no result is at hand.
    have hempty : h.slot = none := by
      rw [Option.eq_none_iff_forall_ne_some]
      intro c hc
      rw [(hi.filled c hc).1] at hredial
      cases hredial
    refine { hi with filled := ?_, armed := nofun, present := fun _ _ _ => nofun, accounted := ?_ }
    · intro c hc
      rw [hempty] at hc
      cases hc
    · intro c hc hn
      rcases List.mem_append.1 hc with hc | hc
      · rcases hi.accounted c hc hn with h | h
        · exact .inl h
        · rw [hi.armed hredial] at h
          cases h
      · exact .inr (congrArg some (List.mem_singleton.1 hc).symm)
  | @take conn hdialed =>
    -- While a result is at hand, no redial is armed and the slot is empty.
    have hidle : h.redial = false := by
      rw [← Bool.not_eq_true]
      intro hredial
      rw [hi.armed hredial] at hdialed
      cases hdialed
    refine { hi with
      filled := fun _ _ => ⟨hidle, rfl⟩, armed := fun _ => rfl, present := nofun, accounted := ?_ }
    intro c hc hn
    rcases hi.accounted c hc hn with h | h
    · rw [(hi.filled c h).2] at hdialed
      cases hdialed
    · exact .inl (hdialed.symm.trans h)
  | @drop conn hdialed hclosed =>
    refine { hi with filled := ?_, armed := fun _ => rfl, present := ?_, accounted := ?_ }
    · exact fun c hc => ⟨(hi.filled c hc).1, rfl⟩
    · intro hopen
      rw [hclosed] at hopen
      cases hopen
    · intro c hc hn
      rw [List.mem_cons, not_or] at hn
      rcases hi.accounted c hc hn.2 with h | h
      · exact .inl h
      · exact absurd (Option.some.inj (h.symm.trans hdialed)) hn.1
  | close => exact { hi with present := nofun }

/-- The invariant holds in every reachable state of the machine. -/
theorem Inv.reachable {h : HomeSlot} (hr : machine.Reachable h) : h.Inv := by
  refine hr.invariant ?_ fun _ _ _ hst hi => hi.step hst
  rintro _ ⟨conn, rfl⟩
  refine ⟨rfl, id, nofun, fun _ _ => ⟨rfl, rfl⟩, nofun, nofun, fun c hc _ => ?_⟩
  exact .inl (congrArg some (List.mem_singleton.1 hc).symm)

end HomeSlot

/-! ## The endpoint refines the machine -/

open State HomeSlot

/-- In its select, the pump has no redial result at hand. -/
theorem PumpPc.dialed_of_inSelect {pc : PumpPc} (h : pc.inSelect = true) : pc.dialed = none := by
  cases pc <;> first | rfl | cases h

namespace Sys

/-- The pump moves on, without a redial result at hand. -/
theorem goto_homeSlot {s : Sys} {pc : PumpPc} (h : pc.dialed = s.pump.pc.dialed) :
    (s.goto pc).homeSlot = s.homeSlot := by
  rw [goto, homeSlot, h]
  rfl

/-- A failure of a home connection that the pool holds retires it and arms the
    redial; a failure of another one is stale. -/
theorem failHome_cases (s : Sys) (conn : RelayConn) (random : Option (UInt8 × UInt8)) :
    (s.st.relayPool.lookup homeRelay ≠ some conn ∧ s.failHome conn random = s) ∨
      (s.st.relayPool.lookup homeRelay = some conn ∧ s.failHome conn random =
        armRedial { s with
          st := closeRelay { s.st with relayPool := s.st.relayPool.erase homeRelay } conn }
          random) := by
  rw [failHome, retireHome, isPoolCurrent]
  by_cases hc : s.st.relayPool.lookup homeRelay = some conn
  · rw [if_pos (beq_iff_eq.2 hc)]
    exact .inr ⟨hc, rfl⟩
  · rw [if_neg (mt beq_iff_eq.1 hc)]
    exact .inl ⟨hc, rfl⟩

/-- A failure of a home connection. -/
theorem failHome_leads (s : Sys) (conn : RelayConn) (random : Option (UInt8 × UInt8)) :
    machine.Leads s.homeSlot (s.failHome conn random).homeSlot := by
  rcases s.failHome_cases conn random with ⟨-, h⟩ | ⟨hc, h⟩ <;> rw [h]
  · exact .refl
  · refine .single_of_eq (.retire hc) ?_
    simp only [homeSlot, armRedial, closeRelay, AList.lookup_erase, Option.isSome_some]

/-- A failure of a foreign relay leaves the home relay alone. -/
theorem failRelay_leads {s : Sys} (hi : s.homeSlot.Inv) {key : RelayKey} (hk : key ≠ homeRelay) :
    machine.Leads s.homeSlot (homeSlot { s with st := s.st.failRelay key }) := by
  -- Neither the slot nor the pool key of the home URL is touched.
  have hslot : (s.st.relayPool.erase key).lookup homeRelay = s.st.relayPool.lookup homeRelay :=
    AList.lookup_erase_ne hk.symm
  have hkey : (Table.retain (fun _ mapped => mapped != key) s.st.relayKeys).lookup
      (normalizeRelayUrl s.config.homeUrl) = s.homeSlot.key := by
    rw [hi.key, Table.lookup_retain]
    exact ⟨hi.key, by simpa using hk.symm⟩
  rw [failRelay, retireRelay]
  cases s.st.relayPool.lookup key with
  | none =>
    refine .of_eq ?_
    simp only [homeSlot, hslot, hkey]
  | some conn =>
    refine .single_of_eq (@HomeSlot.Step.shut _ [conn]) ?_
    simp only [homeSlot, closeRelay, hslot, hkey, List.cons_append, List.nil_append]

/-- A failing receive. -/
theorem failReceive_leads {s : Sys} (hi : s.homeSlot.Inv) (key : RelayKey) (conn : RelayConn)
    (random : Option (UInt8 × UInt8)) :
    machine.Leads s.homeSlot (s.failReceive key conn random).homeSlot := by
  rw [failReceive]
  split
  · exact .refl
  · split <;> rename_i hk
    · exact s.failHome_leads conn random
    · exact failRelay_leads hi hk

/-- The liveness verdict on one relay. -/
theorem sweepOne_leads {s : Sys} (hi : s.homeSlot.Inv) (verdict : RelayConn → ProbeStep)
    (random : Option (UInt8 × UInt8)) (entry : Sigma fun _ : RelayKey => RelayConn) :
    machine.Leads s.homeSlot (sweepOne verdict random s entry).homeSlot := by
  rw [sweepOne]
  split
  · split <;> rename_i hk
    · exact s.failHome_leads entry.2 random
    · exact failRelay_leads hi hk
  · exact .refl
  · exact .refl

/-- The liveness sweep. -/
theorem sweep_leads {s : Sys} (hr : machine.Reachable s.homeSlot)
    (verdict : RelayConn → ProbeStep) (random : Option (UInt8 × UInt8)) :
    machine.Leads s.homeSlot (s.sweep verdict random).homeSlot := by
  rw [sweep]
  generalize s.st.relayPool.entries = l
  induction l generalizing s with
  | nil => exact .refl
  | cons entry l ih =>
    have hone := sweepOne_leads (Inv.reachable hr) verdict random entry
    exact hone.trans (ih (hr.leads hone))

end Sys

/-- A step of the pump is a run of the machine. -/
theorem PumpStep.homeSlot {s s' : Sys} (hr : machine.Reachable s.homeSlot) (h : PumpStep s s') :
    machine.Leads s.homeSlot s'.homeSlot := by
  have hi := Inv.reachable hr
  have hselect := @PumpPc.dialed_of_inSelect s.pump.pc
  cases h with
  | drain hpc hd =>
    refine .of_eq ?_
    rw [(drain_polls hd).woken]
    simp only [Sys.homeSlot, hpc, PumpPc.dialed]
  | relayEmpty hpc | relaySend hpc | relaySent hpc | udpEmpty hpc | udpSent hpc
  | channelEmpty hpc | channelSent hpc | leave hpc | stay hpc | suspend hpc | settled hpc =>
    rw [Sys.goto_homeSlot (by rw [hpc]; rfl)]
    exact .refl
  | relayLost => exact .refl
  | udpSend hpc | channelSend hpc =>
    rw [Sys.goto_homeSlot (by rw [hpc]; split <;> rfl)]
    exact .refl
  | relaySendFailed hpc =>
    split
    · rw [Sys.goto_homeSlot]
      · exact s.failHome_leads _ _
      · rw [s.failHome_fails, hpc]
        rfl
    · rw [Sys.goto_homeSlot (by rw [hpc]; rfl)]
      exact .refl
  | arm hpc =>
    rw [Sys.foldl_spawnUpgrade_frame]
    refine .of_eq ?_
    simp only [Sys.homeSlot, hpc, PumpPc.dialed]
  | relaySignal hsel =>
    rw [Sys.handleSignal_frame, Sys.goto_homeSlot (by exact (hselect hsel).symm)]
    exact .refl
  | relayDatagram hsel _ _ _ hd =>
    rw [Sys.goto_homeSlot (by exact (hselect hsel).symm), handleRelayDatagram_frame hd]
    exact .refl
  | @relayFailed key conn random hsel =>
    rw [Sys.goto_homeSlot]
    · have hi' : Inv (Sys.homeSlot { s with
          pump := { s.pump with relayRecvs := s.pump.relayRecvs.erase (key, conn) } }) := hi
      exact Sys.failReceive_leads hi' key conn random
    · rw [Sys.failReceive_fails]
      exact (hselect hsel).symm
  | udpReceived hsel _ _ hd =>
    rw [Sys.goto_homeSlot (by exact (hselect hsel).symm), handleDatagram_frame hd]
    exact .refl
  | udpFailed hsel | channelText hsel | kicked hsel =>
    rw [Sys.goto_homeSlot (by exact (hselect hsel).symm)]
    exact .refl
  | channelDatagram hsel _ _ hd =>
    rw [Sys.goto_homeSlot (by exact (hselect hsel).symm)]
    rw [handleChannelDatagram_frame hd]
    exact .refl
  | channelFailed hsel =>
    rw [Sys.goto_homeSlot (by exact (hselect hsel).symm), retireChannel_frame]
    exact .refl
  | redialOpened hsel _ hredial =>
    refine .single_of_eq (@HomeSlot.Step.dial _ ⟨s.relayConns⟩ ?_) rfl
    rw [Sys.homeSlot, hredial]
    rfl
  | @redialTaken conn hpc hopen =>
    refine .single_of_eq (@HomeSlot.Step.take _ conn ?_) ?_
    · rw [Sys.homeSlot, hpc]
      rfl
    · simp only [Sys.homeSlot, wakeWaiters, AList.lookup_insert]
      rfl
  | @redialDropped conn hpc hclosed =>
    refine .single_of_eq (@HomeSlot.Step.drop _ conn ?_ hclosed) rfl
    rw [Sys.homeSlot, hpc]
    rfl
  | @redialFailed redial random hsel _ hredial =>
    rw [Sys.failRedial]
    split <;> rename_i hc
    · refine .single_of_eq (.giveUp hc) ?_
      rw [Sys.goto_homeSlot (by exact (hselect hsel).symm)]
      rfl
    · refine .of_eq ?_
      rw [Sys.goto_homeSlot (by exact (hselect hsel).symm)]
      simp only [Sys.homeSlot, Sys.armRedial, hredial, Option.isSome_some]
  | @tick verdict random hsel =>
    rw [Sys.goto_homeSlot]
    · have hr' : machine.Reachable (Sys.homeSlot { s with
          pump := { s.pump with forceWake := true } }) := hr
      exact Sys.sweep_leads hr' verdict random
    · rw [Sys.sweep_fails]
      exact (hselect hsel).symm
  | closeRelays hpc =>
    rw [foldl_closeRelay, Sys.goto_homeSlot (by rw [hpc]; rfl)]
    exact .single .shut
  | closeWires hpc =>
    rw [foldl_closeWire, Sys.goto_homeSlot (by rw [hpc]; rfl)]
    exact .refl

section Calls

variable {homeUrl : String} {connects : Table TaskId ConnectTask} {tid : TaskId}

/-- A call that ended was not opening the home URL, or it was before. -/
theorem OpensHome.of_erase (h : OpensHome homeUrl (connects.erase tid)) :
    OpensHome homeUrl connects := by
  obtain ⟨tid', task, target, url, hc, h⟩ := h
  exact ⟨tid', task, target, url, (Table.lookup_erase_some.1 hc).2, h⟩

/-- A call that went on is not opening the home URL, if what it opens is not. -/
theorem OpensHome.of_insert {task : ConnectTask}
    (hne : ∀ target url, task.phase = .opening target → target.url task.plan = some url →
      normalizeRelayUrl url ≠ normalizeRelayUrl homeUrl)
    (h : OpensHome homeUrl (connects.insert tid task)) : OpensHome homeUrl connects := by
  obtain ⟨tid', task', target, url, hc, hphase, hurl, heq⟩ := h
  rcases Table.lookup_insert_some.1 hc with ⟨-, rfl⟩ | ⟨-, hc⟩
  · exact absurd heq (hne target url hphase hurl)
  · exact ⟨tid', task', target, url, hc, hphase, hurl, heq⟩

/-- A call in another phase opens nothing. -/
theorem OpensHome.of_phase {task : ConnectTask} (hne : ∀ target, task.phase ≠ .opening target)
    (h : OpensHome homeUrl (connects.insert tid task)) : OpensHome homeUrl connects :=
  h.of_insert fun target _ hp => absurd hp (hne target)

end Calls

/-- The phase after a pool key was resolved is no opening. -/
theorem Target.next_ne_opening (target target' : Target) (key : RelayKey) :
    target.next key ≠ .opening target' := by
  cases target <;> nofun

/-- The phase without a pool key to resolve is no opening. -/
theorem Target.skip_ne_opening (target target' : Target) : target.skip ≠ .opening target' := by
  cases target <;> nofun

/-- A step of a `connect` call is a run of the machine. -/
theorem ConnectStep.homeSlot {s s' : Sys} (hi : s.homeSlot.Inv) (h : ConnectStep s s') :
    machine.Leads s.homeSlot s'.homeSlot := by
  cases h with
  | refused => exact .refl
  | call => exact .single (.settle (.of_phase (by simp)))
  | skip => exact .single (.settle (.of_phase (Target.skip_ne_opening _)))
  | found _ _ _ _ he =>
    rw [ensureRelay_frame he]
    exact .single (.settle (.of_phase fun _ => Target.next_ne_opening _ _ _))
  | closed _ _ _ _ he =>
    rw [ensureRelay_frame he]
    exact .single (.settle (.of_phase (by simp)))
  | @claimed tid task target url st _ _ _ hurl he =>
    rw [ensureRelay_frame he]
    refine .single (.settle (.of_insert fun target' url' hp hurl' heq => ?_))
    -- The home URL has a pool key, and a URL with a pool key is not opened.
    cases hp
    obtain rfl : url = url' := Option.some.inj (hurl.symm.trans hurl')
    have hkey : s.st.relayKeys.lookup (normalizeRelayUrl url) = some homeRelay := heq ▸ hi.key
    rw [State.ensureRelay] at he
    simp only [hkey] at he
    cases he
  | shared _ _ _ _ he =>
    rw [ensureRelay_frame he]
    exact .single (.settle (.of_phase (by simp)))
  | @opened tid task target url st key _ hc hphase hurl hreg =>
    -- The URL that was opened is not the home URL, so its key is a new one.
    have hne : normalizeRelayUrl s.config.homeUrl ≠ normalizeRelayUrl url :=
      fun heq => hi.opening ⟨tid, task, target, url, hc, hphase, hurl, heq.symm⟩
    obtain ⟨-, rfl, rfl⟩ := registerRelay_eq hreg
    have hslot : (s.st.relayPool.insert s.st.nextRelayKey ⟨s.relayConns⟩).lookup homeRelay =
        s.st.relayPool.lookup homeRelay := AList.lookup_insert_ne hi.foreign.symm
    have hkey : (s.st.relayKeys.insert (normalizeRelayUrl url) s.st.nextRelayKey).lookup
        (normalizeRelayUrl s.config.homeUrl) =
          s.st.relayKeys.lookup (normalizeRelayUrl s.config.homeUrl) := AList.lookup_insert_ne hne
    have hsettle : OpensHome s.config.homeUrl (s.connects.insert tid
        { task with phase := target.next s.st.nextRelayKey }) → OpensHome s.config.homeUrl s.connects :=
      .of_phase fun _ => Target.next_ne_opening _ _ _
    refine .head .register (System.Leads.single_of_eq (.settle hsettle) ?_)
    simp only [Sys.homeSlot, Sys.proceed, kickPump, releaseClaim, wakeWaiters, hslot, hkey]
  | openFailed | wokenFailed | tlsFailed | dialClosed | connected =>
    exact .single (.settle (.of_phase (by simp)))
  | woken => exact .single (.settle (.of_phase fun _ => Target.next_ne_opening _ _ _))
  | dialFailed _ _ _ _ ha =>
    rw [dialAddr_frame ha]
    exact .single (.settle (.of_phase (by simp)))
  | dialed _ _ _ _ ha hd =>
    obtain ⟨s₁, _, h₁, rfl⟩ := dialed_eq hd
    obtain ⟨-, -, -, rfl⟩ := insertConn_eq h₁
    rw [dialAddr_frame ha]
    exact .single (.settle (.of_phase (by simp)))
  | failed =>
    rcases s.st.closeConnection_cases _ _ _ _ with ⟨h, -⟩ | ⟨_, -, -, -, h⟩ <;>
      rw [dropDialGuard, h] <;> exact .single (.settle (.of_phase (by simp)))
  | cancelOpening | cancelWaiting => exact .single (.settle .of_erase)
  | cancelParked =>
    rcases s.st.closeConnection_cases _ _ _ _ with ⟨h, -⟩ | ⟨_, -, -, -, h⟩ <;>
      rw [dropDialGuard, h] <;> exact .single (.settle .of_erase)

/-- A step of a signaling session leaves the home relay alone. -/
theorem SessionStep.homeSlot {s s' : Sys} (h : SessionStep s s') : s'.homeSlot = s.homeSlot := by
  cases h with
  | begin _ _ _ hb =>
    obtain ⟨-, rfl⟩ := beginSignaling_eq hb
    rfl
  | receive =>
    rw [nextSignalCheck_frame]
    rfl
  | upgraded _ _ _ _ hr =>
    rw [registerChannel_frame hr]
    rfl
  | answered _ _ _ _ hr =>
    rw [registerChannel_frame hr]
    rfl
  | _ => rfl

/-- A step of the endpoint is a run of the machine. -/
theorem Step.homeSlot {s s' : Sys} (hr : machine.Reachable s.homeSlot) (h : Step s s') :
    machine.Leads s.homeSlot s'.homeSlot := by
  rcases h.cases with h | h | h | h
  · exact h.homeSlot hr
  · exact h.homeSlot (Inv.reachable hr)
  · exact .of_eq h.homeSlot
  · rw [h.frame]
    rcases h.closes with hc | hc <;> rw [hc]
    · exact .refl
    · exact .single .close

/-- The home relay of the endpoint follows the machine. -/
theorem homeSlot_simulation : Simulation endpoint machine Sys.homeSlot where
  init := by
    rintro _ ⟨config, webrtc, now, st, key, hreg, rfl⟩
    obtain ⟨-, -, rfl⟩ := registerRelay_eq hreg
    refine ⟨⟨0⟩, ?_⟩
    have hopening : OpensHome config.homeUrl ∅ = False :=
      eq_false fun ⟨_, _, _, _, h, _⟩ => nomatch h
    simp only [Sys.homeSlot, Sys.bound, kickPump, State.new, AList.lookup_insert, hopening]
    rfl
  step := fun _ _ _ hr hst => Step.homeSlot hr hst

/-! ## The home relay is never lost -/

/-- A failing foreign relay leaves the home relay in the pool. -/
theorem State.failRelay_pool {s : State} {key : RelayKey} (hk : key ≠ homeRelay) :
    (s.failRelay key).relayPool.lookup homeRelay = s.relayPool.lookup homeRelay := by
  have hslot : (s.relayPool.erase key).lookup homeRelay = s.relayPool.lookup homeRelay :=
    AList.lookup_erase_ne hk.symm
  rw [failRelay, retireRelay]
  cases s.relayPool.lookup key <;> exact hslot

/-- A liveness sweep leaves a home connection in the pool that is not found dead. -/
theorem Sys.sweep_pool {s : Sys} {cur : RelayConn} {verdict : RelayConn → ProbeStep}
    (hcur : s.st.relayPool.lookup homeRelay = some cur) (hv : verdict cur ≠ .dead)
    (random : Option (UInt8 × UInt8)) :
    (s.sweep verdict random).st.relayPool.lookup homeRelay = some cur := by
  have hentries : ∀ e ∈ s.st.relayPool.entries, e.1 = homeRelay → e.2 = cur := by
    rintro ⟨key, conn⟩ he rfl
    exact Option.some.inj ((Table.mem_entries.1 he).symm.trans hcur)
  rw [sweep]
  generalize s.st.relayPool.entries = l at hentries
  induction l generalizing s with
  | nil => exact hcur
  | cons entry l ih =>
    have hone : (sweepOne verdict random s entry).st.relayPool.lookup homeRelay = some cur := by
      rw [sweepOne]
      split <;> rename_i hdead
      · split <;> rename_i hk
        · rw [hentries entry List.mem_cons_self hk] at hdead
          exact absurd hdead hv
        · exact (failRelay_pool hk).trans hcur
      · exact hcur
      · exact hcur
    exact ih hone fun e he => hentries e (List.mem_cons_of_mem _ he)

/-- The home relay is in the pool or being redialed, under its key, and has one
    connection. -/
structure HomeKept (s : Sys) : Prop where
  /-- Waiting in its select before the endpoint is closed, the pump has the home
      relay in the pool, or else a redial in flight. -/
  waiting : s.pump.pc.inSelect = true → s.st.closed = false →
    Xor ((s.st.relayPool.lookup homeRelay).isSome = true) (s.pump.redial.isSome = true)
  /-- The home URL has the home relay's pool key. -/
  mapped : s.st.relayKeys.lookup (normalizeRelayUrl s.config.homeUrl) = some homeRelay
  /-- A failure of a send or of a receive on a connection that was replaced changes
      nothing, and a liveness sweep only retires the connection it finds dead. -/
  stale : ∀ cur, s.st.relayPool.lookup homeRelay = some cur → ∀ conn, conn ≠ cur →
    ∀ random, s.failHome conn random = s ∧ s.failReceive homeRelay conn random = s
  spared : ∀ cur, s.st.relayPool.lookup homeRelay = some cur → ∀ verdict, verdict cur ≠ .dead →
    ∀ random, (s.sweep verdict random).st.relayPool.lookup homeRelay = some cur
  /-- A home connection that is not closed is in the pool or the result of a redial,
      and there is at most one. -/
  held : ∀ conn ∈ s.homeConns, conn ∉ s.st.closedRelays →
    s.st.relayPool.lookup homeRelay = some conn ∨ s.pump.pc = .redialed conn
  single : ∀ conn ∈ s.homeConns, ∀ conn' ∈ s.homeConns, conn ∉ s.st.closedRelays →
    conn' ∉ s.st.closedRelays → conn = conn'

/-- The pump handles the result of a redial. -/
theorem PumpPc.dialed_eq_some {pc : PumpPc} {conn : RelayConn} (h : pc.dialed = some conn) :
    pc = .redialed conn := by
  cases pc <;> cases h
  rfl

/-- The slot and the result of a redial are not both there. -/
theorem HomeSlot.Inv.single {h : HomeSlot} (hi : h.Inv) {conn conn' : RelayConn}
    (hc : h.slot = some conn ∨ h.dialed = some conn)
    (hc' : h.slot = some conn' ∨ h.dialed = some conn') : conn = conn' := by
  rcases hc with hc | hc <;> rcases hc' with hc' | hc'
  · exact Option.some.inj (hc.symm.trans hc')
  · rw [(hi.filled conn hc).2] at hc'
    cases hc'
  · rw [(hi.filled conn' hc').2] at hc
    cases hc
  · exact Option.some.inj (hc.symm.trans hc')

/-- In every reachable state, the home relay is kept. -/
theorem homeKept_reachable {s : Sys} (hs : endpoint.Reachable s) : HomeKept s := by
  have hi := HomeSlot.Inv.reachable (homeSlot_simulation.reachable hs)
  refine ⟨fun hsel hopen => ?_, hi.key, fun cur hcur conn hne random => ⟨?_, ?_⟩,
    fun cur hcur verdict hv random => Sys.sweep_pool hcur hv random, fun conn hc hn => ?_,
    fun conn hc conn' hc' hn hn' => hi.single (hi.accounted conn hc hn) (hi.accounted conn' hc' hn')⟩
  · have hdialed : s.homeSlot.dialed = none := PumpPc.dialed_of_inSelect hsel
    cases hslot : s.st.relayPool.lookup homeRelay with
    | some conn =>
      refine .inl ⟨rfl, ?_⟩
      rw [show s.pump.redial.isSome = false from (hi.filled conn hslot).1]
      exact Bool.false_ne_true
    | none =>
      refine .inr ⟨?_, Bool.false_ne_true⟩
      rw [← Bool.not_eq_false]
      exact fun hredial => hi.present hopen hslot hredial hdialed
  · rcases s.failHome_cases conn random with ⟨-, h⟩ | ⟨hc, -⟩
    · exact h
    · exact absurd (Option.some.inj (hc.symm.trans hcur)) hne
  · rw [Sys.failReceive, isPoolCurrent, hcur, if_pos]
    simpa using hne.symm
  · exact (hi.accounted conn hc hn).imp_right PumpPc.dialed_eq_some

/-- At rest, the home relay is in the pool. After a failed receive, it is being
    redialed. -/
theorem homeKept_outage : ∃ s s' : Sys,
    (s.st.relayPool.lookup homeRelay = some ⟨0⟩ ∧ HomeKept s) ∧
      s'.st.relayPool.lookup homeRelay = none ∧ s'.pump.redial.isSome = true ∧ HomeKept s' := by
  have hidle := idle_reachable (.relayOnly "https://home.example") false 0
  have hfailed := hidle.step (.pump (@PumpStep.relayFailed _ homeRelay ⟨0⟩ none rfl rfl
    List.mem_cons_self))
  exact ⟨_, _, ⟨rfl, homeKept_reachable hidle⟩, rfl, rfl, homeKept_reachable hfailed⟩

end IrohEndpoint
