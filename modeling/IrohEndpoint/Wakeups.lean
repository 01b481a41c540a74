import IrohEndpoint.Intake
import IrohEndpoint.Parked

/-!
# No wake is missed

A task that finds nothing parks in `wait_until`: its waker joins the waiters, which are only ever
woken together. The `connect` and `accept` calls, and those that wait for another call's relay,
are parked on different parts of the state; whoever changes these has to wake them.

`Sys.Stirred` says that a parked call would find a result. In the runs in which a task parks only
after its check has found nothing, as `wait_until` does, and noq reports the loss of a connection
no later than it drains it (`Sys.WaitsUntil`), no waiter is stirred (`attended_reachable`): every
step that gives a result to one wakes all of them. That the deadline of a call is over is the
exception, and is found out at the next tick, which wakes the waiters before the pump waits again.
-/

namespace IrohEndpoint

open Transition State

/-- The parked call `tid` would find a result, other than that its deadline is over. -/
inductive Sys.Stirred (s : Sys) (tid : TaskId) : Prop
  | connect {task : ConnectTask} {handle : ConnectionHandle} {epoch : ℕ} :
      s.connects.lookup tid = some task → task.phase = .parked handle epoch →
      (s.st.connectCheck handle epoch).isSome → Stirred s tid
  | relay {task : ConnectTask} {target : Target} {started : Instant} {url : String} :
      s.connects.lookup tid = some task → task.phase = .waiting target started →
      target.url task.plan = some url →
      (s.st.ensureRelayCheck (normalizeRelayUrl url) started started).isSome → Stirred s tid
  | accept : tid ∈ s.accepts → s.st.acceptCheck.2.isSome → Stirred s tid

/-- A step in which a task parks only if it has found nothing, and a poll reports what it
    drains. -/
structure Sys.WaitsUntil (s s' : Sys) : Prop where
  drain : s.Notices s'
  parks : ∀ tid, s'.st.waiters = tid :: s.st.waiters → ¬s'.Stirred tid

/-! ## What gives a result -/

namespace State

variable {s s' : State}

/-- `accept` finds something if the endpoint is closed, or a connection of its queue is there. -/
theorem acceptCheck_isSome_iff : s.acceptCheck.2.isSome ↔
    s.closed = true ∨ ∃ stamp ∈ s.acceptQueue, (s.entryFor stamp.1 stamp.2).isSome := by
  rw [acceptCheck]
  split <;> rename_i hp
  · obtain ⟨stale, hqueue, -, -⟩ := popCurrent_split hp
    obtain ⟨e, he⟩ := popCurrent_current hp
    refine iff_of_true rfl (.inr ⟨_, ?_, Option.isSome_iff_exists.2 ⟨e, he⟩⟩)
    simp [hqueue]
  · obtain ⟨stale, hqueue, hstale, hrest⟩ := popCurrent_split hp
    have hnone : ¬∃ stamp ∈ s.acceptQueue, (s.entryFor stamp.1 stamp.2).isSome := by
      rintro ⟨stamp, hmem, hsome⟩
      rw [hstale stamp (by simpa [hqueue, hrest rfl] using hmem)] at hsome
      cases hsome
    rw [or_iff_left hnone]
    cases s.closed <;> simp

/-- A call waits for a relay while its open goes on. -/
theorem ensureRelayCheck_isSome_iff {normalized : String} {started : Instant} :
    (s.ensureRelayCheck normalized started started).isSome ↔
      s.relayKeys.lookup normalized ≠ none ∨ normalized ∉ s.relayOpening ∨ s.closed = true := by
  rw [ensureRelayCheck]
  cases s.relayKeys.lookup normalized with
  | some key => simp
  | none =>
    by_cases ho : normalized ∈ s.relayOpening
    · cases hc : s.closed <;> simp [ho]
    · simp [ho]

/-- `connect` looks at the entry of its stamp. -/
theorem connectCheck_congr {handle : ConnectionHandle} {epoch : ℕ}
    (h : (s'.entryFor handle epoch).map (fun e => (e.error, e.connected)) =
      (s.entryFor handle epoch).map fun e => (e.error, e.connected)) :
    s'.connectCheck handle epoch = s.connectCheck handle epoch := by
  rw [connectCheck, connectCheck]
  cases he : s.entryFor handle epoch <;> cases he' : s'.entryFor handle epoch <;>
    rw [he, he'] at h <;> simp_all

/-- An entry is found by its slot. -/
theorem entryFor_of_lookup {handle : ConnectionHandle} {f : ConnEntry → ConnEntry}
    (h : s'.conns.lookup handle = (s.conns.lookup handle).map f)
    (hf : ∀ e, (f e).epoch = e.epoch) (epoch : ℕ) :
    s'.entryFor handle epoch = (s.entryFor handle epoch).map f := by
  rw [entryFor, entryFor, h]
  cases s.conns.lookup handle with
  | none => rfl
  | some e => by_cases he : e.epoch = epoch <;> simp [Option.filter, hf, he]

end State

section Steps

variable {s s' : Sys} {tid : TaskId} {handle : ConnectionHandle} {epoch : ℕ}

/-- What a step other than a poll does to the connections gives `connect` no result: a slot is
    only taken over when its connection has failed. -/
theorem State.Acts.connectCheck (h : s.st.Acts s'.st.desk) (hn : s.Noticed)
    (huses : s.Uses handle epoch) (hsome : (s'.st.connectCheck handle epoch).isSome) :
    (s.st.connectCheck handle epoch).isSome := by
  generalize hd : s'.st.desk = d at h
  have hconns : s'.st.conns = d.conns := congrArg Desk.conns hd
  cases h with
  | rest | skipped =>
    have hsame : s'.st.entryFor handle epoch = s.st.entryFor handle epoch := by
      rw [entryFor, entryFor, hconns]
      rfl
    rwa [connectCheck_congr (s := s.st) (by rw [hsame])] at hsome
  | @inserted new origin remote hopen hfree hbacklog =>
    by_cases hne : handle = new
    · subst hne
      refine connectCheck_isSome fun {e} he => hn.entryFor huses he ?_
      exact hfree e (entryFor_iff.1 he).1
    · have hsame : s'.st.entryFor handle epoch = s.st.entryFor handle epoch := by
        rw [entryFor, entryFor, hconns]
        exact congrArg (Option.filter _) (AList.lookup_insert_ne hne)
      rwa [connectCheck_congr (s := s.st) (by rw [hsame])] at hsome
  | @closed conns closeCall hclose =>
    have hsame := entryFor_of_lookup ((congrArg (AList.lookup handle) hconns).trans (hclose handle))
      (fun _ => rfl) epoch
    rwa [connectCheck_congr (s := s.st) (by rw [hsame, Option.map_map]; rfl)] at hsome

/-- Nor does it give `accept` one. -/
theorem State.Acts.acceptCheck (h : s.st.Acts s'.st.desk) (hi : s.ledger.Inv)
    (hclosed : s'.st.closed = s.st.closed) (hsome : s'.st.acceptCheck.2.isSome) :
    s.st.acceptCheck.2.isSome := by
  rw [acceptCheck_isSome_iff, hclosed] at hsome
  rw [acceptCheck_isSome_iff]
  refine hsome.imp_right fun ⟨stamp, hmem, hcur⟩ => ?_
  generalize hd : s'.st.desk = d at h
  have hconns : s'.st.conns = d.conns := congrArg Desk.conns hd
  have hqueue : s'.st.acceptQueue = d.acceptQueue := congrArg Desk.acceptQueue hd
  rw [hqueue] at hmem
  cases h with
  | rest =>
    rw [entryFor, hconns] at hcur
    exact ⟨stamp, hmem, hcur⟩
  | skipped => cases hmem
  | @inserted new origin remote hopen hfree hbacklog =>
    -- The new connection has a stamp of its own.
    have hlt : stamp.2 < s.st.nextConnEpoch := hi.held_lt (Ledger.Held.queue hmem)
    refine ⟨stamp, hmem, ?_⟩
    obtain ⟨e, he⟩ := Option.isSome_iff_exists.1 hcur
    obtain ⟨hl, hepoch⟩ := entryFor_iff.1 he
    rw [hconns] at hl
    rcases Table.lookup_insert_some.1 hl with ⟨-, rfl⟩ | ⟨-, hl⟩
    · exact absurd hepoch (Nat.ne_of_gt hlt)
    · exact Option.isSome_iff_exists.2 ⟨e, entryFor_iff.2 ⟨hl, hepoch⟩⟩
  | @closed conns closeCall hclose =>
    have hsame := entryFor_of_lookup
      ((congrArg (AList.lookup stamp.1) hconns).trans (hclose stamp.1)) (fun _ => rfl) stamp.2
    rw [hsame, Option.isSome_map] at hcur
    exact ⟨stamp, hmem, hcur⟩

end Steps

/-! ## What a poll wakes -/

/-- A connection that is not drained by a poll stays as it is. -/
theorem State.markDrained_idle {s : State} {handle : ConnectionHandle} {isDrained : Bool}
    (h : (s.markDrained handle isDrained).2 = false) : (s.markDrained handle isDrained).1 = s := by
  unfold markDrained at h ⊢
  cases hl : s.conns.lookup handle with
  | none => rfl
  | some e =>
    simp only [hl] at h ⊢
    split at h <;> rename_i hd
    · cases h
    · rw [if_neg hd]

/-- A connection that makes no progress is polled without effect. -/
theorem State.drainConn_idle {polling : ConnectionHandle → Polling} {acc acc' : State × Bool}
    {handle : ConnectionHandle} (h : drainConn polling acc handle = .ok acc')
    (hb : acc'.2 = false) : acc'.1 = acc.1 ∧ acc.2 = false := by
  obtain ⟨⟨s₁, progressed⟩, h₁, h⟩ := Except.bind_eq_ok.1 h
  cases h
  dsimp only at hb ⊢
  rw [Bool.or_eq_false_iff, Bool.or_eq_false_iff] at hb
  obtain ⟨⟨hacc, rfl⟩, hdrained⟩ := hb
  have hrounds : s₁ = acc.1 := by
    cases hr : (polling handle).rounds with
    | nil =>
      rw [hr] at h₁
      cases h₁
      rfl
    | cons r rs =>
      rw [hr, drainRounds] at h₁
      split at h₁
      · obtain ⟨_, -, h₁⟩ := Except.bind_eq_ok.1 h₁
        obtain ⟨_, -, h₁⟩ := Except.bind_eq_ok.1 h₁
        cases h₁
      · cases h₁
        rfl
  exact ⟨(markDrained_idle hdrained).trans hrounds, hacc⟩

/-- So are all of them. -/
theorem State.drain_idle_eq {s s' : State} {polling : ConnectionHandle → Polling}
    (h : s.drain polling = .ok (s', false)) : s' = s := by
  refine (Except.foldlM_trace (R := fun _ (a a' : State × Bool) =>
    a'.2 = false → a'.1 = a.1 ∧ a.2 = false) (fun _ hb => ⟨rfl, hb⟩) ?_ h rfl).1
  intro handle handles a₁ a₂ a₃ ha ih hb
  obtain ⟨h₃, hb₂⟩ := ih hb
  obtain ⟨h₂, hb₁⟩ := drainConn_idle ha hb₂
  exact ⟨h₃.trans h₂, hb₁⟩

/-! ## A step wakes, or stirs nobody -/

/-- The step gives no result: what is not there for a call is not there after it. -/
structure Sys.Calm (s s' : Sys) : Prop where
  connect : ∀ handle epoch, s.Uses handle epoch → (s'.st.connectCheck handle epoch).isSome →
    (s.st.connectCheck handle epoch).isSome
  accept : s'.st.acceptCheck.2.isSome → s.st.acceptCheck.2.isSome
  closed : s'.st.closed = s.st.closed
  keys : ∀ url, s.st.relayKeys.lookup url = none → s'.st.relayKeys.lookup url = none
  opening : ∀ url ∈ s.st.relayOpening, url ∈ s'.st.relayOpening

/-- A call may park: it has a handshake or another call's open to wait for. -/
def ConnectPhase.parks : ConnectPhase → Bool
  | waiting _ _ | parked _ _ => true
  | _ => false

/-- The step wakes all waiters, or one more may have parked. A `connect` call has something to
    wait for only once it parks. -/
structure Sys.Parks (s s' : Sys) : Prop where
  waiters : s'.st.waiters = [] ∨ s'.st.waiters = s.st.waiters ∨
    ∃ tid, s'.st.waiters = tid :: s.st.waiters
  connects : ∀ tid task, s'.connects.lookup tid = some task → task.phase.parks = true →
    s.connects.lookup tid = some task ∨ s'.st.waiters = tid :: s.st.waiters

/-- The step stirs nobody, apart from who parks in it. -/
structure Sys.Lulls (s s' : Sys) : Prop extends s.Calm s' where
  accepts : ∀ tid ∈ s'.accepts, tid ∈ s.accepts ∨ s'.st.waiters = tid :: s.st.waiters

section Lulls

variable {s s' : Sys}

theorem Sys.Calm.of_acts (hi : s.ledger.Inv) (hn : s.Noticed) (h : s.st.Acts s'.st.desk)
    (hclosed : s'.st.closed = s.st.closed)
    (hkeys : ∀ url, s.st.relayKeys.lookup url = none → s'.st.relayKeys.lookup url = none)
    (hopening : ∀ url ∈ s.st.relayOpening, url ∈ s'.st.relayOpening) : s.Calm s' where
  connect _ _ huses hsome := h.connectCheck hn huses hsome
  accept hsome := h.acceptCheck hi hclosed hsome
  closed := hclosed
  keys := hkeys
  opening := hopening

/-- Who is stirred was stirred, or parks. -/
theorem Sys.Lulls.stirred (h : s.Lulls s') (hparks : s.Parks s') {tid : TaskId}
    (hs : s'.Stirred tid) : s.Stirred tid ∨ s'.st.waiters = tid :: s.st.waiters := by
  cases hs with
  | @connect task handle epoch hl hp hsome =>
    refine (hparks.connects tid task hl (by rw [hp]; rfl)).imp_left fun hl => ?_
    exact .connect hl hp (h.connect handle epoch (.guard hl hp) hsome)
  | @relay task target started url hl hp hurl hsome =>
    refine (hparks.connects tid task hl (by rw [hp]; rfl)).imp_left fun hl =>
      .relay hl hp hurl ?_
    rw [ensureRelayCheck_isSome_iff] at hsome ⊢
    refine hsome.imp (fun hkey hno => hkey (h.keys _ hno)) (Or.imp (fun ho hno => ?_) fun hc => ?_)
    · exact ho (h.opening _ hno)
    · rwa [h.closed] at hc
  | accept hmem hsome =>
    exact (h.accepts tid hmem).imp_left fun hmem => .accept hmem (h.accept hsome)

/-- A failing relay takes URLs out of the pool. -/
def Sys.Unmaps (s s' : Sys) : Prop :=
  ∀ url, s.st.relayKeys.lookup url = none → s'.st.relayKeys.lookup url = none

theorem failHome_unmaps (s : Sys) (conn : RelayConn) (random : Option (UInt8 × UInt8)) :
    s.Unmaps (s.failHome conn random) := by
  intro url hno
  rw [Sys.failHome, retireHome]
  split <;> rename_i h <;> split at h <;> cases h <;> exact hno

theorem failRelay_unmaps (s : Sys) (key : RelayKey) :
    s.Unmaps { s with st := s.st.failRelay key } := by
  intro url hno
  have hretained : (Table.retain (fun _ mapped => mapped != key) s.st.relayKeys).lookup url =
      none := by
    rw [Option.eq_none_iff_forall_ne_some]
    intro mapped hmapped
    cases hno.symm.trans (Table.lookup_retain.1 hmapped).1
  unfold failRelay retireRelay
  cases s.st.relayPool.lookup key <;> exact hretained

theorem failReceive_unmaps (s : Sys) (key : RelayKey) (conn : RelayConn)
    (random : Option (UInt8 × UInt8)) : s.Unmaps (s.failReceive key conn random) := by
  rw [Sys.failReceive]
  split
  · exact fun _ hno => hno
  · split
    · exact failHome_unmaps s conn random
    · exact failRelay_unmaps s key

theorem sweep_unmaps (s : Sys) (verdict : RelayConn → ProbeStep)
    (random : Option (UInt8 × UInt8)) : s.Unmaps (s.sweep verdict random) := by
  rw [Sys.sweep]
  generalize s.st.relayPool.entries = l
  induction l generalizing s with
  | nil => exact fun _ hno => hno
  | cons entry l ih =>
    intro url hno
    refine ih (Sys.sweepOne verdict random s entry) url ?_
    rw [Sys.sweepOne]
    split
    · split
      · exact failHome_unmaps s entry.2 random url hno
      · exact failRelay_unmaps s entry.1 url hno
    · exact hno
    · exact hno

theorem Sys.FailsRelays.quietens (h : Sys.FailsRelays s s') (hkeys : s.Unmaps s') :
    s'.st.waiters = s.st.waiters ∧ s'.st.closed = s.st.closed ∧
      s'.st.relayOpening = s.st.relayOpening ∧ s'.accepts = s.accepts ∧ s.Unmaps s' := by
  rw [FailsRelays] at h
  refine ⟨?_, ?_, ?_, ?_, hkeys⟩ <;> rw [h]

/-- What a step of the pump leaves alone, unless it wakes the waiters. -/
theorem PumpStep.quietens (h : PumpStep s s') : s'.st.waiters = [] ∨
    s'.st.waiters = s.st.waiters ∧ s'.st.closed = s.st.closed ∧
      s'.st.relayOpening = s.st.relayOpening ∧ s'.accepts = s.accepts ∧ s.Unmaps s' := by
  cases h with
  | drain _ hd =>
    rw [(drain_polls hd).woken]
    dsimp only
    split
    · exact .inl rfl
    · exact .inr ⟨rfl, rfl, rfl, rfl, fun _ => id⟩
  | relaySendFailed =>
    split
    · exact .inr ((s.failHome_fails _ _).quietens (failHome_unmaps s _ _))
    · exact .inr ⟨rfl, rfl, rfl, rfl, fun _ => id⟩
  | arm =>
    rw [Sys.foldl_spawnUpgrade_frame]
    exact .inr ⟨rfl, rfl, rfl, rfl, fun _ => id⟩
  | relaySignal =>
    rcases Sys.handleSignal_cases (s.takeRelayRecv _ _) _ _ _ with h | ⟨_, h⟩ | ⟨_, -, h⟩ <;> rw [h]
    · exact .inr ⟨rfl, rfl, rfl, rfl, fun _ => id⟩
    · exact .inl rfl
    · exact .inl rfl
  | relayDatagram _ _ _ _ hd =>
    rw [handleRelayDatagram_frame hd]
    exact .inr ⟨rfl, rfl, rfl, rfl, fun _ => id⟩
  | relayFailed =>
    exact .inr ((Sys.failReceive_fails _ _ _ _).quietens (failReceive_unmaps _ _ _ _))
  | udpReceived _ _ _ hd =>
    rw [handleDatagram_frame hd]
    exact .inr ⟨rfl, rfl, rfl, rfl, fun _ => id⟩
  | channelDatagram _ _ _ hd =>
    rw [handleChannelDatagram_frame hd]
    exact .inr ⟨rfl, rfl, rfl, rfl, fun _ => id⟩
  | channelFailed =>
    rw [retireChannel_frame]
    exact .inr ⟨rfl, rfl, rfl, rfl, fun _ => id⟩
  | redialTaken => exact .inl rfl
  | redialFailed =>
    rw [Sys.failRedial]
    split <;> exact .inr ⟨rfl, rfl, rfl, rfl, fun _ => id⟩
  | tick => exact .inr ((Sys.sweep_fails _ _ _).quietens (sweep_unmaps _ _ _))
  | closeRelays =>
    rw [foldl_closeRelay]
    exact .inl rfl
  | closeWires =>
    rw [foldl_closeWire]
    exact .inr ⟨rfl, rfl, rfl, rfl, fun _ => id⟩
  | _ => exact .inr ⟨rfl, rfl, rfl, rfl, fun _ => id⟩

/-- A step of the pump wakes the waiters, or stirs nobody. -/
theorem PumpStep.lulls (hi : s.ledger.Inv) (hn : s.Noticed) (h : PumpStep s s') :
    s'.st.waiters = [] ∨ s.Lulls s' := by
  by_cases hwoken : s'.st.waiters = []
  · exact .inl hwoken
  obtain ⟨-, hclosed, hopening, haccepts, hkeys⟩ := h.quietens.resolve_left hwoken
  have hacts : s.st.Acts s'.st.desk := by
    rcases h.acts with ⟨polling, -, st, progressed, hd, rfl⟩ | hacts
    · -- A poll that makes progress wakes the waiters, and another one has no effect.
      cases progressed with
      | true => exact absurd rfl hwoken
      | false =>
        obtain rfl := drain_idle_eq hd
        dsimp only
        split <;> exact .rest
    · exact hacts
  exact .inr ⟨.of_acts hi hn hacts hclosed hkeys fun url hmem => hopening.symm ▸ hmem,
    fun tid hmem => .inl (haccepts ▸ hmem)⟩

/-- A call that goes on without parking. -/
theorem parks_insert {connects : Table TaskId ConnectTask} {tid tid' : TaskId}
    {task task' : ConnectTask} (hl : (connects.insert tid task).lookup tid' = some task')
    (hp : task'.phase.parks = true) (hno : task.phase.parks = false) :
    connects.lookup tid' = some task' := by
  rcases Table.lookup_insert_some.1 hl with ⟨-, rfl⟩ | ⟨-, hl⟩
  · cases hno.symm.trans hp
  · exact hl

/-- A `connect` call parks when it waits for another call's open or for the handshake. -/
theorem ConnectStep.parks (h : ConnectStep s s') {tid : TaskId} {task : ConnectTask}
    (hl : s'.connects.lookup tid = some task) (hp : task.phase.parks = true) :
    s.connects.lookup tid = some task ∨ s'.st.waiters = tid :: s.st.waiters := by
  cases h with
  | refused => exact .inl hl
  | shared _ _ _ _ he =>
    rw [ensureRelay_frame he]
    rcases Table.lookup_insert_some.1 hl with ⟨rfl, -⟩ | ⟨-, hl⟩
    · exact .inr rfl
    · exact .inl hl
  | dialed _ _ _ _ ha hd =>
    obtain ⟨_, _, h₁, rfl⟩ := dialed_eq hd
    obtain ⟨-, -, -, rfl⟩ := insertConn_eq h₁
    rw [dialAddr_frame ha]
    rcases Table.lookup_insert_some.1 hl with ⟨rfl, -⟩ | ⟨-, hl⟩
    · exact .inr rfl
    · exact .inl hl
  | @skip _ _ target | @found _ _ target _ _ _ | @opened _ _ target _ _ _
  | @woken _ _ target _ _ _ =>
    exact .inl (parks_insert hl hp (by cases target <;> rfl))
  | cancelOpening | cancelWaiting | cancelParked => exact .inl (Table.lookup_erase_some.1 hl).2
  | _ => exact .inl (parks_insert hl hp rfl)

/-- A step of a `connect` call that releases a claim wakes the waiters. The others leave the
    outcomes of the relays alone. -/
theorem ConnectStep.quietens (h : ConnectStep s s') : s'.st.waiters = [] ∨
    (s'.st.waiters = s.st.waiters ∨ ∃ tid, s'.st.waiters = tid :: s.st.waiters) ∧
      s.Unmaps s' ∧ ∀ url ∈ s.st.relayOpening, url ∈ s'.st.relayOpening := by
  cases h with
  | found _ _ _ _ he | closed _ _ _ _ he | claimed _ _ _ _ he =>
    rcases ensureRelay_cases he with
      ⟨_, -, rfl, -⟩ | ⟨-, ⟨-, rfl, -⟩ | ⟨-, rfl, -⟩ | ⟨-, -, -, rfl⟩⟩
    · exact .inr ⟨.inl rfl, fun _ => id, fun _ => id⟩
    · exact .inr ⟨.inl rfl, fun _ => id, fun _ => id⟩
    · exact .inr ⟨.inl rfl, fun _ => id, fun _ => id⟩
    · exact .inr ⟨.inl rfl, fun _ => id, fun _ => List.mem_cons_of_mem _⟩
  | shared _ _ _ _ he =>
    obtain ⟨_, hno, -⟩ | ⟨-, ⟨hno, -⟩ | ⟨-, rfl, -⟩ | ⟨hno, -⟩⟩ := ensureRelay_cases he
    · cases hno
    · cases hno
    · exact .inr ⟨.inr ⟨_, rfl⟩, fun _ => id, fun _ => id⟩
    · cases hno
  | opened _ _ _ _ hr =>
    obtain ⟨-, -, rfl⟩ := registerRelay_eq hr
    exact .inl rfl
  | openFailed | cancelOpening => exact .inl rfl
  | dialFailed _ _ _ _ ha =>
    rw [dialAddr_frame ha]
    exact .inr ⟨.inl rfl, fun _ => id, fun _ => id⟩
  | dialed _ _ _ _ ha hd =>
    obtain ⟨_, _, h₁, rfl⟩ := dialed_eq hd
    obtain ⟨-, -, -, rfl⟩ := insertConn_eq h₁
    rw [dialAddr_frame ha]
    exact .inr ⟨.inr ⟨_, rfl⟩, fun _ => id, fun _ => id⟩
  | failed | cancelParked =>
    rcases s.st.closeConnection_cases _ _ _ _ with ⟨h, -⟩ | ⟨_, -, -, -, h⟩ <;>
      rw [dropDialGuard, h] <;> exact .inr ⟨.inl rfl, fun _ => id, fun _ => id⟩
  | _ => exact .inr ⟨.inl rfl, fun _ => id, fun _ => id⟩

/-- A step of a `connect` call wakes the waiters, or stirs nobody but the call itself. -/
theorem ConnectStep.lulls (hi : s.ledger.Inv) (hn : s.Noticed) (h : ConnectStep s s') :
    s'.st.waiters = [] ∨ s.Lulls s' := by
  refine h.quietens.imp_right fun ⟨_, hkeys, hopening⟩ => ?_
  have hclosed : s'.st.closed = s.st.closed := by rw [h.frame]
  have haccepts : s'.accepts = s.accepts := by rw [h.frame]
  exact ⟨.of_acts hi hn h.acts hclosed hkeys hopening, fun tid hmem => .inl (haccepts ▸ hmem)⟩

/-- A session leaves the waiters and the pool alone. -/
theorem SessionStep.quietens (h : SessionStep s s') : s'.st.waiters = s.st.waiters ∧
    s'.st.closed = s.st.closed ∧ s'.st.relayKeys = s.st.relayKeys ∧
      s'.st.relayOpening = s.st.relayOpening ∧ s'.accepts = s.accepts := by
  cases h with
  | begin _ _ _ hb =>
    obtain ⟨-, rfl⟩ := beginSignaling_eq hb
    exact ⟨rfl, rfl, rfl, rfl, rfl⟩
  | receive =>
    rw [nextSignalCheck_frame]
    exact ⟨rfl, rfl, rfl, rfl, rfl⟩
  | upgraded _ _ _ _ hr | answered _ _ _ _ hr =>
    rw [registerChannel_frame hr]
    exact ⟨rfl, rfl, rfl, rfl, rfl⟩
  | _ => exact ⟨rfl, rfl, rfl, rfl, rfl⟩

/-- A step of a session stirs nobody. -/
theorem SessionStep.lulls (hi : s.ledger.Inv) (hn : s.Noticed) (h : SessionStep s s') :
    s.Lulls s' := by
  obtain ⟨-, hclosed, hkeys, hopening, haccepts⟩ := h.quietens
  exact ⟨.of_acts hi hn (.of_eq h.desk) hclosed (fun url hno => hkeys.symm ▸ hno)
    (fun url hmem => hopening.symm ▸ hmem), fun tid hmem => .inl (haccepts ▸ hmem)⟩

/-- `accept` that finds something leaves nothing to find that was not there. -/
theorem Sys.Calm.of_accept {st : State} {result : Option (Except Error Stamp)}
    (h : s.st.acceptCheck = (st, result)) (hsome : result.isSome) (hst : s'.st = st) :
    s.Calm s' := by
  obtain rfl := acceptCheck_eq h
  have hfound : s.st.acceptCheck.2.isSome := by rwa [h]
  refine ⟨fun handle epoch _ hcheck => ?_, fun _ => hfound, by rw [hst], fun url hno => ?_,
    fun url hmem => ?_⟩
  · have hsame : s'.st.entryFor handle epoch = s.st.entryFor handle epoch := by
      rw [hst]
      rfl
    rwa [connectCheck_congr (s := s.st) (by rw [hsame])] at hcheck
  · rwa [hst]
  · rwa [hst]

/-- Handing out a stream changes no entry as far as `connect` and `accept` look at it. -/
theorem Sys.Calm.of_acceptStream {res : ConnectionRes} {dir : Dir} {stream : StreamId}
    (h : s.AcceptsStream s' res dir stream) : s.Calm s' := by
  obtain ⟨_, st, -, -, hc, rfl⟩ := h
  obtain ⟨e, rest, he, -, rfl⟩ := acceptStreamCheck_ok hc
  obtain ⟨hl, -⟩ := entryFor_iff.1 he
  -- What changes in the table.
  let f : ConnectionHandle → ConnEntry → ConnEntry := fun handle e' =>
    if handle = res.handle then e'.setQueue dir rest else e'
  have hentry : ∀ handle epoch,
      State.entryFor { s.st with conns := s.st.conns.insert res.handle (e.setQueue dir rest) }
        handle epoch = (s.st.entryFor handle epoch).map (f handle) := by
    intro handle epoch
    refine entryFor_of_lookup ?_ (fun e' => ?_) epoch
    · dsimp only [f]
      rw [Table.lookup_insert_eq]
      split <;> rename_i heq
      · rw [heq, hl]
        rfl
      · rw [Option.map_id']
    · dsimp only [f]
      split
      · cases dir <;> rfl
      · rfl
  refine ⟨fun handle epoch _ hcheck => ?_, fun hsome => ?_, rfl, fun _ => id, fun _ => id⟩
  · rwa [connectCheck_congr (s := s.st)] at hcheck
    rw [hentry, Option.map_map]
    congr 1
    funext e'
    dsimp only [Function.comp, f]
    split
    · cases dir <;> rfl
    · rfl
  · rw [acceptCheck_isSome_iff] at hsome ⊢
    refine hsome.imp_right fun ⟨stamp, hmem, hcur⟩ => ⟨stamp, hmem, ?_⟩
    rwa [hentry, Option.isSome_map] at hcur

/-- Closing a connection wakes nobody. -/
theorem State.closeConnection_keeps (s : State) (handle : ConnectionHandle) (epoch code : ℕ)
    (reason : Bytes) :
    (s.closeConnection handle epoch code reason).waiters = s.waiters ∧
      (s.closeConnection handle epoch code reason).closed = s.closed ∧
      (s.closeConnection handle epoch code reason).relayKeys = s.relayKeys ∧
      (s.closeConnection handle epoch code reason).relayOpening = s.relayOpening := by
  rcases s.closeConnection_cases handle epoch code reason with ⟨h, -⟩ | ⟨_, -, -, -, h⟩ <;>
    rw [h] <;> exact ⟨rfl, rfl, rfl, rfl⟩

/-- Who may have parked in a step. -/
theorem Step.parks (h : Step s s') : s.Parks s' := by
  have hparks : s'.st.waiters = s.st.waiters ∨ (∃ tid, s'.st.waiters = tid :: s.st.waiters) →
      s'.connects = s.connects → s.Parks s' :=
    fun hw hc => ⟨.inr hw, fun _ _ hl _ => .inl (hc ▸ hl)⟩
  cases h with
  | pump h =>
    exact ⟨h.quietens.imp_right fun hq => .inl hq.1, fun _ _ hl _ => .inl (h.handles.1 ▸ hl)⟩
  | connect h => exact ⟨h.quietens.imp_right fun hq => hq.1, fun _ _ => h.parks⟩
  | session h => exact hparks (.inl h.quietens.1) h.handles.1
  | repark => exact hparks (.inr ⟨_, rfl⟩) rfl
  | acceptPark _ hc =>
    obtain rfl := acceptCheck_eq hc
    exact hparks (.inr ⟨_, rfl⟩) rfl
  | accept _ hc | acceptClosed _ hc =>
    obtain rfl := acceptCheck_eq hc
    exact hparks (.inl rfl) rfl
  | closeEndpoint =>
    rw [State.closeEndpoint]
    split
    · exact ⟨.inr (.inl rfl), fun _ _ hl _ => .inl hl⟩
    · exact ⟨.inl rfl, fun _ _ hl _ => .inl hl⟩
  | closeConnection | dropConnection =>
    exact hparks (.inl (s.st.closeConnection_keeps _ _ _ _).1) rfl
  | openStream _ _ hc =>
    rcases openStreamCheck_cases hc with rfl | rfl <;> exact hparks (.inl rfl) rfl
  | acceptStream _ _ hc =>
    rcases acceptStreamCheck_cases hc with rfl | ⟨_, _, -, rfl⟩ <;> exact hparks (.inl rfl) rfl
  | pass | acceptCancel | pathChanges | kick => exact hparks (.inl rfl) rfl

/-- A step wakes the waiters, or stirs nobody but who parks in it. -/
theorem Step.lulls (hi : s.ledger.Inv) (hn : s.Noticed) (h : Step s s') :
    s'.st.waiters = [] ∨ s.Lulls s' := by
  cases h with
  | pump h => exact h.lulls hi hn
  | connect h => exact h.lulls hi hn
  | session h => exact .inr (h.lulls hi hn)
  | pass | repark | pathChanges | kick =>
    exact .inr ⟨.of_acts hi hn .rest rfl (fun _ => id) fun _ => id, fun _ => .inl⟩
  | accept _ hc | acceptClosed _ hc =>
    exact .inr ⟨.of_accept hc rfl rfl, fun _ hmem => .inl (List.mem_of_mem_erase hmem)⟩
  | acceptPark _ hc =>
    have hacts := acceptCheck_acts hc nofun
    obtain rfl := acceptCheck_eq hc
    refine .inr ⟨.of_acts hi hn hacts rfl (fun _ => id) fun _ => id, fun tid hmem => ?_⟩
    rcases List.mem_cons.1 hmem with rfl | hmem
    · exact .inr rfl
    · exact .inl (List.mem_of_mem_erase hmem)
  | acceptCancel =>
    exact .inr ⟨.of_acts hi hn .rest rfl (fun _ => id) fun _ => id,
      fun _ hmem => .inl (List.mem_of_mem_erase hmem)⟩
  | closeEndpoint =>
    rw [State.closeEndpoint]
    split
    · exact .inr ⟨.of_acts hi hn .rest rfl (fun _ => id) fun _ => id, fun _ => .inl⟩
    · exact .inl rfl
  | closeConnection | dropConnection =>
    have hacts := s.st.closeConnection_acts
    have hkeeps := s.st.closeConnection_keeps
    exact .inr ⟨.of_acts hi hn (hacts _ _ _ _) (hkeeps _ _ _ _).2.1
      (fun url hno => (hkeeps _ _ _ _).2.2.1.symm ▸ hno)
      fun url hmem => (hkeeps _ _ _ _).2.2.2.symm ▸ hmem, fun _ => .inl⟩
  | openStream _ _ hc =>
    rcases openStreamCheck_cases hc with rfl | rfl <;>
      exact .inr ⟨.of_acts hi hn .rest rfl (fun _ => id) fun _ => id, fun _ => .inl⟩
  | @acceptStream rid res dir st result hq hr hc =>
    by_cases hid : ∃ id, result = some (.ok id)
    · obtain ⟨id, rfl⟩ := hid
      have hcalm := Sys.Calm.of_acceptStream ⟨rid, st, hq, hr, hc, rfl⟩
      obtain ⟨_, _, -, -, rfl⟩ := acceptStreamCheck_ok hc
      exact .inr ⟨hcalm, fun _ => .inl⟩
    · obtain rfl := acceptStreamCheck_eq hc (not_exists.1 hid)
      exact .inr ⟨.of_acts hi hn .rest rfl (fun _ => id) fun _ => id, fun _ => .inl⟩

end Lulls

/-! ## The runs in which no wake is missed -/

/-- No wake is missed. -/
structure Attended (s : Sys) : Prop where
  /-- Who is still parked has nothing to find. -/
  waiters : ∀ tid ∈ s.st.waiters, ¬s.Stirred tid
  /-- After a tick, the pump has nothing to do before the poll that wakes the waiters. -/
  ticked : s.pump.forceWake = true → s.pump.pc = .top

/-- The tick sets the pump to wake the waiters, and the next poll does. -/
theorem PumpStep.ticked {s s' : Sys} (h : PumpStep s s')
    (hi : s.pump.forceWake = true → s.pump.pc = .top) (hw : s'.pump.forceWake = true) :
    s'.pump.pc = .top := by
  have hno : ∀ pc, s.pump.pc = pc → pc ≠ .top → s.pump.forceWake ≠ true :=
    fun pc hpc hne hforce => hne (hpc.symm.trans (hi hforce))
  cases h with
  | drain => cases hw
  | relayEmpty hpc | relayLost hpc | relaySend hpc | relaySent hpc | udpEmpty hpc | udpSend hpc
  | udpSent hpc | channelEmpty hpc | channelSend hpc | channelSent hpc | leave hpc | stay hpc
  | suspend hpc | closeRelays hpc | closeWires hpc | settled hpc =>
    exact absurd hw (hno _ hpc nofun)
  | @relaySendFailed key conn random hpc =>
    have hfails : (s.failHome conn random).pump.forceWake = s.pump.forceWake := by
      rw [s.failHome_fails conn random]
    refine absurd ?_ (hno _ hpc nofun)
    dsimp only [Sys.goto] at hw
    split at hw
    · exact hfails.symm.trans hw
    · exact hw
  | arm hpc =>
    rw [Sys.foldl_spawnUpgrade_frame] at hw
    exact absurd hw (hno _ hpc nofun)
  | redialOpened hselect =>
    refine absurd hw (hno _ rfl fun htop => ?_)
    rw [htop] at hselect
    cases hselect
  | _ => rfl

/-- The pump moves by its own steps. -/
theorem Step.pumps {s s' : Sys} (h : Step s s') : PumpStep s s' ∨ s'.pump = s.pump := by
  rcases h.cases with h | h | h | h
  · exact .inl h
  · exact .inr (by rw [h.frame])
  · exact .inr (by cases h <;> rfl)
  · exact .inr (by rw [h.frame])

/-- **In every run** in which the tasks wait as `wait_until` does, no wake is missed. -/
theorem attended_reachable {s : Sys} (hs : (endpoint.restrict Sys.WaitsUntil).Reachable s) :
    Attended s := by
  refine hs.invariant (P := Attended) ?_ fun s s' hr hst ha => ?_
  · rintro _ ⟨config, webrtc, now, st, key, hr, rfl⟩
    obtain ⟨-, -, rfl⟩ := registerRelay_eq hr
    exact ⟨nofun, nofun⟩
  · obtain ⟨hst, hwaits⟩ := hst
    have hi := Ledger.Inv.reachable (ledger_simulation.reachable hr.of_restrict)
    have hn : s.Noticed := noticed_reachable (hr.weaken fun _ _ h => h.drain)
    refine ⟨fun tid hmem hstirred => ?_, ?_⟩
    · have hwoken : s'.st.waiters ≠ [] := List.ne_nil_of_mem hmem
      have hlulls := (hst.lulls hi hn).resolve_left hwoken
      -- A task that parks has found nothing, and the others are not stirred.
      rcases hlulls.stirred hst.parks hstirred with hbefore | hparks
      · rcases hst.parks.waiters.resolve_left hwoken with hsame | ⟨tid', hparks⟩
        · exact ha.waiters tid (hsame ▸ hmem) hbefore
        · rw [hparks] at hmem
          rcases List.mem_cons.1 hmem with rfl | hmem
          · exact hwaits.parks tid hparks hstirred
          · exact ha.waiters tid hmem hbefore
      · exact hwaits.parks tid hparks hstirred
    · rcases hst.pumps with h | hpump
      · exact h.ticked ha.ticked
      · rw [hpump]
        exact ha.ticked

/-- A step of the pump parks nobody. -/
theorem Sys.Still.waitsUntil {s s' : Sys} (h : s.Still s') (hst : PumpStep s s') :
    s.WaitsUntil s' where
  drain := h.notices
  parks tid hparks := by
    rcases hst.quietens with hwoken | ⟨hsame, -⟩
    · exact nomatch hwoken.symm.trans hparks
    · exact absurd (hsame.symm.trans hparks).symm (List.cons_ne_self _ _)

/-- Without an upgrade requested, the pump only arms its receives. -/
theorem PumpStep.arm_idle {s : Sys} (hpc : s.pump.pc = .arm)
    (hupgrade : s.st.pendingUpgrades = []) :
    PumpStep s { s with
      st := { s.st with newRelays := [], newChannels := [] }
      pump := { s.pump with
        pc := .check
        relayRecvs := s.pump.relayRecvs ++ s.st.newRelays
        channelRecvs := s.pump.channelRecvs ++ s.st.newChannels } } := by
  have harm := PumpStep.arm hpc
  simp only [hupgrade, List.foldl_nil] at harm
  rwa [← hupgrade] at harm

/-- After `bind`, the pump comes to rest by its own steps. -/
theorem idle_pumped {ok : Sys → Sys → Prop}
    (hok : ∀ {s s' : Sys}, PumpStep s s' → s.Still s' → ok s s') (webrtc : Bool) :
    (endpoint.restrict ok).Reachable
      (Sys.idle (.relayOnly "https://home.example") webrtc 0) := by
  have hpump : ∀ {s s' : Sys}, (endpoint.restrict ok).Reachable s → PumpStep s s' → s.Still s' →
      (endpoint.restrict ok).Reachable s' :=
    fun hs hst hstill => hs.step ⟨.pump hst, hok hst hstill⟩
  have hselect : ∀ {s : Sys}, (endpoint.restrict ok).Reachable s →
      s.pump.pc = .flushRelay → s.st.relayOutbound = [] → s.st.udpOutbound = [] →
      s.st.channelOutbound = [] → s.st.mayEnd s.now = false → s.st.pendingUpgrades = [] →
      (endpoint.restrict ok).Reachable { s with
        st := { s.st with newRelays := [], newChannels := [] }
        pump := { s.pump with
          pc := .polling
          relayRecvs := s.pump.relayRecvs ++ s.st.newRelays
          channelRecvs := s.pump.channelRecvs ++ s.st.newChannels } } := by
    intro s hs hpc hrelay hudp hchannel hstay hupgrade
    have hrelayed := hpump hs (.relayEmpty hpc hrelay)
      ⟨fun h => (nomatch hpc.symm.trans h), rfl, nofun⟩
    have hflushed := hpump (hpump hrelayed (.udpEmpty rfl hudp) ⟨nofun, rfl, nofun⟩)
      (.channelEmpty rfl hchannel) ⟨nofun, rfl, nofun⟩
    have harmed := hpump hflushed (.arm_idle rfl hupgrade) ⟨nofun, rfl, nofun⟩
    exact hpump harmed (.stay rfl hstay) ⟨nofun, rfl, nofun⟩
  have hbound := bound_reachable ok (.relayOnly "https://home.example") webrtc 0
  have hdrain := hpump hbound (@PumpStep.drain _ (fun _ => ⟨[], false⟩) _ _ rfl rfl)
    ⟨fun _ => rfl, rfl, nofun⟩
  have hkicked := hpump (hselect hdrain rfl rfl rfl rfl rfl rfl) (.kicked rfl rfl rfl)
    ⟨nofun, rfl, nofun⟩
  have hdrain' := hpump hkicked (@PumpStep.drain _ (fun _ => ⟨[], false⟩) _ _ rfl rfl)
    ⟨fun _ => rfl, rfl, nofun⟩
  exact hpump (hselect hdrain' rfl rfl rfl rfl rfl rfl) (.suspend rfl rfl) ⟨nofun, rfl, nofun⟩

/-- An `accept` parks on an endpoint at rest. Then a peer connects, and its handshake completes:
    the call would find the connection, and is woken. -/
theorem attended_accepting : ∃ s s' : Sys, s.st.waiters = [0] ∧ Attended s ∧
    (endpoint.restrict Sys.WaitsUntil).Leads s s' ∧ s'.Stirred 0 ∧ s'.st.waiters = [] ∧
    Attended s' := by
  let idle : Sys := Sys.idle (.relayOnly "https://home.example") true 0
  let parked : Sys := { idle with st := { idle.st with waiters := [0] }, accepts := [0] }
  have hidle : (endpoint.restrict Sys.WaitsUntil).Reachable idle :=
    idle_pumped (fun hst hstill => hstill.waitsUntil hst) true
  have hstill : idle.Still parked := ⟨nofun, rfl, nofun⟩
  have hpark : (endpoint.restrict Sys.WaitsUntil).Reachable parked := by
    refine hidle.step ⟨@Step.acceptPark _ 0 _ rfl rfl, hstill.notices, fun tid _ hstirred => ?_⟩
    cases hstirred with
    | connect hl => cases hl
    | relay hl => cases hl
    | accept _ hsome => cases hsome
  let polling : ConnectionHandle → Polling :=
    fun _ => ⟨[⟨0, [.connected ⟨none, some (Vector.replicate 32 7)⟩], []⟩], false⟩
  have hdatagram : (endpoint.restrict Sys.WaitsUntil).Leads parked _ := .single
    ⟨.pump (@PumpStep.relayDatagram _ homeRelay ⟨0⟩ (Vector.replicate 32 7) []
      (.newConnection [] (.ok 0)) _ rfl rfl List.mem_cons_self rfl rfl),
      fun ⟨_, hd⟩ => (nomatch hd.1), fun _ hparks => (nomatch hparks)⟩
  have hconnected := hdatagram.tail ⟨.pump (@PumpStep.drain _ polling _ _ rfl rfl),
    fun _ => ⟨polling, ⟨rfl, _, _, rfl, by exact rfl⟩, fun handle e hl _ hdrained => ?_⟩,
    fun _ hparks => (nomatch hparks)⟩
  · exact ⟨_, _, rfl, attended_reachable hpark, hconnected, .accept List.mem_cons_self rfl, rfl,
      attended_reachable (hpark.leads hconnected)⟩
  · -- The new connection has not drained.
    rcases Table.lookup_insert_some.1 hl with ⟨-, rfl⟩ | ⟨-, hl⟩
    · exact absurd hdrained (by decide)
    · cases hl

end IrohEndpoint
