import IrohEndpoint.Calls

/-!
# Queued work is not stranded

Whoever queues work for the pump kicks it, also while the pump awaits a send in the
middle of its flush, past the queue in question. The kick is a flag, which only the
kick arm of the select takes back, and the pump then starts a new turn. So if the flag
is down, nobody has queued anything since the turn began, and what the turn has flushed
so far is empty (`Work.Flushed`).

`Turn` records how much of a turn the pump has done since the flag was last up
(`turns`). When the pump is suspended with the flag down, it is a whole turn.
-/

namespace IrohEndpoint

open Transition State

/-! ## Turns of the pump -/

/-- How much of a turn is done. -/
inductive Turn
  | none
  /-- The connections are drained. -/
  | drained
  /-- The queue of the relays is flushed too, then that of UDP, then that of the
      channels. -/
  | relays
  | udp
  | channels
  /-- The receives are armed, and the upgrades spawned. -/
  | complete
  deriving DecidableEq

/-- What the pump has done of its turn at a point of its loop. -/
def PumpPc.turn : PumpPc → Turn
  | flushRelay | sendRelay _ _ => .drained
  | flushUdp | sendUdp => .relays
  | flushChannel | sendChannel => .udp
  | arm => .channels
  | check | polling | suspended => .complete
  | top | redialed _ | leaving | selfWake | settling | done => .none

/-- The record after the pump has come from `t` to `t'` in its turn: a turn begins with
    the drain, and each part counts if the one before it did. -/
def Turn.next (turn t t' : Turn) : Turn :=
  match t, t', turn with
  | none, drained, _ => drained
  | drained, relays, drained => relays
  | relays, udp, relays => udp
  | udp, channels, udp => channels
  | channels, complete, channels => complete
  | _, _, turn => turn

/-- How a step brings the record up to date: nothing is done since the flag was up. -/
def Turn.note (s s' : Sys) (turn turn' : Turn) : Prop :=
  turn' = if s'.st.pumpKicked then none else turn.next s.pump.pc.turn s'.pump.pc.turn

/-- The endpoint, with the record of the pump's turns since it was last kicked. -/
def turns : System (Sys × Turn) := endpoint.observe .none Turn.note

/-- Every run of the endpoint has a record. -/
theorem turns_total {s : Sys} (hs : endpoint.Reachable s) : ∃ turn, turns.Reachable (s, turn) := by
  have htotal : ∀ s s' turn, endpoint.step s s' → ∃ turn', Turn.note s s' turn turn' :=
    fun _ _ _ _ => ⟨_, rfl⟩
  exact hs.observe htotal

/-! ## The work of the pump -/

/-- What is queued for the pump, and whether it is kicked. -/
structure Work where
  relayOutbound : List (RelayKey × EndpointId × Bytes)
  udpOutbound : List (SocketAddr × Bytes)
  channelOutbound : List (ChannelId × Bytes)
  newRelays : List (RelayKey × RelayConn)
  newChannels : List (ChannelId × ChannelWire)
  pendingUpgrades : List (EndpointId × RelayKey)
  kicked : Bool
  waker : Bool

/-- What is queued for the pump. -/
def State.work (s : State) : Work where
  relayOutbound := s.relayOutbound
  udpOutbound := s.udpOutbound
  channelOutbound := s.channelOutbound
  newRelays := s.newRelays
  newChannels := s.newChannels
  pendingUpgrades := s.pendingUpgrades
  kicked := s.pumpKicked
  waker := s.pumpWaker

/-- What a turn has flushed is empty. -/
def Work.Flushed (w : Work) : Turn → Prop
  | .none | .drained => True
  | .relays => w.relayOutbound = []
  | .udp => w.relayOutbound = [] ∧ w.udpOutbound = []
  | .channels => w.relayOutbound = [] ∧ w.udpOutbound = [] ∧ w.channelOutbound = []
  | .complete =>
    (w.relayOutbound = [] ∧ w.udpOutbound = [] ∧ w.channelOutbound = []) ∧
      w.newRelays = [] ∧ w.newChannels = [] ∧ w.pendingUpgrades = []

/-- A task that is not the pump leaves its work alone, or kicks it. -/
theorem ConnectStep.work {s s' : Sys} (h : ConnectStep s s') :
    s'.pump = s.pump ∧ (s'.st.pumpKicked = true ∨ s'.st.work = s.st.work) := by
  cases h with
  | found _ _ _ _ he | closed _ _ _ _ he | claimed _ _ _ _ he | shared _ _ _ _ he =>
    rw [ensureRelay_frame he]
    exact ⟨rfl, .inr rfl⟩
  | opened _ _ _ _ hr =>
    obtain ⟨-, -, rfl⟩ := registerRelay_eq hr
    exact ⟨rfl, .inl rfl⟩
  | dialFailed _ _ _ _ ha =>
    rw [dialAddr_frame ha]
    exact ⟨rfl, .inr rfl⟩
  | dialed _ _ _ _ _ hd =>
    obtain ⟨s₁, _, -, rfl⟩ := dialed_eq hd
    exact ⟨rfl, .inl rfl⟩
  | failed | cancelParked =>
    rcases s.st.closeConnection_cases _ _ _ _ with ⟨h, -⟩ | ⟨_, -, -, -, h⟩ <;>
      rw [dropDialGuard, h]
    · exact ⟨rfl, .inr rfl⟩
    · exact ⟨rfl, .inl rfl⟩
  | _ => exact ⟨rfl, .inr rfl⟩

/-- A session leaves the work of the pump alone, or kicks it. -/
theorem SessionStep.work {s s' : Sys} (h : SessionStep s s') :
    s'.pump = s.pump ∧ (s'.st.pumpKicked = true ∨ s'.st.work = s.st.work) := by
  cases h with
  | begin _ _ _ hb =>
    obtain ⟨-, rfl⟩ := beginSignaling_eq hb
    exact ⟨rfl, .inr rfl⟩
  | publish => exact ⟨rfl, .inl rfl⟩
  | receive =>
    rw [nextSignalCheck_frame]
    exact ⟨rfl, .inr rfl⟩
  | upgraded _ _ _ _ hr | answered _ _ _ _ hr =>
    rcases registerChannel_cases hr with ⟨-, rfl⟩ | ⟨-, -, s₁, addr, -, rfl⟩
    · exact ⟨rfl, .inr rfl⟩
    · exact ⟨rfl, .inl rfl⟩
  | busy | fail => exact ⟨rfl, .inr rfl⟩

/-- Another call leaves the work of the pump alone, or kicks it. -/
theorem Sys.Serves.work {s s' : Sys} (h : s.Serves s') :
    s'.pump = s.pump ∧ (s'.st.pumpKicked = true ∨ s'.st.work = s.st.work) := by
  refine ⟨by rw [h.frame], ?_⟩
  rcases h.kicks with ⟨hk, hw⟩ | ⟨hk, -⟩
  · right
    rw [h.frame]
    simp only [State.work, hk, hw]
  · exact .inl hk

/-! ## What a turn has flushed -/

/-- While the flag is down, the record is what the pump has done of its turn, and what
    the turn has flushed is empty. -/
structure Kept (pc : PumpPc) (w : Work) (turn : Turn) : Prop where
  turn : pc.turn ≠ .none → turn = pc.turn
  flushed : w.Flushed pc.turn
  parked : pc = .suspended → w.waker = true

section Kept

variable {pc pc' : PumpPc} {w w' : Work} {turn : Turn}

/-- Outside a turn, there is nothing to keep. -/
theorem Kept.of_none (h : pc.turn = .none) : Kept pc w turn := by
  refine ⟨absurd h, ?_, ?_⟩
  · rw [h]
    trivial
  · rintro rfl
    cases h

/-- The pump goes on in its turn, to the next part or within one. -/
theorem Kept.next (h : Kept pc w turn) (ht : pc.turn ≠ .none)
    (hnext : pc.turn.next pc.turn pc'.turn = pc'.turn) (hw : w'.Flushed pc'.turn)
    (hpc : pc' = .suspended → w'.waker = true) : Kept pc' w' (turn.next pc.turn pc'.turn) :=
  ⟨fun _ => by rw [h.turn ht, hnext], hw, hpc⟩

end Kept

/-- A step of the pump that leaves the flag down keeps the turn. -/
theorem PumpStep.kept {s s' : Sys} {turn : Turn} (h : PumpStep s s')
    (hk : s'.st.pumpKicked = false)
    (hi : s.st.pumpKicked = false → Kept s.pump.pc s.st.work turn) :
    Kept s'.pump.pc s'.st.work (turn.next s.pump.pc.turn s'.pump.pc.turn) := by
  cases h with
  | drain hpc =>
    -- A turn begins.
    rw [hpc]
    exact ⟨fun _ => rfl, trivial, nofun⟩
  | relayEmpty hpc hempty =>
    have hkept := hi hk
    rw [hpc] at hkept ⊢
    exact hkept.next nofun rfl hempty nofun
  | relayLost hpc | relaySend hpc | relaySent hpc =>
    have hkept := hi hk
    rw [hpc] at hkept ⊢
    exact hkept.next nofun rfl trivial nofun
  | @relaySendFailed key conn random hpc =>
    have hkick : (if key = homeRelay then s.failHome conn random else s).st.pumpKicked =
        s.st.pumpKicked := by
      split
      · rw [s.failHome_fails]
      · rfl
    have hkept := hi (hkick.symm.trans hk)
    rw [hpc] at hkept ⊢
    exact hkept.next nofun rfl trivial nofun
  | udpEmpty hpc hempty =>
    have hkept := hi hk
    rw [hpc] at hkept ⊢
    exact hkept.next nofun rfl ⟨hkept.flushed, hempty⟩ nofun
  | udpSend hpc =>
    have hkept := hi hk
    rw [hpc] at hkept ⊢
    dsimp only [Sys.goto]
    split <;> exact hkept.next nofun rfl hkept.flushed nofun
  | udpSent hpc =>
    have hkept := hi hk
    rw [hpc] at hkept ⊢
    exact hkept.next nofun rfl hkept.flushed nofun
  | channelEmpty hpc hempty =>
    have hkept := hi hk
    rw [hpc] at hkept ⊢
    exact hkept.next nofun rfl ⟨hkept.flushed.1, hkept.flushed.2, hempty⟩ nofun
  | channelSend hpc =>
    have hkept := hi hk
    rw [hpc] at hkept ⊢
    dsimp only [Sys.goto]
    split <;> exact hkept.next nofun rfl hkept.flushed nofun
  | channelSent hpc =>
    have hkept := hi hk
    rw [hpc] at hkept ⊢
    exact hkept.next nofun rfl hkept.flushed nofun
  | arm hpc =>
    -- The turn is complete: nothing is left for the pump to do.
    rw [Sys.foldl_spawnUpgrade_frame] at hk ⊢
    have hkept := hi hk
    rw [hpc] at hkept ⊢
    exact hkept.next nofun rfl ⟨hkept.flushed, rfl, rfl, rfl⟩ nofun
  | stay hpc =>
    have hkept := hi hk
    rw [hpc] at hkept ⊢
    exact hkept.next nofun rfl hkept.flushed nofun
  | suspend hpc =>
    have hkept := hi hk
    rw [hpc] at hkept ⊢
    exact hkept.next nofun rfl hkept.flushed fun _ => rfl
  -- Every other step ends the turn, or is outside of one.
  | _ => exact .of_none rfl

/-- A step that leaves the flag down keeps the turn. -/
theorem Step.kept {s s' : Sys} {turn : Turn} (h : Step s s') (hk : s'.st.pumpKicked = false)
    (hi : s.st.pumpKicked = false → Kept s.pump.pc s.st.work turn) :
    Kept s'.pump.pc s'.st.work (turn.next s.pump.pc.turn s'.pump.pc.turn) := by
  have hother : s'.pump = s.pump ∧ (s'.st.pumpKicked = true ∨ s'.st.work = s.st.work) →
      Kept s'.pump.pc s'.st.work (turn.next s.pump.pc.turn s'.pump.pc.turn) := by
    rintro ⟨hpump, hkick | hwork⟩
    · rw [hk] at hkick
      cases hkick
    · -- The flag was down before, and the pump has not moved.
      have hkept := hi ((congrArg Work.kicked hwork).symm.trans hk)
      have hnext : ∀ t : Turn, turn.next t t = turn := by
        intro t
        cases t <;> cases turn <;> rfl
      rwa [hpump, hwork, hnext]
  rcases h.cases with h | h | h | h
  · exact h.kept hk hi
  · exact hother h.work
  · exact hother h.work
  · exact hother h.work

/-- In every run, the turn is kept while the flag is down. -/
theorem turns_kept {x : Sys × Turn} (h : turns.Reachable x) (hk : x.1.st.pumpKicked = false) :
    Kept x.1.pump.pc x.1.st.work x.2 := by
  revert hk
  refine h.invariant (P := fun x => x.1.st.pumpKicked = false → Kept x.1.pump.pc x.1.st.work x.2)
    ?_ ?_
  · rintro ⟨s, turn⟩ ⟨⟨config, webrtc, now, st, key, hreg, rfl⟩, -⟩ -
    exact .of_none rfl
  · rintro ⟨s, turn⟩ ⟨s', turn'⟩ - ⟨hst, hnote⟩ hi hk
    dsimp only at hst hnote hi hk ⊢
    rw [hnote, if_neg (by rw [hk]; exact Bool.false_ne_true)]
    exact hst.kept hk hi

/-! ## No kick is lost -/

/-- Nothing is queued for the pump, its waker is parked, and it has taken a whole turn
    since the flag was last up. -/
structure NothingStranded (s : Sys) (turn : Turn) : Prop where
  relayOutbound : s.st.relayOutbound = []
  udpOutbound : s.st.udpOutbound = []
  channelOutbound : s.st.channelOutbound = []
  newRelays : s.st.newRelays = []
  newChannels : s.st.newChannels = []
  pendingUpgrades : s.st.pendingUpgrades = []
  waker : s.st.pumpWaker = true
  turn : turn = .complete

/-- Whenever the pump is suspended with the flag down, nothing is stranded. -/
theorem nothingStranded_suspended {s : Sys} {turn : Turn} (h : turns.Reachable (s, turn))
    (hpc : s.pump.pc = .suspended) (hk : s.st.pumpKicked = false) : NothingStranded s turn := by
  have hkept := turns_kept h hk
  dsimp only at hkept
  rw [hpc] at hkept
  obtain ⟨⟨hrelay, hudp, hchannel⟩, hrelays, hchannels, hupgrades⟩ := hkept.flushed
  exact ⟨hrelay, hudp, hchannel, hrelays, hchannels, hupgrades, hkept.parked rfl,
    hkept.turn nofun⟩

/-- After `bind` the pump is kicked, takes a whole turn, and comes to rest. -/
theorem nothingStranded_idle : ∃ (s : Sys) (turn : Turn), turns.Reachable (s, turn) ∧
    s.pump.pc = .suspended ∧ NothingStranded s turn := by
  obtain ⟨turn, hturn⟩ := turns_total (idle_reachable (.relayOnly "https://home.example") false 0)
  exact ⟨_, turn, hturn, rfl, nothingStranded_suspended hturn rfl rfl⟩

end IrohEndpoint
