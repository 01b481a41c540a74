import IrohEndpoint.Intake
import IrohEndpoint.Ownership

/-!
# What a closed connection reports

The entry of a connection stays in the table when the connection is closed, and
is what `wait_closed`, `peer`, `alpn` and the reads of its streams are answered
from. noq hands out the slot of a drained connection again, and the entry of the
new connection takes the place of the old one: the old one then reports nothing
(`not_sameReports_reused`).

Along a run whose steps concern other connections (`Sys.Elsewhere`), a closed
connection reports the same at the end as at the start exactly if its entry was
gone already, or no connection was made in its slot (`sameReports_iff`).
-/

namespace IrohEndpoint

open Transition State

/-- The connection reports the same in `s'` as in `s`, and so do its streams,
    whatever noq has delivered on them. -/
structure SameReports (s s' : Sys) (res : ConnectionRes) : Prop where
  waitClosed : s'.st.waitClosedCheck res.handle res.epoch =
    s.st.waitClosedCheck res.handle res.epoch
  peer : s'.st.connectionPeer res.handle res.epoch = s.st.connectionPeer res.handle res.epoch
  alpn : s'.st.connectionAlpn res.handle res.epoch = s.st.connectionAlpn res.handle res.epoch
  read : ∀ stream ∈ s.streams, stream.stamp = res.stamp → ∀ answer,
    (s'.st.readSomeCheck stream.handle stream.epoch answer).2 =
      (s.st.readSomeCheck stream.handle stream.epoch answer).2

/-- A step that is not about the connection `res`: it polls no event of it. -/
def Sys.Elsewhere (res : ConnectionRes) (s s' : Sys) : Prop :=
  (∃ polling, s.Drains s' polling) → ∃ polling, s.Drains s' polling ∧
    ∀ e, s.st.entryFor res.handle res.epoch = some e → (polling res.handle).events = []

/-! ## One step -/

/-- The entry `e` may become `e'` without reporting anything else. -/
structure ConnEntry.Stays (e e' : ConnEntry) : Prop where
  epoch : e'.epoch = e.epoch
  peer : e'.peer = e.peer
  alpn : e'.alpn = e.alpn
  error : e'.error = e.error
  peerClose : e'.peerClose = e.peerClose
  drained : e.drained = true → e'.drained = true

/-- The entry is that of a closed connection. -/
def ConnEntry.Ended (e : ConnEntry) : Prop := e.drained = true ∨ e.error ≠ none

namespace ConnEntry

variable {e e' e'' : ConnEntry}

theorem Stays.refl (e : ConnEntry) : Stays e e := ⟨rfl, rfl, rfl, rfl, rfl, id⟩

theorem Stays.trans (h : Stays e e') (h' : Stays e' e'') : Stays e e'' where
  epoch := h'.epoch.trans h.epoch
  peer := h'.peer.trans h.peer
  alpn := h'.alpn.trans h.alpn
  error := h'.error.trans h.error
  peerClose := h'.peerClose.trans h.peerClose
  drained := h'.drained ∘ h.drained

/-- A closed connection stays closed. -/
theorem Stays.ended (h : Stays e e') (he : e.Ended) : e'.Ended :=
  he.imp h.drained fun hne => h.error ▸ hne

end ConnEntry

/-- What one step does to the entry under a stamp: it stays and no connection is
    made in its slot, or its slot is taken. -/
def State.Moves (handle : ConnectionHandle) (epoch : ℕ) (s s' : State) (e : ConnEntry) : Prop :=
  ∃ made, s'.insertions = s.insertions ++ made ∧
    (((∀ i ∈ made, i.handle ≠ handle) ∧ ∃ e', s'.entryFor handle epoch = some e' ∧ e.Stays e') ∨
      ((∃ i ∈ made, i.handle = handle) ∧ s'.entryFor handle epoch = none))

section Moves

variable {handle : ConnectionHandle} {epoch : ℕ} {s s' : State} {e e' : ConnEntry}

/-- The entry stays, and no connection is made. -/
theorem State.Moves.of_stays (hins : s'.insertions = s.insertions)
    (he : s.entryFor handle epoch = some e) (hl : s'.conns.lookup handle = some e')
    (hs : e.Stays e') : Moves handle epoch s s' e := by
  refine ⟨[], by rw [hins, List.append_nil], .inl ⟨by simp, e', ?_, hs⟩⟩
  exact entryFor_iff.2 ⟨hl, hs.epoch.trans (entryFor_iff.1 he).2⟩

/-- What a step does to the desk concerns an entry only if it takes its slot. -/
theorem State.Acts.moves (h : s.Acts s'.desk) (he : s.entryFor handle epoch = some e)
    (hlt : epoch < s.nextConnEpoch) : Moves handle epoch s s' e := by
  obtain ⟨hl, hepoch⟩ := entryFor_iff.1 he
  generalize hd : s'.desk = d at h
  have hconns : s'.conns = d.conns := congrArg Desk.conns hd
  have hins : s'.insertions = d.insertions := congrArg Desk.insertions hd
  cases h with
  | rest | skipped =>
    refine .of_stays hins he ?_ (.refl e)
    rw [hconns]
    exact hl
  | @inserted handle' origin remote =>
    refine ⟨_, hins, ?_⟩
    by_cases hh : handle' = handle
    · -- The slot is taken, under a stamp that was not used before.
      refine .inr ⟨⟨_, List.mem_singleton_self _, hh⟩, ?_⟩
      rw [entryFor, hconns, hh, AList.lookup_insert, Option.filter_some, if_neg]
      simpa [ConnEntry.new] using Nat.ne_of_gt hlt
    · refine .inl ⟨by simpa using hh, e, entryFor_iff.2 ⟨?_, hepoch⟩, .refl e⟩
      rw [hconns, AList.lookup_insert_ne (Ne.symm hh), hl]
  | @closed conns closeCall hclosed =>
    refine @State.Moves.of_stays _ _ _ _ _
      { e with conn := { e.conn with closeCall := closeCall handle e } } hins he ?_
      ⟨rfl, rfl, rfl, rfl, rfl, id⟩
    rw [hconns, hclosed, hl, Option.map_some]

end Moves

/-- A step that polls no event of a connection leaves its entry as it is, or takes
    its slot. -/
theorem Step.moves {s s' : Sys} (h : Step s s') {res : ConnectionRes} (hw : s.Elsewhere res s')
    {e : ConnEntry} (he : s.st.entryFor res.handle res.epoch = some e)
    (hlt : res.epoch < s.st.nextConnEpoch) :
    State.Moves res.handle res.epoch s.st s'.st e := by
  obtain ⟨hl, hepoch⟩ := entryFor_iff.1 he
  rcases h.acts with hd | ⟨stamp, _, st, _, -, hc, -, rfl⟩ | ⟨res', dir, id, _, st, -, -, hc, rfl⟩ |
    hacts
  · obtain ⟨polling, hd, hnone⟩ := hw hd
    obtain ⟨-, hins, queued, -, -, hheard⟩ := hd.hear
    obtain ⟨e', hhear, hl'⟩ := hheard res.handle e hl
    rw [hnone e he] at hhear
    obtain rfl : e = e' := congrArg Prod.fst (Option.some.inj hhear)
    refine .of_stays hins he hl' ⟨rfl, rfl, rfl, rfl, rfl, fun hd => ?_⟩
    rw [ConnEntry.mark, hd, Bool.true_or]
  · obtain ⟨stale, rest, _, -, -, -, rfl⟩ := acceptCheck_ok hc
    exact .of_stays rfl he hl (.refl e)
  · obtain ⟨x, rest, hx, -, rfl⟩ := acceptStreamCheck_ok hc
    by_cases hh : res.handle = res'.handle
    · rw [hh] at hl
      cases Option.some.inj (hl.symm.trans (entryFor_iff.1 hx).1)
      refine @State.Moves.of_stays _ _ _ _ _ (e.setQueue dir rest) rfl he ?_ ?_
      · rw [hh]
        exact AList.lookup_insert _
      · cases dir <;> exact ⟨rfl, rfl, rfl, rfl, rfl, fun h => h⟩
    · refine .of_stays rfl he ?_ (.refl e)
      exact (AList.lookup_insert_ne hh).trans hl
  · exact hacts.moves he hlt

/-! ## A whole run -/

section Run

variable {s s' : Sys} {res : ConnectionRes} {e : ConnEntry}

/-- What a run of such steps does to the entry of a connection. -/
theorem moves_of_leads (hs : endpoint.Reachable s)
    (hl : (endpoint.restrict (Sys.Elsewhere res)).Leads s s')
    (he : s.st.entryFor res.handle res.epoch = some e) (hlt : res.epoch < s.st.nextConnEpoch) :
    State.Moves res.handle res.epoch s.st s'.st e := by
  induction hl with
  | refl => exact .of_stays rfl he (entryFor_iff.1 he).1 (.refl e)
  | @tail m m' hlm hst ih =>
    have hleads : endpoint.Leads s m := System.Leads.of_restrict hlm
    have hm := hs.leads hleads
    have hltm : res.epoch < m.st.nextConnEpoch :=
      lt_of_lt_of_le hlt (ledger_advances hs hleads).epoch
    obtain ⟨made, hmade, ⟨hother, e₁, he₁, hs₁⟩ | ⟨hreused, hgone⟩⟩ := ih
    · obtain ⟨made', hmade', hmoves⟩ := Step.moves hst.1 hst.2 he₁ hltm
      refine ⟨made ++ made', by rw [hmade', hmade, List.append_assoc], ?_⟩
      rcases hmoves with ⟨hother', e₂, he₂, hs₂⟩ | ⟨⟨i, hi, hh⟩, hgone⟩
      · refine .inl ⟨fun i hi => ?_, e₂, he₂, hs₁.trans hs₂⟩
        exact (List.mem_append.1 hi).elim (hother i) (hother' i)
      · exact .inr ⟨⟨i, List.mem_append_right _ hi, hh⟩, hgone⟩
    · -- What is gone stays gone.
      obtain ⟨made', hmade'⟩ := Step.insertions hst.1
      obtain ⟨i, hi, hh⟩ := hreused
      exact ⟨made ++ made', by rw [hmade', hmade, List.append_assoc],
        .inr ⟨⟨i, List.mem_append_left _ hi, hh⟩, entryFor_gone hm (.single hst.1) hltm hgone⟩⟩

/-- A closed connection is found with an entry that has ended, or not at all. -/
theorem ended_of_closed (hc : s.st.connectionState res.handle res.epoch = .closed)
    (he : s.st.entryFor res.handle res.epoch = some e) : e.Ended := by
  rw [State.connectionState, he] at hc
  dsimp only at hc
  split at hc <;> rename_i hdead
  · rwa [Bool.or_eq_true, Option.isSome_iff_ne_none] at hdead
  · split at hc <;> cases hc

/-- An entry that has ended and stays is reported the same. -/
theorem sameReports_of_stays {e' : ConnEntry} (he : s.st.entryFor res.handle res.epoch = some e)
    (he' : s'.st.entryFor res.handle res.epoch = some e') (hs : e.Stays e') (hend : e.Ended) :
    SameReports s s' res := by
  have hdead : ∀ {x : ConnEntry}, x.Ended → (x.drained || x.error.isSome) = true := by
    intro x hx
    rwa [Bool.or_eq_true, Option.isSome_iff_ne_none]
  refine ⟨?_, ?_, ?_, fun stream _ hstamp answer => ?_⟩
  · rw [waitClosedCheck, waitClosedCheck, he, he']
    dsimp only
    rw [if_pos (hdead hend), if_pos (hdead (hs.ended hend)), hs.peerClose]
  · rw [connectionPeer, connectionPeer, he, he']
    dsimp only
    rw [hs.peer]
  · rw [connectionAlpn, connectionAlpn, he, he']
    dsimp only
    rw [hs.alpn]
  · obtain ⟨hh, hep⟩ := Prod.mk.inj hstamp
    rw [hh, hep, readSomeCheck, readSomeCheck, he, he']
    cases answer <;> simp only [hs.error]

/-- A connection whose entry is gone reports nothing. -/
theorem sameReports_of_gone (he : s.st.entryFor res.handle res.epoch = none)
    (he' : s'.st.entryFor res.handle res.epoch = none) : SameReports s s' res := by
  refine ⟨?_, ?_, ?_, fun stream _ hstamp answer => ?_⟩
  · rw [waitClosedCheck, waitClosedCheck, he, he']
  · rw [connectionPeer, connectionPeer, he, he']
  · rw [connectionAlpn, connectionAlpn, he, he']
  · obtain ⟨hh, hep⟩ := Prod.mk.inj hstamp
    rw [hh, hep, readSomeCheck, readSomeCheck, he, he']

/-- A connection that the application holds reports the key of its peer, until its
    entry is gone. -/
theorem connectionPeer_ne_nil (hs : endpoint.Reachable s) {rid : ResId}
    (hr : s.connections.lookup rid = some res)
    (he : s.st.entryFor res.handle res.epoch = some e) :
    s.st.connectionPeer res.handle res.epoch ≠ [] := by
  have hi := ledger_inv hs
  have hcur := (entryFor_eq_some (h := s.holders)).1 he
  have hconn := hi.handed res.stamp (mem_resourcesOf.2 ⟨rid, res, hr, rfl⟩) e hcur
  obtain ⟨_, k, -, -, hk, -⟩ := (hi.sound res.handle e hcur.1).authenticated hconn
  rw [connectionPeer, he]
  dsimp only
  rw [hk, Option.map_some, Option.getD_some]
  intro hnil
  have hlength := congrArg List.length hnil
  rw [Vector.length_toList] at hlength
  cases hlength

end Run

/-- A connection that is closed, along steps that are about other connections,
    reports the same at the end exactly if it reported nothing already, or no
    connection was made in its slot. -/
theorem sameReports_iff {s s' : Sys} (hs : endpoint.Reachable s) {rid : ResId}
    {res : ConnectionRes} (hr : s.connections.lookup rid = some res)
    (hc : s.st.connectionState res.handle res.epoch = .closed)
    (hl : (endpoint.restrict (Sys.Elsewhere res)).Leads s s') :
    SameReports s s' res ↔ s.st.entryFor res.handle res.epoch = none ∨
      ∀ i ∈ s'.st.insertions.drop s.st.insertions.length, i.handle ≠ res.handle := by
  have hlt : res.epoch < s.st.nextConnEpoch :=
    (ledger_inv hs).held_lt (Sys.Holds.held (.connection hr))
  cases he : s.st.entryFor res.handle res.epoch with
  | none =>
    have hgone := entryFor_gone hs (System.Leads.of_restrict hl) hlt he
    exact ⟨fun _ => .inl rfl, fun _ => sameReports_of_gone he hgone⟩
  | some e =>
    obtain ⟨made, hmade, hmoves⟩ := moves_of_leads hs hl he hlt
    rw [hmade, List.drop_left]
    rcases hmoves with ⟨hother, e', he', hstays⟩ | ⟨⟨i, hi, hh⟩, hgone⟩
    · exact ⟨fun _ => .inr hother,
        fun _ => sameReports_of_stays he he' hstays (ended_of_closed hc he)⟩
    · constructor
      · intro hsame
        have hpeer := hsame.peer
        rw [connectionPeer, hgone] at hpeer
        exact absurd hpeer.symm (connectionPeer_ne_nil hs hr he)
      · rintro (hnone | hother)
        · cases hnone
        · exact absurd hh (hother i hi)

/-- A step that polls no connection is about other connections. -/
theorem Sys.Still.elsewhere {s s' : Sys} (h : s.Still s') (res : ConnectionRes) :
    s.Elsewhere res s' := by
  rintro ⟨polling, hd⟩
  refine ⟨polling, hd, fun e he => ?_⟩
  rw [entryFor, h.unpolled hd.1] at he
  cases he

/-- The endpoint when the peer of its first connection has closed it with the code
    7, and the connection has drained. -/
def Sys.peerClosed : Sys :=
  let s := Sys.accepted (Vector.replicate 32 7)
  { s with
    st := { s.st with
      conns := AList.insert 0 { ConnEntry.first (Vector.replicate 32 7) with
        error := some .closed
        peerClose := some ⟨7, ""⟩
        drained := true } ∅ }
    pump := { s.pump with pc := .flushRelay } }

/-- A connection can be closed by its peer. -/
theorem peerClosed_reachable : endpoint.Reachable Sys.peerClosed := by
  have htick := accepted_reachable.step (.pump (@PumpStep.tick _ (fun _ => .healthy) none rfl rfl))
  have hlost := htick.step (.pump (@PumpStep.drain _
    (fun _ => ⟨[⟨0, [.connectionLost (.applicationClosed 7 [])], []⟩], true⟩) _ _ rfl rfl))
  exact hlost

/-- The pump goes back to its select, about no connection. -/
theorem peerClosed_leads : (endpoint.restrict (Sys.Elsewhere ⟨0, 0⟩)).Leads Sys.peerClosed
    (Sys.peerClosed.goto .polling) :=
  System.Leads.weaken (fun _ _ h => h.elsewhere ⟨0, 0⟩)
    (select_leads (s := Sys.peerClosed) rfl rfl rfl rfl rfl rfl)

/-- Once its peer has closed it, another peer connects, in another slot, and its
    handshake completes: the connection reports the same. -/
theorem sameReports_peerClosed : ∃ s' : Sys, s'.st.acceptQueue = [(1, 1)] ∧
    s'.st.waitClosedCheck 0 0 = some (some ⟨7, ""⟩) ∧ SameReports Sys.peerClosed s' ⟨0, 0⟩ := by
  let session : CryptoSession := ⟨none, some (Vector.replicate 32 8)⟩
  let polling : ConnectionHandle → Polling := fun handle =>
    if handle = 1 then ⟨[⟨0, [.connected session], []⟩], false⟩ else ⟨[], false⟩
  have hdatagram : Step (Sys.peerClosed.goto .polling) _ := .pump (@PumpStep.relayDatagram _
    homeRelay ⟨0⟩ (Vector.replicate 32 8) [] (.newConnection [] (.ok 1)) _ rfl rfl List.mem_cons_self
    rfl rfl)
  have hother := peerClosed_leads.tail ⟨hdatagram, fun ⟨_, hd⟩ => nomatch hd.1⟩
  have hconnected := hother.tail ⟨.pump (@PumpStep.drain _ polling _ _ rfl rfl),
    fun _ => ⟨polling, ⟨rfl, _, _, rfl, by exact rfl⟩, fun _ _ => rfl⟩⟩
  exact ⟨_, rfl, rfl, (@sameReports_iff _ _ peerClosed_reachable 0 _ rfl rfl hconnected).2
    (.inr (by decide))⟩

/-- Once its peer has closed it, another peer connects, in the same slot: the close
    of the connection is forgotten. -/
theorem not_sameReports_reused : ∃ s s' : Sys, endpoint.Reachable s ∧
    s.connections.lookup 0 = some ⟨0, 0⟩ ∧ s.st.connectionState 0 0 = .closed ∧
    (endpoint.restrict (Sys.Elsewhere ⟨0, 0⟩)).Leads s s' ∧
    s.st.waitClosedCheck 0 0 = some (some ⟨7, ""⟩) ∧ s'.st.waitClosedCheck 0 0 = some none ∧
    ¬SameReports s s' ⟨0, 0⟩ := by
  have hdatagram : Step (Sys.peerClosed.goto .polling) _ := .pump (@PumpStep.relayDatagram _
    homeRelay ⟨0⟩ (Vector.replicate 32 8) [] (.newConnection [] (.ok 0)) _ rfl rfl List.mem_cons_self
    rfl rfl)
  have hreused := peerClosed_leads.tail ⟨hdatagram, fun ⟨_, hd⟩ => nomatch hd.1⟩
  refine ⟨_, _, peerClosed_reachable, rfl, rfl, hreused, rfl, rfl, fun h => ?_⟩
  cases h.waitClosed

end IrohEndpoint
