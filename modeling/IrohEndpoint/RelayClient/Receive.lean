import IrohEndpoint.RelayClient.Basic

/-!
# The relay client as a transducer

Successive calls of `recv_datagram` return the datagrams of the messages, in order,
each once, whatever else the relay sends in between, and then the error of the
websocket. What is sent meanwhile are the answers to the pings, in order.

A message carries datagrams (`WsMessage.datagrams`), or asks for a pong
(`WsMessage.pong`), or is ignored. What a client still has to return, its pending
datagrams and those of the messages to come (`remaining`), loses its head at every call,
and the frames it has sent and those it will send (`frames`) do not change
(`recvLoop_cons`, `recvLoop_nil`).
-/

namespace IrohEndpoint

/-- The datagrams that a message carries. -/
def WsMessage.datagrams : WsMessage → List Datagram
  | .binary frame => receivedDatagrams frame
  | .string _ => []

/-- The pong that answers a message: that of a ping frame with a payload of 8 bytes,
    echoing it. -/
def WsMessage.pong : WsMessage → Option Bytes
  | .binary frame =>
    match splitTag frame with
    | some (tag, payload) => if tag = Tag.ping then (pingPayload payload).map encodePong else none
    | none => none
  | .string _ => none

namespace RelayClient

/-- The datagrams that are still to be returned, with the messages `inbound` to come. -/
def remaining (c : RelayClient) (inbound : List (Instant × WsMessage)) : List Datagram :=
  c.pending ++ inbound.flatMap fun m => m.2.datagrams

/-- The frames that were sent, and those that answer the messages `inbound` to come. -/
def frames (c : RelayClient) (inbound : List (Instant × WsMessage)) : List Bytes :=
  c.sent ++ inbound.filterMap fun m => m.2.pong

variable {c : RelayClient}

/-- While sends succeed, a message adds its datagrams to the pending ones, and is
    answered if it is a ping. -/
theorem onMessage_eq (hsend : ∀ n, c.sendError n = none) (now : Instant) (message : WsMessage) :
    c.onMessage now message = ({ c with
      lastInbound := now
      pending := c.pending ++ message.datagrams
      sent := c.sent ++ message.pong.toList }, none) := by
  cases message with
  | string text => simp [onMessage, WsMessage.datagrams, WsMessage.pong]
  | binary frame =>
    simp only [onMessage, onFrame, WsMessage.datagrams, WsMessage.pong, receivedDatagrams]
    cases splitTag frame with
    | none => simp
    | some split =>
      obtain ⟨tag, payload⟩ := split
      by_cases htag : tag = Tag.relayToClientDatagram ∨ tag = Tag.relayToClientDatagramBatch
      · -- A datagram or a batch is no ping.
        have hping : tag ≠ Tag.ping := by
          rcases htag with rfl | rfl <;> decide
        simp only [if_pos htag, if_neg hping]
        cases decodeRelayDatagrams payload (tag == Tag.relayToClientDatagramBatch) <;> simp
      · simp only [if_neg htag]
        by_cases hping : tag = Tag.ping
        · simp only [if_pos hping]
          cases pingPayload payload <;> simp [send, hsend]
        · simp [hping]

/-- A call returns the first of the datagrams that remain. -/
theorem recvLoop_cons (hsend : ∀ n, c.sendError n = none) {inbound : List (Instant × WsMessage)}
    {d : Datagram} {ds : List Datagram} (h : c.remaining inbound = d :: ds) :
    ∃ c', c.recvLoop inbound = (.ok d, c') ∧ c'.remaining c'.inbound = ds ∧
      c'.frames c'.inbound = c.frames inbound ∧ c'.sendError = c.sendError ∧
      c'.receiveError = c.receiveError := by
  induction inbound generalizing c with
  | nil =>
    rw [remaining, List.flatMap_nil, List.append_nil] at h
    unfold recvLoop
    rw [h]
    exact ⟨_, rfl, by simp [remaining], rfl, rfl, rfl⟩
  | cons m inbound ih =>
    unfold recvLoop
    cases hp : c.pending with
    | cons d' rest =>
      rw [remaining, hp, List.cons_append] at h
      cases h
      exact ⟨_, rfl, rfl, rfl, rfl, rfl⟩
    | nil =>
      -- Nothing is pending: the message is received, and the loop goes on.
      simp only [onMessage_eq hsend, hp, List.nil_append]
      rw [remaining, hp, List.nil_append, List.flatMap_cons] at h
      obtain ⟨c', hc', hds, hframes, hse, hre⟩ := ih (c := { c with
        lastInbound := m.1
        pending := m.2.datagrams
        sent := c.sent ++ m.2.pong.toList }) hsend h
      refine ⟨c', hc', hds, hframes.trans ?_, hse, hre⟩
      cases hpong : m.2.pong <;> simp [frames, hpong]

/-- When no datagram remains, a call returns the error, after all pings are answered. -/
theorem recvLoop_nil (hsend : ∀ n, c.sendError n = none) {inbound : List (Instant × WsMessage)}
    (h : c.remaining inbound = []) :
    ∃ c', c.recvLoop inbound = (.error ("relay: " ++ c.receiveError), c') ∧
      c'.sent = c.frames inbound := by
  obtain ⟨hp, hinbound⟩ := List.append_eq_nil_iff.1 h
  induction inbound generalizing c with
  | nil =>
    unfold recvLoop
    rw [hp]
    exact ⟨_, rfl, by simp [frames]⟩
  | cons m inbound ih =>
    rw [List.flatMap_cons, List.append_eq_nil_iff] at hinbound
    unfold recvLoop
    simp only [hp, onMessage_eq hsend, hinbound.1, List.append_nil]
    obtain ⟨c', hc', hsent⟩ := ih (c := { c with
      lastInbound := m.1
      pending := []
      sent := c.sent ++ m.2.pong.toList }) hsend (by simp [remaining, hinbound.2]) rfl hinbound.2
    refine ⟨c', hc', hsent.trans ?_⟩
    cases hpong : m.2.pong <;> simp [frames, hpong]

/-- Successive calls return the datagrams that remain, in order, and then the error; the
    frames sent by then answer every ping, in order. -/
theorem recvDatagrams_eq (c : RelayClient) (hsend : ∀ n, c.sendError n = none) :
    ∃ c', c.recvDatagrams ((c.remaining c.inbound).length + 1) =
        ((c.remaining c.inbound).map .ok ++ [.error ("relay: " ++ c.receiveError)], c') ∧
      c'.sent = c.frames c.inbound := by
  generalize hds : c.remaining c.inbound = ds
  induction ds generalizing c with
  | nil =>
    obtain ⟨c', hc', hsent⟩ := recvLoop_nil hsend hds
    exact ⟨c', by simp [recvDatagrams, recvDatagram, hc'], hsent⟩
  | cons d ds ih =>
    obtain ⟨c₁, hc₁, hds₁, hframes, hse, hre⟩ := recvLoop_cons hsend hds
    obtain ⟨c', hc', hsent⟩ := ih c₁ (by simpa [hse] using hsend) hds₁
    refine ⟨c', ?_, hsent.trans hframes⟩
    rw [List.length_cons, recvDatagrams, recvDatagram, hc₁]
    simp only [hc', List.map_cons, List.cons_append, hre]

/-- A text message, a truncated frame type, a ping, a batch of two datagrams, an ignored
    frame type and a single datagram: three calls return the datagrams, and the fourth the
    error. -/
theorem recvDatagrams_mixed :
    let source : EndpointId := Vector.replicate 32 7
    let c : RelayClient :=
      { inbound := [(1, .string "hello"), (1, .binary [0x40]), (2, .binary (9 :: List.replicate 8 42)),
          (2, .binary (7 :: source.toList ++ [3, 0, 2, 1, 2, 3])), (3, .binary [13, 0]),
          (3, .binary (6 :: source.toList ++ [3, 9]))]
        receiveError := "Closed"
        sendError := fun _ => none
        sent := []
        pending := []
        lastInbound := 0
        probe := none
        probeSeq := 0 }
    ∃ c', c.recvDatagrams 4 = ([.ok ⟨source, [1, 2]⟩, .ok ⟨source, [3]⟩, .ok ⟨source, [9]⟩,
        .error "relay: Closed"], c') ∧ c'.sent = [10 :: List.replicate 8 42] := by
  intro source c
  have hremaining : c.remaining c.inbound = [⟨source, [1, 2]⟩, ⟨source, [3]⟩, ⟨source, [9]⟩] := by
    decide +kernel
  have hframes : c.frames c.inbound = [10 :: List.replicate 8 42] := by decide +kernel
  have h := recvDatagrams_eq c fun _ => rfl
  rw [hremaining, hframes] at h
  exact h

end RelayClient

end IrohEndpoint
