import IrohEndpoint.Types

/-!
# Relay frames

The wire framing of the relay protocol (`relay_frames.rs`), as far as datagrams
need it. A frame is one binary websocket message: a frame type, as a QUIC
variable-length integer, followed by the frame payload.

* `encodeClientDatagram` is the frame a client sends a datagram in: the type,
  the 32 bytes of the destination, the ECN byte and the contents;
* `relayDatagramFrame` is the frame the relay delivers it in, with the source in
  the place of the destination;
* `receivedDatagrams` is what `recv_datagram` takes out of a frame, and
  `receivedDatagrams_relayDatagramFrame` that it takes out the datagram that the
  relay put in.
-/

namespace IrohEndpoint

/-! ## Frame types -/

namespace Tag

def clientToRelayDatagram : UInt64 := 4
def relayToClientDatagram : UInt64 := 6
def relayToClientDatagramBatch : UInt64 := 7

end Tag

/-- Split the frame type off the front of a frame. -/
def splitTag : Bytes → Option (UInt64 × Bytes)
  | [] => none
  | first :: rest =>
    let len := 1 <<< (first >>> 6).toNat
    if (first :: rest).length < len then none
    else
      let value := (rest.take (len - 1)).foldl
        (fun (value : UInt64) byte => (value <<< 8) ||| byte.toUInt64) (first &&& 0x3f).toUInt64
      some (value, (first :: rest).drop len)

/-- A frame type below 64 is one byte. -/
theorem splitTag_cons {first : UInt8} (h : first < 64) (rest : Bytes) :
    splitTag (first :: rest) = some (first.toUInt64, rest) := by
  have hlt : first.toNat < 64 := UInt8.lt_iff_toNat_lt.1 h
  have hlen : first >>> 6 = 0 := by
    apply UInt8.toNat_inj.1
    rw [UInt8.toNat_shiftRight, Nat.shiftRight_eq_div_pow]
    exact Nat.div_eq_of_lt hlt
  have hvalue : first &&& 0x3f = first := by
    apply UInt8.toNat_inj.1
    rw [UInt8.toNat_and]
    exact (Nat.and_two_pow_sub_one_eq_mod first.toNat 6).trans (Nat.mod_eq_of_lt hlt)
  simp [splitTag, hlen, hvalue]

/-! ## Datagrams -/

/-- One relayed datagram: the sender and the contents. -/
structure Datagram where
  source : EndpointId
  payload : Bytes
  deriving DecidableEq

/-- Encode a `client-to-relay-datagram` frame: a single datagram, ECN 0. -/
def encodeClientDatagram (dst : EndpointId) (payload : Bytes) : Bytes :=
  Tag.clientToRelayDatagram.toUInt8 :: dst.toList ++ 0 :: payload

/-- The frame type of a datagram that a client sends. -/
theorem splitTag_encodeClientDatagram (dst : EndpointId) (payload : Bytes) :
    splitTag (encodeClientDatagram dst payload) =
      some (Tag.clientToRelayDatagram, dst.toList ++ 0 :: payload) :=
  splitTag_cons (by decide) _

/-- The `relay-to-client-datagram` frame of a single datagram. -/
def relayDatagramFrame (source : EndpointId) (ecn : UInt8) (payload : Bytes) : Bytes :=
  Tag.relayToClientDatagram.toUInt8 :: source.toList ++ ecn :: payload

/-- A byte string as the 32 bytes of an identity. -/
def EndpointId.ofSlice (bytes : Bytes) : Option EndpointId :=
  if h : bytes.length = 32 then some ⟨bytes.toArray, h⟩ else none

theorem EndpointId.ofSlice_toList (id : EndpointId) : ofSlice id.toList = some id := by
  rw [ofSlice, dif_pos id.length_toList]
  rfl

/-- `slice::chunks`: the consecutive pieces of length `n` of a byte string, the last
    one shorter if `n` does not divide the length. -/
def chunks (n : ℕ) (bytes : Bytes) : List Bytes :=
  match n, bytes with
  | 0, _ | _ + 1, [] => []
  | n + 1, b :: rest => (b :: rest).take (n + 1) :: chunks (n + 1) ((b :: rest).drop (n + 1))
termination_by bytes.length

/-- Decode the payload of a `relay-to-client-datagram` frame or of a batch of them
    into individual datagrams. -/
def decodeRelayDatagrams (payload : Bytes) (batch : Bool) : Option (List Datagram) := do
  let source ← EndpointId.ofSlice (payload.take 32)
  let rest := payload.drop 32
  if batch then
    let hi ← rest[1]?
    let lo ← rest[2]?
    let segmentSize := hi.toNat * 256 + lo.toNat
    if segmentSize = 0 then none
    else some ((chunks segmentSize (rest.drop 3)).map fun chunk => ⟨source, chunk⟩)
  else if rest = [] then none
  else some [⟨source, rest.drop 1⟩]

/-- The datagrams that `recv_datagram` takes out of a frame. A frame that is
    malformed, or of another type, carries none. -/
def receivedDatagrams (frame : Bytes) : List Datagram :=
  match splitTag frame with
  | some (tag, payload) =>
    if tag = Tag.relayToClientDatagram ∨ tag = Tag.relayToClientDatagramBatch then
      (decodeRelayDatagrams payload (tag == Tag.relayToClientDatagramBatch)).getD []
    else []
  | none => []

/-- The payload of a frame with a single datagram is decoded to it. -/
theorem decodeRelayDatagrams_single (source : EndpointId) (ecn : UInt8) (payload : Bytes) :
    decodeRelayDatagrams (source.toList ++ ecn :: payload) false = some [⟨source, payload⟩] := by
  have htake : (source.toList ++ ecn :: payload).take 32 = source.toList :=
    List.take_left' source.length_toList
  have hdrop : (source.toList ++ ecn :: payload).drop 32 = ecn :: payload :=
    List.drop_left' source.length_toList
  rw [decodeRelayDatagrams, htake, hdrop, EndpointId.ofSlice_toList]
  rfl

/-- What the relay puts in a frame is what is received. -/
theorem receivedDatagrams_relayDatagramFrame (source : EndpointId) (ecn : UInt8)
    (payload : Bytes) :
    receivedDatagrams (relayDatagramFrame source ecn payload) = [⟨source, payload⟩] := by
  have htag : splitTag (relayDatagramFrame source ecn payload) =
      some (Tag.relayToClientDatagram, source.toList ++ ecn :: payload) :=
    splitTag_cons (by decide) _
  rw [receivedDatagrams, htag]
  dsimp only
  rw [if_pos (.inl rfl), show (Tag.relayToClientDatagram == Tag.relayToClientDatagramBatch) = false
    from rfl, decodeRelayDatagrams_single]
  rfl

end IrohEndpoint
