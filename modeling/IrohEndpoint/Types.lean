import Mathlib.Algebra.Order.Ring.Nat
import Mathlib.Data.List.DropRight
import Mathlib.Data.Nat.Notation

/-!
# The types of the endpoint surface

The structural types of `polymorph:iroh/types`, the addresses the endpoint
computes with, and the constants of `endpoint_impl.rs`.

Instants and durations are nanoseconds. A relay connection and a channel wire
are known by their identity: the source shares them by `Rc` and compares them
by `Rc::ptr_eq`, so that equality here is being the same allocation.
-/

namespace IrohEndpoint

/-- A byte string. -/
abbrev Bytes := List UInt8

/-- An endpoint identity: the 32 bytes of an Ed25519 public key. -/
abbrev EndpointId := Vector UInt8 32

/-- A point of the monotonic clock, in nanoseconds. -/
abbrev Instant := ℕ

/-- A length of time, in nanoseconds. -/
abbrev Duration := ℕ

/-- The pool key of a relay, a `u32`. -/
abbrev RelayKey := ℕ

/-- The id of a channel, a `u32`. -/
abbrev ChannelId := ℕ

/-! ## Errors -/

/-- The errors of the endpoint surface. -/
inductive Error
  | closed
  | reset (code : ℕ)
  | connectFailed (detail : String)
  | timedOut (detail : String)
  | notSupported (detail : String)
  | inUse (detail : String)
  | invalidArgument (detail : String)
  | other (detail : String)
  deriving DecidableEq

/-- The contents of a received application close. -/
structure CloseInfo where
  code : ℕ
  reason : String
  deriving DecidableEq

/-- The lifecycle of a connection. -/
inductive ConnectionState
  | connecting
  | open
  | closed
  deriving DecidableEq

/-- The wire carrying a connection's packets. -/
inductive PathKind
  | relay
  | ip
  | webrtc
  deriving DecidableEq

/-- How a run of the model stops short: a panic of the code, or a behaviour
    that noq does not have. -/
inductive Fault
  /-- An addition on a fixed-width counter overflows: an error of the program,
      which a build with overflow checks stops at. -/
  | overflow
  /-- An index expression finds no entry, where the code panics. -/
  | missingKey
  /-- noq is asked for an event that it does not emit. -/
  | stuck
  deriving DecidableEq

/-- `n += 1` on a counter of `w` bits. -/
def bump (w n : ℕ) : Except Fault ℕ := if n + 1 < 2 ^ w then .ok (n + 1) else .error .overflow

/-! ## Addresses -/

/-- `std::net::SocketAddr`: an address, its port and, for IPv6, the flow
    information and the scope. -/
inductive SocketAddr
  | v4 (ip : Vector UInt8 4) (port : UInt16)
  | v6 (ip : Vector UInt16 8) (port : UInt16) (flowinfo scopeId : UInt32)
  deriving DecidableEq

/-- A synthetic socket address under the IPv6 documentation prefix:
    `2001:db8:<space>::<hi>:<lo>`, port 4433. -/
def docPrefixAddr (space : UInt16) (host : ℕ) : SocketAddr :=
  .v6 #v[0x2001, 0xdb8, space, 0, 0, 0, UInt16.ofNat (host >>> 16), UInt16.ofNat host] 4433 0 0

/-- One way a peer may be reached. -/
inductive TransportAddr
  | relay (url : String)
  | ip (text : String)
  | webrtc (url : String)
  | custom (id : ℕ) (data : Bytes)
  deriving DecidableEq

/-- Where to find a peer. -/
structure EndpointAddr where
  endpointId : Bytes
  addrs : List TransportAddr
  deriving DecidableEq

/-- The pool-key identity of a relay URL: trailing-slash-insensitive. -/
def normalizeRelayUrl (url : String) : String :=
  String.ofList (url.toList.rdropWhile (· == '/'))

/-! ## Wires -/

/-- A relay connection, by its identity. -/
structure RelayConn where
  id : ℕ
  deriving DecidableEq

/-- A WebRTC data channel with its peer connection, by its identity. -/
structure ChannelWire where
  id : ℕ
  deriving DecidableEq

/-- The wire behind one synthetic peer address. -/
inductive RouteWire
  | relay (key : RelayKey)
  | channel (id : ChannelId)
  deriving DecidableEq

/-! ## Constants -/

/-- The bounded window for final packets after `endpoint.close`. -/
def linger : Duration := 500000000

/-- The bound on connections toward `accept` that no acceptor has claimed. -/
def acceptBacklogBound : ℕ := 16

/-- The home relay's pool key. -/
def homeRelay : RelayKey := 0

/-- The first delay before a home-relay redial. -/
def redialMinDelay : Duration := 10000000

/-- The ceiling the redial backoff doubles up to. -/
def redialMaxDelay : Duration := 5000000000

/-- How long a home-relay connection must have been registered for its failure
    to count as a sound connection lost. -/
def redialEstablished : Duration := 10000000000

/-- The bound on one signaling dance. -/
def signalDeadline : Duration := 30000000000

/-- How long a second dialer of a relay waits for the first one's open. -/
def relayOpenDeadline : Duration := 30000000000

/-- The cap on one peer's unread signals. -/
def inboxCap : ℕ := 64

/-- The first byte of every signaling datagram on the relay. -/
def signalPrefix : UInt8 := 0x00

/-! ## Application codes and texts -/

/-- An application code as QUIC's variable-length integer: larger values
    saturate at `2^62 - 1`. -/
def appCode (code : ℕ) : ℕ := min code (2 ^ 62 - 1)

/-- The character that stands for an invalid sequence. -/
def replacementChar : Char := '\ufffd'

/-- `b` is between `lo` and `hi`. -/
def byteIn (lo hi b : UInt8) : Bool := lo ≤ b && b ≤ hi

/-- `b1` may follow the lead byte `b0` of a UTF-8 sequence. -/
def utf8Second (b0 b1 : UInt8) : Bool :=
  if b0 = 0xe0 then byteIn 0xa0 0xbf b1
  else if b0 = 0xed then byteIn 0x80 0x9f b1
  else if b0 = 0xf0 then byteIn 0x90 0xbf b1
  else if b0 = 0xf4 then byteIn 0x80 0x8f b1
  else byteIn 0x80 0xbf b1

/-- The payload of a continuation byte. -/
def utf8Payload (b : UInt8) : ℕ := (b &&& 0x3f).toNat

/-- The characters of a byte string, each maximal invalid sequence replaced by
    one `replacementChar`. -/
def lossyChars : Bytes → List Char
  | [] => []
  | b0 :: rest =>
    if b0 < 0x80 then Char.ofNat b0.toNat :: lossyChars rest
    else if byteIn 0xc2 0xf4 b0 then
      match rest with
      | [] => [replacementChar]
      | b1 :: rest1 =>
        if !utf8Second b0 b1 then replacementChar :: lossyChars (b1 :: rest1)
        else if b0 < 0xe0 then
          Char.ofNat ((b0 &&& 0x1f).toNat * 2 ^ 6 + utf8Payload b1) :: lossyChars rest1
        else match rest1 with
          | [] => [replacementChar]
          | b2 :: rest2 =>
            if !byteIn 0x80 0xbf b2 then replacementChar :: lossyChars (b2 :: rest2)
            else if b0 < 0xf0 then
              Char.ofNat ((b0 &&& 0x0f).toNat * 2 ^ 12 + utf8Payload b1 * 2 ^ 6 + utf8Payload b2)
                :: lossyChars rest2
            else match rest2 with
              | [] => [replacementChar]
              | b3 :: rest3 =>
                if !byteIn 0x80 0xbf b3 then replacementChar :: lossyChars (b3 :: rest3)
                else
                  Char.ofNat ((b0 &&& 0x07).toNat * 2 ^ 18 + utf8Payload b1 * 2 ^ 12 +
                    utf8Payload b2 * 2 ^ 6 + utf8Payload b3) :: lossyChars rest3
    else replacementChar :: lossyChars rest

/-- `String::from_utf8_lossy`. -/
def fromUtf8Lossy (bytes : Bytes) : String := String.ofList (lossyChars bytes)

end IrohEndpoint
