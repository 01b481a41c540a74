import IrohEndpoint.RelayClient.Receive
import IrohEndpoint.RelayUrl

/-!
# The relay handshake

How a relay client comes to be (`RelayConn::connect` in `relay.rs`): a websocket to the relay
is opened, and its messages are received until the relay confirms that it has authenticated
the client. The relay asks with a challenge, which the client answers with its key and a
signature. Text messages are skipped, and everything else ends the handshake.

What the outside does is free, as for a connected client: the websocket, and how the identity
answers each `sign`. `blake3` and `postcard` are outside this development.

* The identity signs keys that are derived from challenges, in the order of the challenges, and
  nothing else; every frame that is sent holds one of these signatures; a client is only made
  of a websocket on which the relay has confirmed, after every challenge was answered; and a
  handshake that fails reports the error of the step that failed (`handshake_sound`).
* If the identity signs and sends succeed, a client is made exactly if the relay confirms before
  it sends anything else than texts and challenges. Its calls of `recv_datagram` return what the
  relay sends from then on, and nothing of before (`handshake_session`).
-/

namespace IrohEndpoint

namespace Tag

def serverChallenge : UInt64 := 0
def clientAuth : UInt64 := 1
def serverConfirmsAuth : UInt64 := 2
def serverDeniesAuth : UInt64 := 3

end Tag

/-- The domain that a challenge is signed in. -/
def challengeDomain : String := "iroh-relay handshake v1 challenge signature"

/-- The websocket subprotocols that are offered, newest first. -/
def subprotocols : List String := ["iroh-relay-v2", "iroh-relay-v1"]

/-- A byte string as `n` bytes, if it has that length. -/
def sized (n : ℕ) (bytes : Bytes) : Option (Vector UInt8 n) :=
  if h : bytes.length = n then some ⟨bytes.toArray, h⟩ else none

/-- Only bytes of the length `n` are `n` bytes. -/
theorem sized_length {n : ℕ} {bytes : Bytes} {v : Vector UInt8 n} (h : sized n bytes = some v) :
    bytes.length = n := by
  rw [sized] at h
  split at h
  · assumption
  · cases h

/-- Bytes that are not `n` bytes are more, or fewer. -/
theorem sized_none {n : ℕ} {bytes : Bytes} (h : sized n bytes = none) : bytes.length ≠ n := by
  intro hlength
  rw [sized, dif_pos hlength] at h
  cases h

/-- Encode a `client-auth` frame: the key, and the signature with its length before it. -/
def encodeClientAuth (publicKey : EndpointId) (signature : Vector UInt8 64) : Bytes :=
  Tag.clientAuth.toUInt8 :: publicKey.toList ++ 64 :: signature.toList

/-! ## The handshake -/

/-- A websocket that was opened: what it will receive, and how it answers a send, as in
    `RelayClient`. -/
structure Websocket where
  inbound : List (Instant × WsMessage)
  receiveError : String
  sendError : ℕ → Option String

/-- Who dials a relay, with the libraries that it uses. -/
structure Dialer where
  endpointId : EndpointId
  /-- How the identity answers its `n`-th `sign`. -/
  sign : ℕ → Bytes → Except String Bytes
  /-- `blake3::derive_key`. -/
  deriveKey : String → Bytes → Bytes
  /-- `postcard::from_bytes`, for a string. -/
  postcardString : Bytes → Option String

/-- A handshake: its websocket, the frames that were sent, and what the identity was asked to
    sign. -/
structure Handshake extends Websocket where
  sent : List Bytes
  signed : List Bytes

namespace Handshake

/-- A handshake on a websocket that was just opened. -/
def new (ws : Websocket) : Handshake := { ws with sent := [], signed := [] }

/-- Send a frame. -/
def send (h : Handshake) (frame : Bytes) : Handshake × Except String Unit :=
  match h.sendError h.sent.length with
  | some e => (h, .error ("relay handshake: " ++ e))
  | none => ({ h with sent := h.sent ++ [frame] }, .ok ())

/-- The client that is made once the relay has confirmed. -/
def client (h : Handshake) (now : Instant) (inbound : List (Instant × WsMessage)) :
    RelayClient where
  inbound := inbound
  receiveError := h.receiveError
  sendError := h.sendError
  sent := h.sent
  pending := []
  lastInbound := now
  probe := none
  probeSeq := 0

end Handshake

namespace Dialer

variable (d : Dialer)

/-- What is signed for a challenge. -/
def message (challenge : Vector UInt8 16) : Bytes := d.deriveKey challengeDomain challenge.toList

/-- Decode the reason of a denial, or take it lossily. -/
def decodeDenialReason (payload : Bytes) : String :=
  (d.postcardString payload).getD (fromUtf8Lossy payload)

/-- Answer a challenge. -/
def answerChallenge (h : Handshake) (challenge : Vector UInt8 16) :
    Handshake × Except String Unit :=
  let asked := { h with signed := h.signed ++ [d.message challenge] }
  match d.sign h.signed.length (d.message challenge) with
  | .error e => (asked, .error e)
  | .ok bytes =>
    match sized 64 bytes with
    | none => (asked, .error "identity produced a non-64-byte signature")
    | some signature => asked.send (encodeClientAuth d.endpointId signature)

/-- What the handshake does with a message; whether the relay has confirmed. -/
def onMessage (h : Handshake) : WsMessage → Handshake × Except String Bool
  | .string _ => (h, .ok false)
  | .binary frame =>
    match splitTag frame with
    | none => (h, .error "relay handshake: empty frame")
    | some (tag, payload) =>
      if tag = Tag.serverChallenge then
        match sized 16 payload with
        | none => (h, .error "relay handshake: malformed challenge")
        | some challenge =>
          let (h, result) := d.answerChallenge h challenge
          (h, result.map fun _ => false)
      else if tag = Tag.serverConfirmsAuth then (h, .ok true)
      else if tag = Tag.serverDeniesAuth then
        (h, .error ("relay denied auth: " ++ d.decodeDenialReason payload))
      else (h, .error ("relay handshake: unexpected frame type " ++ toString tag))

/-- The loop of the handshake, over the messages that are received. -/
def handshake : List (Instant × WsMessage) → Handshake → Handshake × Except String RelayClient
  | [], h => (h, .error ("relay handshake: " ++ h.receiveError))
  | (now, message) :: inbound, h =>
    match d.onMessage h message with
    | (h, .ok false) => handshake inbound h
    | (h, .ok true) => (h, .ok (h.client now inbound))
    | (h, .error e) => (h, .error e)

/-- Connect to the relay at `server`, and run the handshake. `opens` is `Websocket::connect`,
    and `unprintable` the characters that a debug string escapes. -/
def connect (unprintable : Char → Bool) (opens : String → List String → Except String Websocket)
    (server : String) : Except String RelayClient := do
  let url ← relayUrl unprintable server
  let ws ← (opens url subprotocols).mapError fun e => "relay connect: " ++ e
  (d.handshake ws.inbound (.new ws)).2

end Dialer

/-! ## What the messages of the relay are -/

namespace WsMessage

/-- The challenge that a message carries. -/
def challenge : WsMessage → Option (Vector UInt8 16)
  | .binary frame =>
    match splitTag frame with
    | some (tag, payload) => if tag = Tag.serverChallenge then sized 16 payload else none
    | none => none
  | .string _ => none

/-- The handshake goes on after a text, and after a challenge. -/
def Asks (message : WsMessage) : Prop :=
  (∃ text, message = .string text) ∨ ∃ challenge, message.challenge = some challenge

/-- The relay confirms that it has authenticated the client. -/
def Confirms (message : WsMessage) : Prop :=
  ∃ frame payload, message = .binary frame ∧
    splitTag frame = some (Tag.serverConfirmsAuth, payload)

/-- A binary message that asks for something carries a challenge of 16 bytes. -/
theorem Asks.binary {frame : Bytes} (h : (binary frame).Asks) :
    ∃ payload, splitTag frame = some (Tag.serverChallenge, payload) ∧ payload.length = 16 := by
  rcases h with ⟨text, heq⟩ | ⟨challenge, heq⟩
  · cases heq
  · rw [WsMessage.challenge] at heq
    split at heq
    · rename_i tag payload hsplit
      split at heq
      · rename_i htag
        exact ⟨payload, htag ▸ hsplit, sized_length heq⟩
      · cases heq
    · cases heq

/-- A confirmation asks for nothing. -/
theorem Confirms.not_asks {message : WsMessage} (h : message.Confirms) : ¬message.Asks := by
  obtain ⟨frame, payload, rfl, hsplit⟩ := h
  intro hasks
  obtain ⟨payload', hsplit', -⟩ := hasks.binary
  cases hsplit.symm.trans hsplit'

end WsMessage

/-- The challenges among the messages. -/
def challenges (messages : List (Instant × WsMessage)) : List (Vector UInt8 16) :=
  messages.filterMap fun m => m.2.challenge

namespace Dialer

variable (d : Dialer)

/-- The frame that answers the `n`-th challenge, if the identity signs it. -/
def auth (n : ℕ) (message : Bytes) : Option Bytes :=
  match d.sign n message with
  | .ok bytes => (sized 64 bytes).map (encodeClientAuth d.endpointId)
  | .error _ => none

/-- The handshake `h` fails at a message; what it has come to, and its error. -/
inductive Fails (h : Handshake) : WsMessage → Handshake → String → Prop
  | empty {frame : Bytes} :
      splitTag frame = none → Fails h (.binary frame) h "relay handshake: empty frame"
  | malformed {frame payload : Bytes} :
      splitTag frame = some (Tag.serverChallenge, payload) → payload.length ≠ 16 →
      Fails h (.binary frame) h "relay handshake: malformed challenge"
  /-- The identity does not sign. -/
  | unsigned {message : WsMessage} {challenge : Vector UInt8 16} {e : String} :
      message.challenge = some challenge →
      d.sign h.signed.length (d.message challenge) = .error e →
      Fails h message { h with signed := h.signed ++ [d.message challenge] } e
  /-- The identity signs, but with something else than a signature. -/
  | missized {message : WsMessage} {challenge : Vector UInt8 16} {bytes : Bytes} :
      message.challenge = some challenge →
      d.sign h.signed.length (d.message challenge) = .ok bytes → bytes.length ≠ 64 →
      Fails h message { h with signed := h.signed ++ [d.message challenge] }
        "identity produced a non-64-byte signature"
  /-- The answer is not sent. -/
  | unsent {message : WsMessage} {challenge : Vector UInt8 16} {frame : Bytes} {e : String} :
      message.challenge = some challenge →
      d.auth h.signed.length (d.message challenge) = some frame →
      h.sendError h.sent.length = some e →
      Fails h message { h with signed := h.signed ++ [d.message challenge] }
        ("relay handshake: " ++ e)
  | denied {frame payload : Bytes} :
      splitTag frame = some (Tag.serverDeniesAuth, payload) →
      Fails h (.binary frame) h ("relay denied auth: " ++ d.decodeDenialReason payload)
  | unexpected {frame payload : Bytes} {tag : UInt64} :
      splitTag frame = some (tag, payload) →
      tag ≠ Tag.serverChallenge → tag ≠ Tag.serverConfirmsAuth → tag ≠ Tag.serverDeniesAuth →
      Fails h (.binary frame) h ("relay handshake: unexpected frame type " ++ toString tag)

/-- What the handshake does with a message. -/
inductive Handles (h : Handshake) : WsMessage → Handshake → Except String Bool → Prop
  | text {text : String} : Handles h (.string text) h (.ok false)
  | answered {message : WsMessage} {challenge : Vector UInt8 16} {frame : Bytes} :
      message.challenge = some challenge →
      d.auth h.signed.length (d.message challenge) = some frame →
      Handles h message { h with
        signed := h.signed ++ [d.message challenge]
        sent := h.sent ++ [frame] } (.ok false)
  | confirmed {message : WsMessage} : message.Confirms → Handles h message h (.ok true)
  | failed {message : WsMessage} {h' : Handshake} {e : String} :
      d.Fails h message h' e → Handles h message h' (.error e)

/-- The answer to a challenge is sent, or the handshake fails. -/
theorem answerChallenge_handles (h : Handshake) {message : WsMessage}
    {challenge : Vector UInt8 16} (hc : message.challenge = some challenge) :
    d.Handles h message (d.answerChallenge h challenge).1
      ((d.answerChallenge h challenge).2.map fun _ => false) := by
  rw [answerChallenge]
  cases hsign : d.sign h.signed.length (d.message challenge) with
  | error e => exact .failed (.unsigned hc hsign)
  | ok bytes =>
    have hauth : d.auth h.signed.length (d.message challenge) =
        (sized 64 bytes).map (encodeClientAuth d.endpointId) := by rw [auth, hsign]
    dsimp only
    cases hsized : sized 64 bytes with
    | none => exact .failed (.missized hc hsign (sized_none hsized))
    | some signature =>
      rw [hsized, Option.map_some] at hauth
      dsimp only [Handshake.send]
      cases hsend : h.sendError h.sent.length with
      | some e => exact .failed (.unsent hc hauth hsend)
      | none => exact .answered hc hauth

/-- What a message can lead to. -/
theorem onMessage_handles (h : Handshake) (message : WsMessage) :
    d.Handles h message (d.onMessage h message).1 (d.onMessage h message).2 := by
  cases message with
  | string text => exact .text
  | binary frame =>
    rw [onMessage]
    cases hsplit : splitTag frame with
    | none => exact .failed (.empty hsplit)
    | some split =>
      obtain ⟨tag, payload⟩ := split
      dsimp only
      by_cases hchallenge : tag = Tag.serverChallenge
      · rw [if_pos hchallenge]
        have hcarries : (WsMessage.binary frame).challenge = sized 16 payload := by
          rw [WsMessage.challenge, hsplit]
          exact if_pos hchallenge
        cases hsized : sized 16 payload with
        | none => exact .failed (.malformed (hchallenge ▸ hsplit) (sized_none hsized))
        | some challenge => exact d.answerChallenge_handles h (hcarries.trans hsized)
      · rw [if_neg hchallenge]
        by_cases hconfirm : tag = Tag.serverConfirmsAuth
        · rw [if_pos hconfirm]
          exact .confirmed ⟨frame, payload, rfl, hconfirm ▸ hsplit⟩
        · rw [if_neg hconfirm]
          by_cases hdeny : tag = Tag.serverDeniesAuth
          · rw [if_pos hdeny]
            exact .failed (.denied (hdeny ▸ hsplit))
          · rw [if_neg hdeny]
            exact .failed (.unexpected hsplit hchallenge hconfirm hdeny)

/-- A handshake does not fail at a confirmation. -/
theorem Fails.not_confirms {h h' : Handshake} {message : WsMessage} {e : String}
    (hf : d.Fails h message h' e) : ¬message.Confirms := by
  intro hconfirm
  have hno := hconfirm.not_asks
  obtain ⟨frame, payload, rfl, hsplit⟩ := hconfirm
  cases hf with
  | empty hempty => cases hsplit.symm.trans hempty
  | malformed hsplit' | denied hsplit' => cases hsplit.symm.trans hsplit'
  | unsigned hc | missized hc | unsent hc => exact hno (.inr ⟨_, hc⟩)
  | unexpected hsplit' _ hconfirm =>
    cases hsplit.symm.trans hsplit'
    exact hconfirm rfl

end Dialer

/-! ## Every handshake -/

namespace Dialer

variable {d : Dialer}

/-- The handshake on `ws` so far: every message has asked for something, and every challenge was
    answered. -/
structure Answered (d : Dialer) (ws : Websocket) (asked : List (Instant × WsMessage))
    (h : Handshake) : Prop where
  websocket : h.toWebsocket = ws
  asks : ∀ m ∈ asked, m.2.Asks
  signed : h.signed = (challenges asked).map d.message
  sent : h.sent.map some = h.signed.mapIdx d.auth

/-- What a handshake on `ws` can do with the messages `inbound`, whatever the outside does. -/
structure Authenticates (d : Dialer) (ws : Websocket) (inbound : List (Instant × WsMessage))
    (h : Handshake) (result : Except String RelayClient) : Prop where
  /-- Only what is derived from a challenge is signed: the challenges in order, each once. -/
  signed : h.signed <+: (challenges inbound).map d.message
  /-- Only the answers to them are sent. -/
  sent : h.sent.map some <+: h.signed.mapIdx d.auth
  /-- A client is made when the relay confirms, after it has asked for nothing that was not
      answered; the client receives what comes from then on. -/
  confirmed : ∀ c, result = .ok c → ∃ asked now confirm rest,
    inbound = asked ++ (now, confirm) :: rest ∧ confirm.Confirms ∧ d.Answered ws asked h ∧
      c = h.client now rest
  /-- Otherwise the relay goes away, or the handshake fails at a message, after it has asked for
      nothing that was not answered; the error is that of the receive, or of the message. -/
  failed : ∀ e, result = .error e →
    d.Answered ws inbound h ∧ e = "relay handshake: " ++ ws.receiveError ∨
    ∃ asked now message rest before, inbound = asked ++ (now, message) :: rest ∧
      d.Answered ws asked before ∧ d.Fails before message h e

/-- The challenges are those of the first messages, and those of the others. -/
theorem challenges_append (before after : List (Instant × WsMessage)) :
    challenges (before ++ after) = challenges before ++ challenges after :=
  List.filterMap_append

/-- A message that carries a challenge adds it. -/
theorem challenges_concat {asked : List (Instant × WsMessage)} {m : Instant × WsMessage}
    {challenge : Vector UInt8 16} (hc : m.2.challenge = some challenge) :
    challenges (asked ++ [m]) = challenges asked ++ [challenge] := by
  rw [challenges_append, challenges, challenges, List.filterMap_cons, hc, List.filterMap_nil]

section Steps

variable {ws : Websocket} {asked rest : List (Instant × WsMessage)} {h h' : Handshake}

/-- What was signed so far is derived from the first challenges. -/
theorem Answered.signs (ha : d.Answered ws asked h) (rest : List (Instant × WsMessage)) :
    h.signed <+: (challenges (asked ++ rest)).map d.message := by
  rw [ha.signed, challenges_append, List.map_append]
  exact List.prefix_append _ _

/-- A text is skipped. -/
theorem Answered.text (ha : d.Answered ws asked h) (now : Instant) (text : String) :
    d.Answered ws (asked ++ [(now, .string text)]) h where
  websocket := ha.websocket
  asks m hm := by
    rcases List.mem_append.1 hm with hm | hm
    · exact ha.asks m hm
    · exact List.mem_singleton.1 hm ▸ .inl ⟨text, rfl⟩
  signed := by
    rw [ha.signed, challenges_append]
    exact congrArg _ (List.append_nil _).symm
  sent := ha.sent

/-- One more challenge is answered. -/
theorem Answered.answered (ha : d.Answered ws asked h) {m : Instant × WsMessage}
    {challenge : Vector UInt8 16} (hc : m.2.challenge = some challenge) {frame : Bytes}
    (hauth : d.auth h.signed.length (d.message challenge) = some frame) :
    d.Answered ws (asked ++ [m]) { h with
      signed := h.signed ++ [d.message challenge]
      sent := h.sent ++ [frame] } where
  websocket := ha.websocket
  asks m' hm := by
    rcases List.mem_append.1 hm with hm | hm
    · exact ha.asks m' hm
    · exact List.mem_singleton.1 hm ▸ .inr ⟨challenge, hc⟩
  signed := by rw [challenges_concat hc, List.map_append, ← ha.signed, List.map_singleton]
  sent := by
    rw [List.map_append, List.mapIdx_append, ← ha.sent, List.mapIdx_singleton, Nat.zero_add, hauth,
      List.map_singleton]

/-- The relay goes away. -/
theorem Answered.ended (ha : d.Answered ws asked h) :
    d.Authenticates ws asked h (.error ("relay handshake: " ++ h.receiveError)) where
  signed := List.append_nil asked ▸ ha.signs []
  sent := ha.sent ▸ List.prefix_rfl
  confirmed := nofun
  failed e he := by
    cases he
    exact .inl ⟨ha, by rw [← ha.websocket]⟩

/-- The relay confirms. -/
theorem Answered.confirmed (ha : d.Answered ws asked h) {now : Instant} {confirm : WsMessage}
    (hconfirm : confirm.Confirms) :
    d.Authenticates ws (asked ++ (now, confirm) :: rest) h (.ok (h.client now rest)) where
  signed := ha.signs _
  sent := ha.sent ▸ List.prefix_rfl
  confirmed c hc := by
    cases hc
    exact ⟨asked, now, confirm, rest, rfl, hconfirm, ha, rfl⟩
  failed := nofun

/-- A handshake that fails at a message has sent nothing for it. It may have been asked to sign the
    challenge of the message. -/
theorem Fails.signs {message : WsMessage} {e : String} (hf : d.Fails h message h' e) :
    h'.sent = h.sent ∧ (h'.signed = h.signed ∨ ∃ challenge,
      message.challenge = some challenge ∧ h'.signed = h.signed ++ [d.message challenge]) := by
  cases hf with
  | empty | malformed | denied | unexpected => exact ⟨rfl, .inl rfl⟩
  | unsigned hc | missized hc | unsent hc => exact ⟨rfl, .inr ⟨_, hc, rfl⟩⟩

/-- The handshake fails at a message. -/
theorem Answered.failed (ha : d.Answered ws asked h) {now : Instant} {message : WsMessage}
    {e : String} (hf : d.Fails h message h' e) :
    d.Authenticates ws (asked ++ (now, message) :: rest) h' (.error e) where
  signed := by
    rcases hf.signs.2 with hsigned | ⟨challenge, hc, hsigned⟩ <;> rw [hsigned]
    · exact ha.signs _
    · -- The last challenge was signed, but not answered.
      rw [List.append_cons asked, challenges_append, challenges_concat (m := (now, message)) hc,
        List.map_append, List.map_append, ← ha.signed, List.map_singleton]
      exact List.prefix_append _ _
  sent := by
    rcases hf.signs with ⟨hsent, hsigned | ⟨challenge, -, hsigned⟩⟩ <;> rw [hsent, hsigned]
    · rw [← ha.sent]
    · rw [List.mapIdx_append, ← ha.sent]
      exact List.prefix_append _ _
  confirmed := nofun
  failed e' he := by
    cases he
    exact .inr ⟨asked, now, message, rest, h, rfl, ha, hf⟩

end Steps

/-- Nothing was answered yet. -/
theorem Answered.new (d : Dialer) (ws : Websocket) : d.Answered ws [] (.new ws) :=
  ⟨rfl, nofun, rfl, rfl⟩

/-- A handshake goes on as it has begun. -/
theorem Answered.handshake {ws : Websocket} {asked inbound : List (Instant × WsMessage)}
    {h : Handshake} (ha : d.Answered ws asked h) :
    d.Authenticates ws (asked ++ inbound) (d.handshake inbound h).1 (d.handshake inbound h).2 := by
  induction inbound generalizing asked h with
  | nil =>
    rw [List.append_nil]
    exact ha.ended
  | cons m inbound ih =>
    obtain ⟨now, message⟩ := m
    rw [Dialer.handshake]
    have hhandles := d.onMessage_handles h message
    generalize d.onMessage h message = next at hhandles
    obtain ⟨h', result⟩ := next
    cases hhandles with
    | text =>
      rw [List.append_cons]
      exact ih (ha.text now _)
    | answered hc hauth =>
      rw [List.append_cons]
      exact ih (ha.answered (m := (now, message)) hc hauth)
    | confirmed hconfirm => exact ha.confirmed hconfirm
    | failed hf => exact ha.failed hf

/-- Whatever the relay sends, and however the identity and the websocket answer, the identity
    signs nothing but keys derived from challenges, a client is only made of a websocket on which
    the relay has confirmed, every challenge before being answered, and otherwise the error is that
    of the step that failed. -/
theorem handshake_sound (d : Dialer) (ws : Websocket) :
    d.Authenticates ws ws.inbound (d.handshake ws.inbound (.new ws)).1
      (d.handshake ws.inbound (.new ws)).2 :=
  (Answered.new d ws).handshake

/-! ## The handshake with an outside that serves -/

/-- The identity signs, and sends succeed. -/
structure Serves (d : Dialer) (ws : Websocket) : Prop where
  signs : ∀ n message, ∃ signature : Vector UInt8 64, d.sign n message = .ok signature.toList
  sends : ∀ n, ws.sendError n = none

/-- Bytes of the right length are themselves. -/
theorem sized_toList {n : ℕ} (v : Vector UInt8 n) : sized n v.toList = some v := by
  rw [sized, dif_pos v.length_toList]
  rfl

variable {ws : Websocket} {h : Handshake}

/-- A challenge is answered. -/
theorem Serves.auth (hs : d.Serves ws) (n : ℕ) (message : Bytes) :
    ∃ frame, d.auth n message = some frame := by
  obtain ⟨signature, hsign⟩ := hs.signs n message
  refine ⟨encodeClientAuth d.endpointId signature, ?_⟩
  rw [Dialer.auth, hsign]
  dsimp only
  rw [sized_toList, Option.map_some]

/-- An identity that signs and a websocket that sends answer every challenge. -/
theorem Serves.not_fails (hs : d.Serves h.toWebsocket) {h' : Handshake} {message : WsMessage}
    {e : String} (hm : message.Asks) : ¬d.Fails h message h' e := by
  intro hf
  cases hf with
  | empty hsplit | denied hsplit =>
    obtain ⟨payload, hsplit', -⟩ := hm.binary
    cases hsplit.symm.trans hsplit'
  | malformed hsplit hno | unexpected hsplit hno =>
    obtain ⟨payload, hsplit', hlength⟩ := hm.binary
    cases hsplit.symm.trans hsplit'
    contradiction
  | unsigned _ hsign =>
    obtain ⟨signature, hsign'⟩ := hs.signs h.signed.length (d.message _)
    cases hsign.symm.trans hsign'
  | missized _ hsign hlength =>
    obtain ⟨signature, hsign'⟩ := hs.signs h.signed.length (d.message _)
    cases hsign.symm.trans hsign'
    exact hlength signature.length_toList
  | unsent _ _ hsend => cases hsend.symm.trans (hs.sends _)

/-- The handshake goes on after every message that asks for something. -/
theorem Serves.handshake_append (hs : d.Serves ws) {asked asks rest : List (Instant × WsMessage)}
    (ha : d.Answered ws asked h) (hasks : ∀ m ∈ asks, m.2.Asks) :
    ∃ h', d.handshake (asks ++ rest) h = d.handshake rest h' ∧
      d.Answered ws (asked ++ asks) h' := by
  induction asks generalizing asked h with
  | nil => exact ⟨h, rfl, by rwa [List.append_nil]⟩
  | cons m asks ih =>
    obtain ⟨hm, hrest⟩ := List.forall_mem_cons.1 hasks
    obtain ⟨now, message⟩ := m
    rw [List.cons_append, handshake, List.append_cons]
    have hhandles := d.onMessage_handles h message
    generalize d.onMessage h message = next at hhandles
    obtain ⟨h', result⟩ := next
    cases hhandles with
    | text => exact ih (ha.text now _) hrest
    | answered hc hauth => exact ih (ha.answered (m := (now, message)) hc hauth) hrest
    | confirmed hconfirm => exact absurd hm hconfirm.not_asks
    | failed hf => exact absurd hf (Serves.not_fails (ha.websocket ▸ hs) hm)

/-- A confirmation makes a client. -/
theorem handshake_confirms {now : Instant} {confirm : WsMessage} (hc : confirm.Confirms)
    (rest : List (Instant × WsMessage)) :
    d.handshake ((now, confirm) :: rest) h = (h, .ok (h.client now rest)) := by
  rw [handshake]
  have hhandles := d.onMessage_handles h confirm
  generalize d.onMessage h confirm = next at hhandles
  obtain ⟨h', result⟩ := next
  cases hhandles with
  | text => exact absurd (.inl ⟨_, rfl⟩) hc.not_asks
  | answered hchallenge => exact absurd (.inr ⟨_, hchallenge⟩) hc.not_asks
  | confirmed => rfl
  | failed hf => exact absurd hc (hf.not_confirms d)

/-- A relay session after its handshake: the calls of `recv_datagram` return the datagrams of the
    messages `rest`, and what was sent in all answers the challenges of `asked`, and then the
    pings. -/
def Session (d : Dialer) (ws : Websocket) (asked rest : List (Instant × WsMessage))
    (c : RelayClient) : Prop :=
  ∃ c', c.recvDatagrams ((rest.flatMap fun m => m.2.datagrams).length + 1) =
      ((rest.flatMap fun m => m.2.datagrams).map .ok ++ [.error ("relay: " ++ ws.receiveError)],
        c') ∧
    c'.sent.map some = ((challenges asked).map d.message).mapIdx d.auth ++
      (rest.filterMap fun m => m.2.pong).map some

/-- A client that was just made returns what is still to come. -/
theorem Answered.session {asked rest : List (Instant × WsMessage)} (ha : d.Answered ws asked h)
    (hs : d.Serves ws) (now : Instant) : d.Session ws asked rest (h.client now rest) := by
  obtain rfl := ha.websocket
  obtain ⟨c', hc', hsent⟩ := (h.client now rest).recvDatagrams_eq hs.sends
  refine ⟨c', hc', ?_⟩
  rw [hsent, ← ha.signed, ← ha.sent]
  exact List.map_append

/-- With an identity that signs and sends that succeed, a client is made exactly if the relay
    confirms before it sends anything but texts and challenges. What it then returns is what the
    relay sends afterwards, and what was sent answers every challenge, and then every ping. -/
theorem handshake_session (d : Dialer) (ws : Websocket) (hs : d.Serves ws) :
    (∀ asked now confirm rest, ws.inbound = asked ++ (now, confirm) :: rest →
      (∀ m ∈ asked, m.2.Asks) → confirm.Confirms →
      ∃ c, (d.handshake ws.inbound (.new ws)).2 = .ok c ∧ d.Session ws asked rest c) ∧
    ∀ c, (d.handshake ws.inbound (.new ws)).2 = .ok c → ∃ asked now confirm rest,
      ws.inbound = asked ++ (now, confirm) :: rest ∧ (∀ m ∈ asked, m.2.Asks) ∧
        confirm.Confirms := by
  refine ⟨fun asked now confirm rest heq hasks hc => ?_, fun c hc => ?_⟩
  · obtain ⟨h, hh, ha⟩ := @Serves.handshake_append d ws _ hs _ _ ((now, confirm) :: rest)
      (Answered.new d ws) hasks
    refine ⟨h.client now rest, ?_, ha.session hs now⟩
    rw [heq, hh, handshake_confirms hc]
  · obtain ⟨asked, now, confirm, rest, heq, hconfirm, ha, -⟩ :=
      (@Answered.handshake d ws [] ws.inbound _ (.new d ws)).confirmed c hc
    exact ⟨asked, now, confirm, rest, heq, ha.asks, hconfirm⟩

/-- A dialer whose identity signs everything alike. -/
def same (endpointId : EndpointId) (signature : Vector UInt8 64) : Dialer where
  endpointId := endpointId
  sign _ _ := .ok signature.toList
  deriveKey _ challenge := challenge
  postcardString _ := none

/-- A text, a challenge, the confirmation, a ping and a datagram: the client returns the datagram,
    having answered the challenge and the ping. -/
theorem handshake_session_challenged :
    let d := same (Vector.replicate 32 7) (Vector.replicate 64 1)
    let asked := [(1, .string "hello"), (2, .binary (0 :: List.replicate 16 42))]
    let rest := [(4, .binary (9 :: List.replicate 8 3)),
      (5, .binary (6 :: (Vector.replicate 32 9).toList ++ [0, 5]))]
    let ws : Websocket := ⟨asked ++ (3, .binary [2]) :: rest, "Closed", fun _ => none⟩
    (∀ m ∈ asked, m.2.Asks) ∧
      ∃ c, (d.handshake ws.inbound (.new ws)).2 = .ok c ∧ d.Session ws asked rest c := by
  intro d asked rest ws
  have hasks : ∀ m ∈ asked, m.2.Asks := by
    refine List.forall_mem_cons.2 ⟨.inl ⟨_, rfl⟩, List.forall_mem_singleton.2 (.inr ?_)⟩
    exact ⟨Vector.replicate 16 42, rfl⟩
  have hserves : d.Serves ws := ⟨fun _ _ => ⟨Vector.replicate 64 1, rfl⟩, fun _ => rfl⟩
  exact ⟨hasks, (handshake_session d ws hserves).1 asked 3 (.binary [2]) rest rfl hasks
    ⟨[2], [], rfl, rfl⟩⟩

end Dialer

end IrohEndpoint
