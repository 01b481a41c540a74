import IrohEndpoint.Lib.Cell
import IrohEndpoint.System.Basic

/-!
# The borrows of the shared state

The pump, the exported resources and the signaling sessions share the state of an endpoint
in a `RefCell`, on one cooperative thread. A borrow that conflicts with a live one traps
the component.

What each of them does with the cell is written down here function by function
(`Code`), with the calls into noq that are made under a borrow: the calls that noq makes
progress in, by a mutable reference. Waking a task is left out: a fired waker resumes its task
through the scheduler. No function awaits under a borrow (`programs_guarded`). But noq calls
back into rustls, which signs with the key of the identity (`Signer::sign`), and the signer of a
key that webcrypto holds waits for the signature in `block_on`, where the task is switched out.
Which calls reach the signer is for noq and rustls to say (`signs`).

With a key that is held in the guest, no borrow ever conflicts; with one that webcrypto holds,
a borrow overlaps exactly when it is taken while another task is inside such a signature
(`borrows_reachable`).
-/

namespace IrohEndpoint

open Cell Cell.Skeleton Transition

/-- The calls into noq that it makes progress in. -/
inductive NoqCall
  | handle | handleEvent | endpointHandleEvent | pollEndpointEvents | poll | pollTransmit
  | pollTimeout | handleTimeout | accept | refuse | connect | close
  | openStream | acceptStream | write | finish | reset | read | stop | datagrams
  deriving DecidableEq

/-- What a function does with the state cell. -/
abbrev Code := Skeleton NoqCall

/-- Who holds the key of the identity. -/
inductive KeyHolder
  | webcrypto
  | guest
  deriving DecidableEq

namespace Code

/-- `shared.borrow()`, for as long as `body` takes. -/
def borrow (body : Code) : Code := .scope .shared body

/-- `shared.borrow_mut()`, for as long as `body` takes. -/
def borrowMut (body : Code) : Code := .scope .exclusive body

/-- An `await`, which may be ready at once. -/
def awaits : Code := maybe .await

/-- One after the other, perhaps returning before the end. -/
def untilReturn : List Code → Code
  | [] => .skip
  | a :: l => maybe (.seq a (untilReturn l))

/-! ## Methods of the state -/

def onEvent : Code := oneOf [.skip, .call .close, .loop (.call .acceptStream)]

def drain : Code :=
  .loop (.loop (seqs [
    .loop (seqs [.call .pollEndpointEvents,
      maybe (seqs [.call .endpointHandleEvent, maybe (.call .handleEvent)])]),
    .loop (seqs [.call .poll, maybe onEvent]),
    .loop (.call .pollTransmit)]))

def handleDatagram : Code :=
  seqs [.call .handle, oneOf [.skip, .call .handleEvent, .call .refuse, .call .accept]]

def handleTimeouts : Code := .loop (seqs [.call .pollTimeout, maybe (.call .handleTimeout)])

def closeAll : Code := .loop (.call .close)

/-! ## The pump -/

def isPoolCurrent : Code := borrow .skip

def retireHome : Code := seqs [isPoolCurrent, maybe (borrowMut .skip)]

def handleSignal : Code := borrowMut .skip

/-- A poll of `kicked`. -/
def kicked : Code := borrowMut .skip

def flushRelay : Code :=
  seqs [.loop (seqs [borrowMut .skip, borrow .skip, maybe (seqs [awaits, maybe retireHome])]),
    borrowMut .skip]

def flushUdp : Code := seqs [.loop (seqs [borrowMut .skip, awaits]), borrowMut .skip]

def flushChannel : Code :=
  seqs [.loop (seqs [borrowMut .skip, borrow .skip, awaits]), borrowMut .skip]

/-- The receives to arm, and the upgrades to spawn. -/
def arm : Code := seqs [borrowMut .skip, borrowMut .skip, borrowMut .skip]

/-- A relay receive resolves. -/
def relayEvent : Code :=
  seqs [isPoolCurrent,
    oneOf [handleSignal, borrowMut handleDatagram, .skip, retireHome, borrowMut .skip]]

def udpReceived : Code := maybe (borrowMut handleDatagram)

/-- A channel receive resolves. -/
def channelEvent : Code :=
  oneOf [seqs [borrow .skip, maybe (borrowMut handleDatagram)], borrowMut .skip]

/-- The redial resolves. -/
def redialOpened : Code := oneOf [borrowMut .skip, borrow .skip]

def tick : Code :=
  seqs [borrowMut handleTimeouts, borrow .skip, .loop (oneOf [.skip, retireHome, borrowMut .skip])]

def select : Code :=
  seqs [.loop (seqs [kicked, .await]),
    oneOf [relayEvent, udpReceived, channelEvent, redialOpened, kicked, tick]]

/-- A turn of the loop, up to the check whether to end. -/
def turn : Code := seqs [borrowMut drain, flushRelay, flushUdp, flushChannel, arm, borrow .skip]

/-- After the loop: the waiters are woken, the relays and the channels closed, and the
    pending receives awaited. -/
def teardown : Code := seqs [borrowMut .skip, borrow .skip, awaits, borrow .skip, .loop .await]

def pump : Code := seqs [.loop (seqs [turn, select]), turn, teardown]

/-! ## The exported resources -/

/-- A poll of `wait_until` runs the check under a borrow. -/
def waitUntil (check : Code) : Code :=
  seqs [.loop (seqs [borrowMut check, .await]), borrowMut check]

def ensureRelay : Code :=
  seqs [borrowMut .skip, oneOf [.skip, seqs [awaits, borrowMut .skip], waitUntil .skip]]

def connect : Code :=
  untilReturn [borrow .skip, maybe ensureRelay, maybe ensureRelay,
    borrowMut (maybe (.call .connect)), waitUntil .skip]

def accept : Code := waitUntil .skip

/-- `endpoint.close`, and the drop of the endpoint. -/
def closeEndpoint : Code := borrowMut (maybe closeAll)

def withEntry (f : Code) : Code := borrowMut (maybe f)

/-- `connection.peer`, `connection.alpn` and `connection.state`. -/
def readEntry : Code := withEntry .skip

def path : Code := borrow .skip

/-- The task behind `path_changes`. -/
def pathChanges : Code := .loop (seqs [waitUntil .skip, awaits])

def openStream : Code := waitUntil (maybe (.call .openStream))

def acceptStream : Code := waitUntil .skip

def maxDatagramSize : Code := withEntry (.call .datagrams)

def sendDatagram : Code := seqs [withEntry (maybe (.call .datagrams)), maybe (borrowMut .skip)]

def recvDatagram : Code := waitUntil (maybe (.call .datagrams))

/-- `connection.close`, the drop of a connection, and that of an armed `DialGuard`. -/
def closeConnection : Code := borrowMut (maybe (.call .close))

def waitClosed : Code := waitUntil .skip

def writeAll : Code := waitUntil (.loop (.call .write))

def readSome : Code := waitUntil (maybe (.call .read))

def doFinish : Code := borrowMut (maybe (.call .finish))

def reset : Code := borrowMut (maybe (.call .reset))

def stop : Code := borrowMut (maybe (.call .stop))

def writeViaStream : Code :=
  untilReturn [.loop (seqs [awaits, maybe writeAll]), doFinish]

/-- The task behind `read_via_stream`. -/
def readViaStream : Code := seqs [.loop (seqs [readSome, awaits]), awaits]

/-- The drop of an armed `RelayClaim`. -/
def dropRelayClaim : Code := borrowMut .skip

/-! ## The signaling sessions -/

/-- The drop of a `SessionGuard`. -/
def dropSessionGuard : Code := borrowMut .skip

def publish : Code := borrowMut .skip

def nextSignal : Code := .loop (waitUntil .skip)

def publishCandidates : Code := seqs [.loop awaits, .loop publish]

def consumeSignaling : Code := .loop (seqs [nextSignal, awaits])

def dial : Code :=
  seqs [borrowMut .skip, maybe (seqs [
    untilReturn [awaits, awaits, publish, publishCandidates, publish, consumeSignaling, awaits,
      .loop awaits],
    dropSessionGuard])]

def upgrade : Code := seqs [dial, maybe (borrowMut .skip)]

def answer : Code :=
  seqs [untilReturn [nextSignal, awaits, awaits, awaits, publish, publishCandidates, publish,
      consumeSignaling, awaits, awaits, borrowMut .skip],
    dropSessionGuard]

/-- The code of the tasks that share a state. The destructors of a call that is cancelled are
    tasks of their own: a cancelled task is one that is not switched in again. -/
def programs : List Code :=
  [pump, connect, accept, closeEndpoint, readEntry, path, pathChanges, openStream, acceptStream,
    maxDatagramSize, sendDatagram, recvDatagram, closeConnection, waitClosed, writeAll, doFinish,
    reset, writeViaStream, readSome, stop, readViaStream, dropRelayClaim, dropSessionGuard,
    upgrade, answer]

/-- No function awaits or borrows under a borrow, and noq is only called under a mutable
    one. -/
theorem programs_guarded : ∀ a ∈ programs, a.guarded = true := by decide

end Code

/-- The calls that block: those that sign with a key that webcrypto holds. -/
def Blocks (holder : KeyHolder) (signs : NoqCall → Prop) (k : NoqCall) : Prop :=
  holder = .webcrypto ∧ signs k

/-- The tasks of an endpoint, on its state cell. -/
def sharing (holder : KeyHolder) (signs : NoqCall → Prop) : System (Coop TaskId NoqCall) :=
  Coop.system TaskId {a | a ∈ Code.programs} (Blocks holder signs)

/-- No task comes to a borrow of the state while another one is inside a call into noq, in a
    signature. -/
def Undisturbed (_ s' : Coop TaskId NoqCall) : Prop :=
  ∀ i mode, s'.Borrows i mode → ∀ j, j ≠ i → s'.waiting j = none

/-- With a key held in the guest, no borrow of the state conflicts with a live one, in any
    schedule. With a key that webcrypto holds, borrows do not overlap in the schedules in which
    no task comes to a borrow while another one is inside a signature under a call into noq, and
    they do overlap whenever one does. -/
theorem borrows_reachable (signs : NoqCall → Prop) :
    (∀ s, (sharing .guest signs).Reachable s →
      ¬s.Overlaps ∧ ∀ i mode, s.Borrows i mode → ¬s.Conflicts mode) ∧
    (∀ s, ((sharing .webcrypto signs).restrict Undisturbed).Reachable s → ¬s.Overlaps) ∧
    ∀ s, (sharing .webcrypto signs).Reachable s →
      (s.Overlaps ↔ ∃ i mode j k, s.Borrows i mode ∧ j ≠ i ∧ s.waiting j = some k ∧ signs k) := by
  refine ⟨fun s hs => ?_, fun s hs => ?_, fun s hs => ?_⟩
  · have hw := Coop.not_waiting Code.programs_guarded (fun _ hk => nomatch hk.1) hs
    refine ⟨?_, fun i mode => Coop.not_conflicts Code.programs_guarded hs hw⟩
    rw [Coop.overlaps_iff Code.programs_guarded hs]
    rintro ⟨_, _, j, k, -, -, hk⟩
    cases (hw j).symm.trans hk
  · rw [Coop.overlaps_iff Code.programs_guarded hs.of_restrict]
    rintro ⟨i, mode, j, k, hb, hji, hk⟩
    have hundisturbed : Undisturbed s s := by
      cases hs with
      | init hinit =>
        rw [show s = _ from hinit] at hb
        cases hb.1
      | step _ hst => exact hst.2
    cases (hundisturbed i mode hb j hji).symm.trans hk
  · rw [Coop.overlaps_iff Code.programs_guarded hs]
    refine exists₄_congr fun i mode j k => ?_
    refine and_congr_right' (and_congr_right' (iff_self_and.2 fun hk => ?_))
    exact ((Coop.Inv.reachable Code.programs_guarded hs).waiting j k hk).1.2

/-- A task that closes the endpoint comes to its borrow. -/
theorem borrows_closeEndpoint : ∃ s s' : Coop TaskId NoqCall,
    (sharing .guest fun _ => True).Reachable s ∧ s.Borrows 0 .exclusive ∧ ¬s.Overlaps ∧
    (sharing .webcrypto fun _ => True).Reachable s' ∧ s'.Borrows 0 .exclusive ∧ ¬s'.Overlaps := by
  have hguest : (sharing .guest fun _ => True).Reachable _ :=
    .step (.init rfl) (.start (i := 0) rfl rfl (show Code.closeEndpoint ∈ Code.programs by
      simp [Code.programs]))
  have hwebcrypto : ((sharing .webcrypto fun _ => True).restrict Undisturbed).Reachable _ :=
    .step (.init rfl) ⟨.start (i := 0) rfl rfl (show Code.closeEndpoint ∈ Code.programs by
      simp [Code.programs]), fun _ _ _ _ _ => rfl⟩
  exact ⟨_, _, hguest, ⟨rfl, _, _, rfl⟩, ((borrows_reachable _).1 _ hguest).1,
    hwebcrypto.of_restrict, ⟨rfl, _, _, rfl⟩, (borrows_reachable _).2.1 _ hwebcrypto⟩

/-- The pump drains a connection, and noq asks for a signature of the key that webcrypto holds;
    meanwhile an `accept` is called, and polls its check. -/
theorem not_borrows_accept : ∃ s : Coop TaskId NoqCall,
    (sharing .webcrypto (· = .handleEvent)).Reachable s ∧ s.Overlaps := by
  have hpump : (sharing .webcrypto (· = .handleEvent)).Reachable _ :=
    .step (.init rfl) (.start (i := 0) rfl rfl (show Code.pump ∈ Code.programs by
      simp [Code.programs]))
  have hturn := hpump.leads (Coop.unfolding_leads
    (.step .seq (.step .stop (.step .seq (.step .seq .refl)))) rfl rfl)
  have hborrow := hturn.step (.borrow rfl rfl (Coop.not_conflicts Code.programs_guarded hturn
    (fun _ => rfl) ⟨rfl, _, _, rfl⟩))
  have hdrain := hborrow.leads (Coop.unfolding_leads
    (.step .turn (.step .turn (.step .seq (.step .turn (.step .seq .refl))))) rfl rfl)
  have hpolled := hdrain.step (.call rfl rfl)
  have hevent := hpolled.leads (Coop.unfolding_leads
    (.step .seq (.step .right (.step .seq .refl))) rfl rfl)
  have hhandled := hevent.step (.call rfl rfl)
  have hback := hhandled.leads (Coop.unfolding_leads (.step .seq (.step .right .refl)) rfl rfl)
  -- The signature is pending, and the pump is switched out with the state borrowed.
  have hblocked := hback.step (.block rfl rfl ⟨rfl, rfl⟩)
  have hcalled := hblocked.step (.start (i := 1) rfl rfl (show Code.accept ∈ Code.programs by
    simp [Code.programs]))
  have hpolls := hcalled.leads (Coop.unfolding_leads
    (.step .seq (.step .stop (.step .seq .refl))) rfl rfl)
  exact ⟨_, hpolls, (Coop.overlaps_iff Code.programs_guarded hpolls).2
    ⟨1, .exclusive, 0, .handleEvent, ⟨rfl, _, _, rfl⟩, by decide, rfl⟩⟩

end IrohEndpoint
