import IrohEndpoint.Intake
import IrohEndpoint.SendStream.Basic

/-!
# The bytes of a send stream

While a call writes, the stream is claimed, and every other call that writes or finishes
is refused. So noq accepts the payloads of the calls one after the other: `SendSys.Inv`
says what it has accepted of each, and what the call that is in flight has left to
write (`Writer.rest`).

* `WriteAll.spec`: one poll of `write_all` gives noq some of the rest of the payload, in
  order, and a poll that succeeds has left nothing;
* `SendStep.finishes`: a FIN that reaches noq truncates no write;
* `sendsWhole_reachable`: in every run of the calls, cancelled at any `await` and with any
  answers of noq, what noq accepted is made of the payloads, one after the other.
-/

namespace IrohEndpoint

open Transition State

/-! ## One poll -/

/-- A pass over `bytes` gives noq some of the rest of them, in order. -/
theorem NoqSend.pass_spec {bytes : Bytes} {answer : ℕ → WriteAnswer}
    (ho : Offered answer bytes.length) (fuel : ℕ) {offset : ℕ} (hle : offset ≤ bytes.length)
    (n : NoqSend) :
    ∃ taken, (n.pass bytes answer fuel offset).accepted = n.accepted ++ taken ∧
      bytes.drop offset = taken ++ bytes.drop (writePass answer bytes.length fuel offset).1 ∧
      (writePass answer bytes.length fuel offset).1 ≤ bytes.length ∧
      (n.pass bytes answer fuel offset).fins = n.fins ∧
      ((writePass answer bytes.length fuel offset).2 = some (.ok ()) →
        (writePass answer bytes.length fuel offset).1 = bytes.length) := by
  induction fuel generalizing offset n with
  | zero => exact ⟨[], by simp [pass], by simp [writePass], hle, rfl, nofun⟩
  | succ fuel ih =>
    rw [pass, writePass]
    cases ha : answer offset with
    | blocked => simpa [write] using hle
    | stopped code => simpa [write] using hle
    | closedStream => simpa [write] using hle
    | written count =>
      have hcount : offset + count ≤ bytes.length := by
        have := ho offset count ha
        omega
      -- noq takes the next `count` bytes.
      have hsplit : bytes.drop offset =
          (bytes.drop offset).take count ++ bytes.drop (offset + count) := by
        rw [← List.drop_drop, List.take_append_drop]
      dsimp only [write]
      by_cases hall : offset + count = bytes.length
      · rw [if_pos hall, if_pos hall]
        exact ⟨_, rfl, hsplit, hcount, rfl, fun _ => hall⟩
      · rw [if_neg hall, if_neg hall]
        by_cases hzero : count = 0
        · rw [if_pos hzero, if_pos hzero]
          subst hzero
          exact ⟨_, rfl, hsplit, hle, rfl, nofun⟩
        · rw [if_neg hzero, if_neg hzero]
          obtain ⟨taken, hacc, hdrop, hle', hfins, hok⟩ := ih hcount
            { n with accepted := n.accepted ++ (bytes.drop offset).take count }
          refine ⟨(bytes.drop offset).take count ++ taken, ?_, ?_, hle', hfins, hok⟩
          · rw [hacc, List.append_assoc]
          · rw [List.append_assoc, ← hdrop]
            exact hsplit

/-- A pass has writes enough: it parks where noq gives no more. -/
theorem State.writePass_parks {answer : ℕ → WriteAnswer} {len : ℕ} {fuel offset : ℕ}
    (hfuel : len < fuel + offset) (hle : offset ≤ len) (ho : Offered answer len)
    (hpark : (writePass answer len fuel offset).2 = none) :
    answer (writePass answer len fuel offset).1 = .blocked ∨
      answer (writePass answer len fuel offset).1 = .written 0 := by
  induction fuel generalizing offset with
  | zero => omega
  | succ fuel ih =>
    rw [writePass] at hpark ⊢
    cases ha : answer offset with
    | blocked => exact .inl ha
    | stopped code =>
      rw [ha] at hpark
      cases hpark
    | closedStream =>
      rw [ha] at hpark
      cases hpark
    | written count =>
      have hcount := ho offset count ha
      rw [ha] at hpark
      dsimp only at hpark ⊢
      by_cases hall : offset + count = len
      · rw [if_pos hall] at hpark
        cases hpark
      · rw [if_neg hall] at hpark ⊢
        by_cases hzero : count = 0
        · rw [if_pos hzero]
          exact .inr (hzero ▸ ha)
        · rw [if_neg hzero] at hpark ⊢
          exact ih (by omega) (by omega) hpark

/-! ## How a connection fails -/

/-- No event makes a connection fail with in-use. -/
theorem ConnEntry.hear_error {handle : ConnectionHandle} {e e' : ConnEntry} {events : List Event}
    {queued : List Stamp} (h : e.hear handle events = some (e', queued)) {detail : String}
    (he : e.error ≠ some (.inUse detail)) : e'.error ≠ some (.inUse detail) := by
  induction events generalizing e queued with
  | nil =>
    cases h
    exact he
  | cons event events ih =>
    obtain ⟨e₁, _, _, hheard, hrest, -⟩ := hear_cases h
    refine ih hrest ?_
    cases hheard with
    | connected => exact he
    | mismatch => simp [onConnected.mismatch]
    | @lost reason => cases reason <;> simp [ConnectionError.recorded]
    | other => exact he

/-- A connection never fails with in-use. -/
theorem error_ne_inUse {s : Sys} (hs : endpoint.Reachable s) {handle : ConnectionHandle}
    {e : ConnEntry} (hl : s.st.conns.lookup handle = some e) (detail : String) :
    e.error ≠ some (.inUse detail) := by
  revert handle e
  refine hs.invariant (P := fun s => ∀ {handle e}, s.st.conns.lookup handle = some e →
    e.error ≠ some (.inUse detail)) ?_ ?_
  · rintro _ ⟨config, webrtc, now, st, key, hreg, rfl⟩ handle e hl
    obtain ⟨-, -, rfl⟩ := registerRelay_eq hreg
    cases hl
  · intro s s' _ hst hi handle e hl
    rcases Step.acts hst with ⟨polling, hd⟩ | ⟨stamp, _, st, _, -, hc, -, rfl⟩ |
      ⟨res, dir, id, _, st, -, -, hc, rfl⟩ | hacts
    · obtain ⟨-, -, queued, -, hnone, hsome⟩ := hd.hear
      cases hl₀ : s.st.conns.lookup handle with
      | none => cases hl.symm.trans (hnone handle hl₀)
      | some e₀ =>
        obtain ⟨e₁, hheard, hl₁⟩ := hsome handle e₀ hl₀
        cases Option.some.inj (hl.symm.trans hl₁)
        exact ConnEntry.hear_error hheard (hi hl₀)
    · obtain ⟨_, _, _, -, -, -, rfl⟩ := acceptCheck_ok hc
      exact hi hl
    · obtain ⟨e₀, rest, he, -, rfl⟩ := acceptStreamCheck_ok hc
      rcases Table.lookup_insert_some.1 hl with ⟨-, rfl⟩ | ⟨-, hl⟩
      · have hold := hi (entryFor_iff.1 he).1
        cases dir <;> exact hold
      · exact hi hl
    · generalize hd : s'.st.desk = d at hacts
      have hconns : s'.st.conns = d.conns := congrArg Desk.conns hd
      rw [hconns] at hl
      cases hacts with
      | rest | skipped => exact hi hl
      | inserted =>
        rcases Table.lookup_insert_some.1 hl with ⟨-, rfl⟩ | ⟨-, hl⟩
        · simp [ConnEntry.new]
        · exact hi hl
      | closed hclosed =>
        rw [hclosed] at hl
        obtain ⟨e₀, hl₀, rfl⟩ := Option.map_eq_some_iff.1 hl
        have hold := hi hl₀
        exact hold

namespace SendSys

variable {stream : StreamRes} {s : SendSys} {bytes : Bytes} {offset offset' : ℕ} {st : State}
  {noq : NoqSend} {outcome : Option (Except Error Unit)}

/-- A stream's connection never fails with in-use. -/
theorem failure_ne_inUse (hs : endpoint.Reachable s.sys) (detail : String) :
    s.failure stream ≠ some (.inUse detail) := by
  rw [failure]
  split <;> rename_i he
  · simp
  · exact error_ne_inUse hs (entryFor_iff.1 he).1 detail

/-- A poll of `write_all` finds that the connection has failed, or makes a pass. -/
theorem writeAllCheck_eq (s : SendSys) (answer : ℕ → WriteAnswer) (len offset : ℕ) :
    s.sys.st.writeAllCheck stream.handle stream.epoch answer len offset =
      match s.failure stream with
      | some err => (s.sys.st, offset, some (.error err))
      | none =>
        (if (writePass answer len (len + 1) offset).1 > offset then s.sys.st.kickPump else s.sys.st,
          writePass answer len (len + 1) offset) := by
  rw [writeAllCheck, failure]
  cases s.sys.st.entryFor stream.handle stream.epoch with
  | none => rfl
  | some e => cases herr : e.error <;> rfl

/-- What a pass reports is not in-use. -/
theorem writePass_ne_inUse {answer : ℕ → WriteAnswer} {len fuel : ℕ} {err : Error}
    (h : (writePass answer len fuel offset).2 = some (.error err)) (detail : String) :
    err ≠ .inUse detail := by
  induction fuel generalizing offset with
  | zero => cases h
  | succ fuel ih =>
    rw [writePass] at h
    cases ha : answer offset with
    | written count =>
      simp only [ha] at h
      split at h
      · cases h
      · split at h
        · cases h
        · exact ih h
    | blocked | stopped | closedStream =>
      rw [ha] at h
      cases h <;> nofun

/-- A poll of `write_all` kicks the pump, or leaves the endpoint as it is. -/
theorem WriteAll.kicks (h : s.WriteAll stream bytes offset st noq offset' outcome) :
    st = s.sys.st ∨ st = s.sys.st.kickPump := by
  cases h with
  | failed hf hc =>
    obtain ⟨err, hf⟩ := Option.ne_none_iff_exists'.1 hf
    rw [writeAllCheck_eq, hf] at hc
    cases hc
    exact .inl rfl
  | @asked answer _ _ _ hf ho hc =>
    rw [writeAllCheck_eq, hf] at hc
    have hst := congrArg Prod.fst hc
    dsimp only at hst
    rw [← hst]
    split
    · exact .inr rfl
    · exact .inl rfl

/-- What a poll of `write_all` does. -/
structure Polled (s : SendSys) (bytes : Bytes) (offset : ℕ) (st : State) (noq : NoqSend)
    (offset' : ℕ) (outcome : Option (Except Error Unit)) (taken : Bytes) : Prop where
  /-- noq takes some of the rest of the payload, -/
  accepted : noq.accepted = s.noq.accepted ++ taken
  rest : bytes.drop offset = taken ++ bytes.drop offset'
  bound : offset' ≤ bytes.length
  fins : noq.fins = s.noq.fins
  /-- all of it if the poll succeeds. -/
  ok : outcome = some (.ok ()) → bytes.drop offset' = []
  error : ∀ err detail, outcome = some (.error err) → err ≠ .inUse detail

/-- What a poll of `write_all` does. -/
theorem WriteAll.spec (h : s.WriteAll stream bytes offset st noq offset' outcome)
    (hs : endpoint.Reachable s.sys) (hle : offset ≤ bytes.length) :
    ∃ taken, s.Polled bytes offset st noq offset' outcome taken := by
  cases h with
  | failed hf hc =>
    obtain ⟨err, hf⟩ := Option.ne_none_iff_exists'.1 hf
    rw [writeAllCheck_eq, hf] at hc
    cases hc
    -- A connection that has failed takes nothing.
    refine ⟨[], by simp, by simp, hle, rfl, nofun, fun err' detail herr => ?_⟩
    cases herr
    rintro rfl
    exact failure_ne_inUse hs detail hf
  | @asked answer _ _ _ hf ho hc =>
    rw [writeAllCheck_eq, hf] at hc
    have hpass : writePass answer bytes.length (bytes.length + 1) offset = (offset', outcome) :=
      congrArg Prod.snd hc
    obtain ⟨taken, hacc, hrest, hbound, hfins, hok⟩ :=
      s.noq.pass_spec ho (bytes.length + 1) hle
    have herr := @writePass_ne_inUse offset answer bytes.length (bytes.length + 1)
    rw [hpass] at hrest hbound hok herr
    refine ⟨taken, hacc, hrest, hbound, hfins, fun h => ?_, fun err detail h => herr h detail⟩
    have hall : offset' = bytes.length := hok h
    rw [hall, List.drop_length]

end SendSys

/-! ## The invariant -/

/-- What a writer has left to write. -/
def Writer.rest : Writer → Bytes
  | .write bytes offset => bytes.drop offset
  | .via => []
  | .viaWriting buf offset _ => buf.drop offset

/-- The offset of a writer is within its bytes. -/
def Writer.Valid : Writer → Prop
  | .write bytes offset => offset ≤ bytes.length
  | .via => True
  | .viaWriting buf offset _ => offset ≤ buf.length

/-- A call that has ended: noq accepted all of it if it succeeded, the first bytes of it
    otherwise, and nothing if it was refused. -/
structure WriteCall.Settled (c : WriteCall) : Prop where
  ended : c.outcome ≠ .inFlight
  whole : c.outcome = .returned (.ok ()) → c.accepted = c.payload
  begun : c.accepted <+: c.payload
  refused : ∀ detail, c.outcome = .returned (.error (.inUse detail)) → c.accepted = []

namespace SendSys

/-- No call is in flight. -/
structure Idle (s : SendSys) : Prop where
  free : s.res.writing = false
  writers : ∀ id, s.writers.lookup id = none
  settled : ∀ c ∈ s.calls, c.Settled

/-- The call `c` is in flight, and noq accepts nothing of those made after it. -/
structure InFlight (s : SendSys) (id : TaskId) (before : List WriteCall) (c : WriteCall)
    (after : List WriteCall) : Prop where
  claimed : s.res.writing = true
  writers : ∀ id', id' ≠ id → s.writers.lookup id' = none
  calls : s.calls = before ++ c :: after
  this : c.id = id
  others : ∀ c' ∈ before ++ after, c'.id ≠ id
  inFlight : c.outcome = .inFlight
  settled : ∀ c' ∈ before ++ after, c'.Settled
  refused : ∀ c' ∈ after, c'.accepted = []

/-- The writer `w` of the call in flight has the rest of its payload left. -/
structure Writing (s : SendSys) (id : TaskId) (w : Writer) (before : List WriteCall)
    (c : WriteCall) (after : List WriteCall) : Prop extends s.InFlight id before c after where
  writer : s.writers.lookup id = some w
  payload : c.payload = c.accepted ++ w.rest
  valid : w.Valid

/-- The invariant of a send stream. -/
structure Inv (s : SendSys) : Prop where
  sys : endpoint.Reachable s.sys
  accepted : s.noq.accepted = (s.calls.map WriteCall.accepted).flatten
  stage : s.Idle ∨ ∃ id w before c after, s.Writing id w before c after

variable {stream : StreamRes} {s s' : SendSys} {id : TaskId} {w w' : Writer}
  {before after : List WriteCall} {c c' : WriteCall} {bytes taken : Bytes} {offset offset' : ℕ}
  {st : State} {noq : NoqSend} {outcome : Option (Except Error Unit)}

/-- The writer that is found is the one in flight. -/
theorem Inv.writing (h : s.Inv) (hl : s.writers.lookup id = some w) :
    ∃ before c after, s.Writing id w before c after := by
  rcases h.stage with hidle | ⟨id', w', before, c, after, hw⟩
  · cases hl.symm.trans (hidle.writers id)
  · by_cases hid : id = id'
    · subst hid
      cases hl.symm.trans hw.writer
      exact ⟨before, c, after, hw⟩
    · cases hl.symm.trans (hw.writers id hid)

/-- If the stream is not claimed, no call is in flight. -/
theorem Inv.idle (h : s.Inv) (hfree : s.res.writing = false) : s.Idle := by
  rcases h.stage with hidle | ⟨_, _, _, _, _, hw⟩
  · exact hidle
  · cases hw.claimed.symm.trans hfree

/-! ## The call in flight -/

/-- The calls with the record of the one in flight replaced by `f`: the others are settled. -/
theorem InFlight.mem_cases (h : s.InFlight id before c after) {f : WriteCall}
    (hc : c' ∈ before ++ f :: after) : c' = f ∨ c'.id ≠ id ∧ c'.Settled := by
  rcases List.mem_append.1 hc with hc | hc
  · have hmem := List.mem_append_left after hc
    exact .inr ⟨h.others c' hmem, h.settled c' hmem⟩
  · rcases List.mem_cons.1 hc with rfl | hc
    · exact .inl rfl
    · have hmem := List.mem_append_right before hc
      exact .inr ⟨h.others c' hmem, h.settled c' hmem⟩

/-- The record of the call in flight changes. -/
theorem InFlight.record_calls (h : s.InFlight id before c after) (f : WriteCall → WriteCall) :
    (s.record id f).calls = before ++ f c :: after := by
  have hkeep : ∀ l : List WriteCall, (∀ c' ∈ l, c' ∈ before ++ after) →
      l.map (fun c => if c.id = id then f c else c) = l := by
    intro l hl
    refine (List.map_congr_left fun c' hc' => ?_).trans (List.map_id l)
    rw [if_neg (h.others c' (hl c' hc'))]
    rfl
  rw [record, h.calls, List.map_append, List.map_cons, if_pos h.this,
    hkeep before fun c' => List.mem_append_left _, hkeep after fun c' => List.mem_append_right _]

/-- A call stays in flight while its record changes. -/
theorem InFlight.record (h : s.InFlight id before c after) {f : WriteCall → WriteCall}
    (hid : (f c).id = c.id) (ho : (f c).outcome = c.outcome) :
    (s.record id f).InFlight id before (f c) after :=
  ⟨h.claimed, h.writers, h.record_calls f, hid.trans h.this, h.others, ho.trans h.inFlight,
    h.settled, h.refused⟩

/-- What noq accepted grows with what it accepts of the call in flight. -/
theorem InFlight.flatten (h : s.InFlight id before c after) (taken : Bytes) :
    ((before ++ { c with accepted := c.accepted ++ taken } :: after).map
      WriteCall.accepted).flatten =
        ((before ++ c :: after).map WriteCall.accepted).flatten ++ taken := by
  -- What was made since was refused, so the call in flight is the last one that noq has.
  have hnone : (after.map WriteCall.accepted).flatten = [] := by
    rw [List.flatten_eq_nil_iff]
    simpa using h.refused
  simp [hnone]

/-- The call in flight is polled. -/
theorem InFlight.polled (h : s.InFlight id before c after)
    (hp : s.Polled bytes offset st noq offset' outcome taken) :
    (s.polled id st noq).InFlight id before { c with accepted := c.accepted ++ taken } after := by
  -- What noq has more than before is what it took of this call.
  have htaken : noq.accepted.drop s.noq.accepted.length = taken := by
    rw [hp.accepted, List.drop_left]
  have hs : InFlight { s with sys := { s.sys with st := st }, noq := noq } id before c after :=
    ⟨h.claimed, h.writers, h.calls, h.this, h.others, h.inFlight, h.settled, h.refused⟩
  rw [SendSys.polled, htaken]
  exact hs.record (f := fun c => { c with accepted := c.accepted ++ taken }) rfl rfl

/-- A poll that succeeds leaves nothing of the buffer, nor of what was read. -/
theorem Polled.whole {more : Bool}
    (hp : s.Polled bytes offset st noq offset' (some (.ok ())) taken)
    (hw : s.Writing id (.viaWriting bytes offset more) before c after) :
    c.payload = c.accepted ++ taken := by
  have hrest := hp.rest
  rw [hp.ok rfl, List.append_nil] at hrest
  rw [hw.payload, Writer.rest, hrest]

/-- The call in flight goes on. -/
theorem InFlight.setWriter (h : s.InFlight id before c after)
    (hp : c.payload = c.accepted ++ w.rest) (hv : w.Valid) :
    (s.setWriter id w).Writing id w before c after where
  claimed := h.claimed
  writers id' hid := (AList.lookup_insert_ne hid).trans (h.writers id' hid)
  calls := h.calls
  this := h.this
  others := h.others
  inFlight := h.inFlight
  settled := h.settled
  refused := h.refused
  writer := AList.lookup_insert _
  payload := hp
  valid := hv

/-- The call in flight ends. -/
theorem InFlight.release (h : s.InFlight id before c after) {outcome : CallOutcome}
    (hs : WriteCall.Settled { c with outcome := outcome }) : (s.release id outcome).Idle where
  free := rfl
  writers id' := by
    by_cases hid : id' = id
    · rw [hid]
      exact AList.lookup_erase _ _
    · exact (AList.lookup_erase_ne hid).trans (h.writers id' hid)
  settled c' hc' := by
    have hcalls : (s.release id outcome).calls = before ++ { c with outcome := outcome } :: after :=
      h.record_calls _
    rcases h.mem_cases (hcalls ▸ hc') with rfl | ⟨-, hset⟩
    · exact hs
    · exact hset

/-! ## The calls keep the invariant -/

/-- A call keeps the invariant if it leaves the calls and the claim as they are. -/
theorem Inv.keep (h : s.Inv) (hr : endpoint.Reachable s'.sys)
    (ha : s'.noq.accepted = s.noq.accepted) (hclaim : s'.res.writing = s.res.writing)
    (hw : s'.writers = s.writers) (hc : s'.calls = s.calls) : s'.Inv := by
  refine ⟨hr, by rw [ha, hc, h.accepted], ?_⟩
  rcases h.stage with hidle | ⟨id, w, before, c, after, hwriting⟩
  · exact .inl ⟨hclaim ▸ hidle.free, hw ▸ hidle.writers, hc ▸ hidle.settled⟩
  · exact .inr ⟨id, w, before, c, after, ⟨hclaim ▸ hwriting.claimed, hw ▸ hwriting.writers,
      hc ▸ hwriting.calls, hwriting.this, hwriting.others, hwriting.inFlight, hwriting.settled,
      hwriting.refused⟩, hw ▸ hwriting.writer, hwriting.payload, hwriting.valid⟩

/-- A call that is refused keeps the invariant: nothing of it reaches noq. -/
theorem Inv.refuse (h : s.Inv) (hf : s.Fresh id) {bytes : Bytes} {err : Error} :
    Inv { s with calls := s.calls ++ [⟨id, bytes, [], .returned (.error err)⟩] } := by
  have hset : WriteCall.Settled ⟨id, bytes, [], .returned (.error err)⟩ :=
    ⟨nofun, nofun, List.nil_prefix, fun _ _ => rfl⟩
  refine ⟨h.sys, by simp [h.accepted], ?_⟩
  rcases h.stage with hidle | ⟨id', w, before, c, after, hw⟩
  · refine .inl ⟨hidle.free, hidle.writers, ?_⟩
    rw [List.forall_mem_append, List.forall_mem_singleton]
    exact ⟨hidle.settled, hset⟩
  · -- The call that is refused comes after the one in flight.
    have hne : id ≠ id' := by
      have hmem : c ∈ s.calls := hw.calls ▸ List.mem_append_right _ List.mem_cons_self
      exact fun he => hf c hmem (hw.this.trans he.symm)
    refine .inr ⟨id', w, before, c, after ++ [⟨id, bytes, [], .returned (.error err)⟩],
      ⟨hw.claimed, hw.writers, ?_, hw.this, ?_, hw.inFlight, ?_, ?_⟩, hw.writer, hw.payload,
      hw.valid⟩
    · simp [hw.calls]
    · rw [← List.append_assoc, List.forall_mem_append, List.forall_mem_singleton]
      exact ⟨hw.others, hne⟩
    · rw [← List.append_assoc, List.forall_mem_append, List.forall_mem_singleton]
      exact ⟨hw.settled, hset⟩
    · rw [List.forall_mem_append, List.forall_mem_singleton]
      exact ⟨hw.refused, rfl⟩

/-- A call that claims the stream keeps the invariant. -/
theorem Inv.start (h : s.Inv) (hf : s.Fresh id) (hfree : s.res.writing = false) {bytes : Bytes}
    {res : SendStreamRes} (hres : res.writing = true) (hrest : w.rest = bytes) (hv : w.Valid) :
    Inv { s with
      res := res
      writers := s.writers.insert id w
      calls := s.calls ++ [⟨id, bytes, [], .inFlight⟩] } := by
  have hidle := h.idle hfree
  refine ⟨h.sys, by simp [h.accepted], .inr ⟨id, w, s.calls, _, [], ⟨hres, ?_, rfl, rfl, ?_, rfl,
    ?_, nofun⟩, AList.lookup_insert _, hrest.symm, hv⟩⟩
  · intro id' hid
    exact (AList.lookup_insert_ne hid).trans (hidle.writers id')
  · intro c' hc'
    rw [List.append_nil] at hc'
    exact hf c' hc'
  · simpa using hidle.settled

/-- What noq accepted, once the call in flight is polled. -/
theorem Inv.polled_accepted (h : s.Inv) (hw : s.InFlight id before c after)
    (hp : s.Polled bytes offset st noq offset' outcome taken) :
    noq.accepted = ((s.polled id st noq).calls.map WriteCall.accepted).flatten := by
  rw [(hw.polled hp).calls, hw.flatten, ← hw.calls, ← h.accepted, hp.accepted]

/-- A change to the other fields of a record leaves what noq accepted as it is. -/
theorem record_accepted (s : SendSys) (id : TaskId) {f : WriteCall → WriteCall}
    (hf : ∀ c, (f c).accepted = c.accepted) :
    (s.record id f).calls.map WriteCall.accepted = s.calls.map WriteCall.accepted := by
  rw [record, List.map_map]
  refine List.map_congr_left fun c _ => ?_
  dsimp only [Function.comp]
  split
  · exact hf c
  · rfl

/-- The call in flight is polled, and goes on. -/
theorem Inv.poll (h : s.Inv) (hw : s.Writing id w before c after)
    (hp : s.Polled bytes offset st noq offset' outcome taken)
    (hr : endpoint.Reachable { s.sys with st := st }) (hrest : w.rest = bytes.drop offset)
    (hrest' : w'.rest = bytes.drop offset') (hv : w'.Valid) :
    ((s.polled id st noq).setWriter id w').Inv := by
  have hpolled := hw.toInFlight.polled hp
  refine ⟨hr, h.polled_accepted hw.toInFlight hp,
    .inr ⟨id, w', before, _, after, hpolled.setWriter ?_ hv⟩⟩
  rw [hw.payload, hrest, hrest', hp.rest, List.append_assoc]

/-- The call in flight ends: it fails, is cancelled, or has nothing left to write. -/
theorem Inv.release (hr : endpoint.Reachable s.sys)
    (ha : s.noq.accepted = (s.calls.map WriteCall.accepted).flatten)
    (hw : s.InFlight id before c after) (rest : Bytes) (hp : c.payload = c.accepted ++ rest)
    {outcome : CallOutcome} (hended : outcome ≠ .inFlight)
    (hok : outcome = .returned (.ok ()) → rest = [])
    (herr : ∀ detail, outcome ≠ .returned (.error (.inUse detail))) :
    (s.release id outcome).Inv := by
  refine ⟨hr, ha.trans ?_, .inl (hw.release ⟨hended, fun ho => ?_, ⟨rest, hp.symm⟩,
    fun detail ho => absurd ho (herr detail)⟩)⟩
  · have hkeep := s.record_accepted id (f := fun c => { c with outcome := outcome }) fun _ => rfl
    exact congrArg List.flatten hkeep.symm
  · rw [hp, hok ho, List.append_nil]

/-- The call in flight is polled, and ends. -/
theorem Inv.pollRelease (h : s.Inv) (hw : s.Writing id w before c after)
    {result : Except Error Unit}
    (hp : s.Polled bytes offset st noq offset' (some result) taken)
    (hr : endpoint.Reachable { s.sys with st := st }) (hrest : w.rest = bytes.drop offset) :
    ((s.polled id st noq).release id (.returned result)).Inv := by
  refine .release hr (h.polled_accepted hw.toInFlight hp) (hw.toInFlight.polled hp)
    (bytes.drop offset') ?_ nofun (fun ho => ?_) fun detail ho => ?_
  · rw [hw.payload, hrest, hp.rest, List.append_assoc]
  · cases ho
    exact hp.ok rfl
  · cases ho
    exact hp.error _ detail rfl rfl

end SendSys

namespace SendSys

variable {stream : StreamRes} {s : SendSys}

/-- A poll of `write_all` is a run of the endpoint. -/
theorem WriteAll.sys {bytes : Bytes} {offset offset' : ℕ} {st : State} {noq : NoqSend}
    {outcome : Option (Except Error Unit)} (hq : s.sys.quiet = true)
    (h : s.WriteAll stream bytes offset st noq offset' outcome) :
    endpoint.Leads s.sys { s.sys with st := st } := by
  rcases h.kicks with rfl | rfl
  · exact .refl
  · exact .single (.kick hq)

/-- `do_finish` finds that the connection has failed, or asks noq. -/
theorem doFinish_eq (s : SendSys) (answer : FinishAnswer) :
    s.sys.st.doFinish stream.handle stream.epoch answer =
      match s.failure stream with
      | some err => (s.sys.st, .error err)
      | none =>
        match answer with
        | .finished => (s.sys.st.kickPump, .ok ())
        | .stopped code => (s.sys.st, .error (.reset code))
        | .closedStream => (s.sys.st, .error .closed) := by
  unfold State.doFinish
  rw [failure]
  cases s.sys.st.entryFor stream.handle stream.epoch with
  | none => rfl
  | some e => cases herr : e.error <;> rfl

/-- `do_finish` is a run of the endpoint. -/
theorem doFinish_sys (hq : s.sys.quiet = true) (answer : FinishAnswer) :
    endpoint.Leads s.sys (s.doFinish stream answer).sys := by
  rw [doFinish, doFinish_eq]
  cases s.failure stream with
  | some err => exact .refl
  | none =>
    cases answer with
    | finished => exact .single (.kick hq)
    | stopped code => exact .refl
    | closedStream => exact .refl

/-- `do_finish` does not fail with in-use. -/
theorem doFinish_ne_inUse (hs : endpoint.Reachable s.sys) (answer : FinishAnswer)
    (detail : String) :
    (s.sys.st.doFinish stream.handle stream.epoch answer).2 ≠ .error (.inUse detail) := by
  rw [doFinish_eq]
  have hf : s.failure stream ≠ some (.inUse detail) := failure_ne_inUse hs detail
  cases he : s.failure stream with
  | some err =>
    rintro ⟨⟩
    exact hf he
  | none => cases answer <;> nofun

/-- A `write_via_stream` call that has written all it read ends. -/
theorem Inv.viaEnd {id : TaskId} {before after : List WriteCall} {c : WriteCall}
    (hr : endpoint.Reachable s.sys) (hq : s.sys.quiet = true)
    (ha : s.noq.accepted = (s.calls.map WriteCall.accepted).flatten)
    (hw : s.InFlight id before c after) (hp : c.payload = c.accepted) (answer : FinishAnswer) :
    (s.viaEnd stream id answer).Inv := by
  have hw' : (s.doFinish stream answer).InFlight id before c after :=
    ⟨hw.claimed, hw.writers, hw.calls, hw.this, hw.others, hw.inFlight, hw.settled, hw.refused⟩
  refine .release (hr.leads (doFinish_sys hq answer)) ?_ hw' []
    (by rw [hp, List.append_nil]) nofun (fun _ => rfl) fun detail ho => ?_
  · rw [doFinish]
    dsimp only
    split <;> exact ha
  · exact doFinish_ne_inUse hr answer detail (CallOutcome.returned.inj ho)

end SendSys

variable {stream : StreamRes} {s s' : SendSys} {refused : Option Error}

/-- A step of a send stream is a run of the endpoint. -/
theorem SendStep.sys (h : SendStep stream refused s s') : endpoint.Leads s.sys s'.sys := by
  cases h with
  | around h => exact .single h
  | writeParked hq _ h | viaParked hq _ h =>
    exact (h.sys hq).tail (.repark hq)
  | writeDone hq _ h | viaWritten hq _ h | viaFailed hq _ h => exact h.sys hq
  | finish hq | viaEnded hq => exact SendSys.doFinish_sys hq _
  | reset hq =>
    rw [SendSys.reset]
    dsimp only
    split
    · exact .refl
    · exact .single (.kick hq)
  | @viaDone _ id _ _ _ st noq answer hq _ h =>
    exact (h.sys hq).trans (SendSys.doFinish_sys (s := s.polled id st noq) hq answer)
  | _ => exact .refl

/-- A step keeps the invariant. -/
theorem SendSys.Inv.step (h : s.Inv) (hst : SendStep stream refused s s') : s'.Inv := by
  have hr : endpoint.Reachable s'.sys := h.sys.leads hst.sys
  cases hst with
  | around => exact h.keep hr rfl rfl rfl rfl
  | writeRefused _ hf hres =>
    obtain ⟨rfl, -⟩ := SendStreamRes.write_some hres
    exact h.refuse hf
  | viaRefused _ hf hres =>
    obtain ⟨rfl, -⟩ := SendStreamRes.writeViaStream_some hres
    exact h.refuse hf
  | writeStarted _ hf hres =>
    obtain ⟨hfree, rfl⟩ := SendStreamRes.write_none hres
    exact h.start hf hfree rfl rfl (Nat.zero_le _)
  | viaStarted _ hf hres =>
    obtain ⟨hfree, rfl⟩ := SendStreamRes.writeViaStream_none hres
    exact h.start hf hfree rfl rfl trivial
  | finishRefused | viaEmpty => exact h
  | reset => exact h.keep hr rfl rfl rfl rfl
  | finish =>
    refine h.keep hr ?_ rfl rfl rfl
    rw [SendSys.doFinish]
    dsimp only
    split <;> rfl
  | @writeParked _ id bytes _ offset' st noq hq hl hall =>
    obtain ⟨before, c, after, hw⟩ := h.writing hl
    obtain ⟨taken, hp⟩ := hall.spec h.sys hw.valid
    have hgo : Inv ((s.polled id st noq).setWriter id (.write bytes offset')) :=
      h.poll hw hp (h.sys.leads (hall.sys hq)) rfl rfl hp.bound
    exact hgo.keep hr rfl rfl rfl rfl
  | @viaParked _ id buf _ offset' more st noq hq hl hall =>
    obtain ⟨before, c, after, hw⟩ := h.writing hl
    obtain ⟨taken, hp⟩ := hall.spec h.sys hw.valid
    have hgo : Inv ((s.polled id st noq).setWriter id (.viaWriting buf offset' more)) :=
      h.poll hw hp (h.sys.leads (hall.sys hq)) rfl rfl hp.bound
    exact hgo.keep hr rfl rfl rfl rfl
  | viaWritten hq hl hall =>
    obtain ⟨before, c, after, hw⟩ := h.writing hl
    obtain ⟨taken, hp⟩ := hall.spec h.sys hw.valid
    exact h.poll hw hp hr rfl (hp.ok rfl).symm trivial
  | writeDone _ hl hall | viaFailed _ hl hall =>
    obtain ⟨before, c, after, hw⟩ := h.writing hl
    obtain ⟨taken, hp⟩ := hall.spec h.sys hw.valid
    exact h.pollRelease hw hp hr rfl
  | writeCancelled _ hl | viaCancelled _ hl =>
    obtain ⟨before, c, after, hw⟩ := h.writing hl
    exact .release h.sys h.accepted hw.toInFlight _ hw.payload nofun nofun nofun
  | @viaRead _ id buf more _ hl =>
    obtain ⟨before, c, after, hw⟩ := h.writing hl
    have hread := hw.toInFlight.record (f := fun c => { c with payload := c.payload ++ buf })
      rfl rfl
    refine ⟨hr, ?_, .inr ⟨id, _, before, _, after, hread.setWriter ?_ (Nat.zero_le _)⟩⟩
    · have hkeep := s.record_accepted id (f := fun c => { c with payload := c.payload ++ buf })
        fun _ => rfl
      exact h.accepted.trans (congrArg List.flatten hkeep.symm)
    · -- Nothing of what was read before is left.
      have hall : c.payload = c.accepted := hw.payload.trans (List.append_nil _)
      exact congrArg (· ++ buf) hall
  | viaEnded hq hl =>
    obtain ⟨before, c, after, hw⟩ := h.writing hl
    exact .viaEnd h.sys hq h.accepted hw.toInFlight (hw.payload.trans (List.append_nil _)) _
  | @viaDone _ id _ _ _ st noq answer hq hl hall =>
    obtain ⟨before, c, after, hw⟩ := h.writing hl
    obtain ⟨taken, hp⟩ := hall.spec h.sys hw.valid
    exact .viaEnd (s := s.polled id st noq) (h.sys.leads (hall.sys hq)) hq
      (h.polled_accepted hw.toInFlight hp) (hw.toInFlight.polled hp) (hp.whole hw) answer

/-- Every state of a send stream meets the invariant. -/
theorem sendStream_inv (hs : (sendStream stream).Reachable s) : s.Inv := by
  refine hs.invariant (P := SendSys.Inv) ?_ ?_
  · rintro _ ⟨sys, hr, -, rfl⟩
    exact ⟨hr, rfl, .inl ⟨rfl, fun _ => AList.lookup_empty _, nofun⟩⟩
  · rintro s s' - ⟨refused, hst⟩ h
    exact h.step hst

/-! ## The end of the stream -/

namespace SendSys

/-- A FIN reached noq in this step: it stands behind all that noq accepted, no call is in
    flight any more, and the one that was had been accepted whole. -/
structure Finishes (s s' : SendSys) : Prop where
  fins : s'.noq.fins = s.noq.fins ++ [s'.noq.accepted.length]
  idle : s'.Idle
  whole : ∀ c ∈ s.calls, c.outcome = .inFlight →
    ∀ c' ∈ s'.calls, c'.id = c.id → c'.accepted = c'.payload

/-- The FIN of `do_finish` stands behind what noq accepted. -/
theorem doFinish_fins (answer : FinishAnswer)
    (hf : (s.doFinish stream answer).noq.fins ≠ s.noq.fins) :
    (s.doFinish stream answer).noq.fins =
      s.noq.fins ++ [(s.doFinish stream answer).noq.accepted.length] := by
  rw [doFinish] at hf ⊢
  dsimp only at hf ⊢
  split at hf <;> rename_i hfail
  · rw [if_pos hfail]
    rfl
  · exact absurd rfl hf

/-- No other call is in flight. -/
theorem InFlight.unique {id : TaskId} {before after : List WriteCall} {c c' : WriteCall}
    (h : s.InFlight id before c after) (hc : c' ∈ s.calls) (ho : c'.outcome = .inFlight) :
    c'.id = id := by
  rcases h.mem_cases (h.calls ▸ hc) with rfl | ⟨-, hset⟩
  · exact h.this
  · exact absurd ho hset.ended

/-- A `write_via_stream` call whose FIN reaches noq has been accepted whole. -/
theorem InFlight.viaEnd_whole {id : TaskId} {before after : List WriteCall} {c c' : WriteCall}
    {answer : FinishAnswer} (h : s.InFlight id before c after) (hp : c.payload = c.accepted)
    (hc : c' ∈ (s.viaEnd stream id answer).calls) (hid : c'.id = id) :
    c'.accepted = c'.payload := by
  have hcalls : (s.viaEnd stream id answer).calls = before ++ { c with
      outcome := .returned (s.sys.st.doFinish stream.handle stream.epoch answer).2 } :: after :=
    h.record_calls _
  rcases h.mem_cases (hcalls ▸ hc) with rfl | ⟨hne, -⟩
  · exact hp.symm
  · exact absurd hid hne

end SendSys

/-- A FIN that reaches noq truncates no write. -/
theorem SendStep.finishes (h : s.Inv) (hst : SendStep stream refused s s')
    (hf : s'.noq.fins ≠ s.noq.fins) : s.Finishes s' := by
  have hinv := h.step hst
  cases hst with
  | finish _ hfin =>
    -- No write is in flight: the claim is free.
    have hfree := SendStreamRes.finish_none hfin
    exact ⟨SendSys.doFinish_fins _ hf, hinv.idle hfree, fun c hc ho =>
      absurd ho ((h.idle hfree).settled c hc).ended⟩
  | @viaEnded _ id answer _ hl =>
    obtain ⟨before, c, after, hw⟩ := h.writing hl
    have hp : c.payload = c.accepted := hw.payload.trans (List.append_nil _)
    exact ⟨SendSys.doFinish_fins answer hf, hinv.idle rfl, fun c₀ hc₀ ho c' hc' hid =>
      hw.toInFlight.viaEnd_whole hp hc' (hid.trans (hw.toInFlight.unique hc₀ ho))⟩
  | @viaDone _ id _ _ _ st noq answer _ hl hall =>
    obtain ⟨before, c, after, hw⟩ := h.writing hl
    obtain ⟨taken, hp⟩ := hall.spec h.sys hw.valid
    have hfins : (s.polled id st noq).noq.fins = s.noq.fins := hp.fins
    -- The last buffer is written in this step, before the FIN.
    refine ⟨?_, hinv.idle rfl, fun c₀ hc₀ ho c' hc' hid => (hw.toInFlight.polled hp).viaEnd_whole
      (hp.whole hw) hc' (hid.trans (hw.toInFlight.unique hc₀ ho))⟩
    rw [← hfins] at hf ⊢
    exact SendSys.doFinish_fins (s := s.polled id st noq) answer hf
  | writeParked _ hl hall | writeDone _ hl hall | viaParked _ hl hall | viaWritten _ hl hall
  | viaFailed _ hl hall =>
    obtain ⟨before, c, after, hw⟩ := h.writing hl
    obtain ⟨taken, hp⟩ := hall.spec h.sys hw.valid
    exact absurd hp.fins hf
  | _ => exact absurd rfl hf

/-- A call that is refused is refused with in-use, and changes nothing. -/
theorem SendStep.keeps {err : Error} (hst : SendStep stream (some err) s s') :
    (∃ detail, err = .inUse detail) ∧ s'.res = s.res ∧ s'.noq = s.noq := by
  cases hst with
  | writeRefused _ _ hres =>
    obtain ⟨rfl, herr⟩ := SendStreamRes.write_some hres
    exact ⟨herr, rfl, rfl⟩
  | viaRefused _ _ hres =>
    obtain ⟨rfl, herr⟩ := SendStreamRes.writeViaStream_some hres
    exact ⟨herr, rfl, rfl⟩
  | finishRefused _ hfin => exact ⟨SendStreamRes.finish_some hfin, rfl, rfl⟩

/-! ## The bytes of the calls -/

/-- What a send stream promises of the bytes that were given to it. -/
structure SendsWhole (stream : StreamRes) (s : SendSys) : Prop where
  /-- noq accepted the bytes of one call after the other, in the order of the calls: -/
  accepted : s.noq.accepted = (s.calls.map WriteCall.accepted).flatten
  /-- the whole payload if the call succeeded, -/
  whole : ∀ c ∈ s.calls, c.outcome = .returned (.ok ()) → c.accepted = c.payload
  /-- the first bytes of it otherwise, -/
  begun : ∀ c ∈ s.calls, c.accepted <+: c.payload
  /-- and nothing if the call was refused. -/
  refused : ∀ c ∈ s.calls, ∀ detail, c.outcome = .returned (.error (.inUse detail)) →
    c.accepted = []
  /-- A FIN reaches noq only when no write is in flight. -/
  finishes : ∀ refused s', SendStep stream refused s s' → s'.noq.fins ≠ s.noq.fins →
    s.Finishes s'
  /-- A call that is refused leaves the flags as they were. -/
  kept : ∀ err s', SendStep stream (some err) s s' →
    (∃ detail, err = .inUse detail) ∧ s'.res = s.res ∧ s'.noq = s.noq

/-- The calls that were made, whether or not one is in flight. -/
theorem SendSys.Inv.calls (h : s.Inv) {c : WriteCall} (hc : c ∈ s.calls) :
    c.Settled ∨ c.outcome = .inFlight ∧ c.accepted <+: c.payload := by
  rcases h.stage with hidle | ⟨id, w, before, c₀, after, hw⟩
  · exact .inl (hidle.settled c hc)
  · rcases hw.mem_cases (hw.calls ▸ hc) with rfl | ⟨-, hset⟩
    · exact .inr ⟨hw.inFlight, _, hw.payload.symm⟩
    · exact .inl hset

/-- In every run of the calls on a send stream, its bytes are sent whole and in order. -/
theorem sendsWhole_reachable (hs : (sendStream stream).Reachable s) : SendsWhole stream s := by
  have h := sendStream_inv hs
  refine ⟨h.accepted, fun c hc ho => ?_, fun c hc => ?_, fun c hc detail ho => ?_,
    fun refused s' hst hf => hst.finishes h hf, fun err s' hst => hst.keeps⟩
  · rcases h.calls hc with hset | ⟨hin, -⟩
    · exact hset.whole ho
    · cases hin.symm.trans ho
  · rcases h.calls hc with hset | ⟨-, hbegun⟩
    · exact hset.begun
    · exact hbegun
  · rcases h.calls hc with hset | ⟨hin, -⟩
    · exact hset.refused detail ho
    · cases hin.symm.trans ho

/-- noq may accept `count` bytes at one offset, and no more. -/
theorem offered_once {start count len : ℕ} (h : count ≤ len - start) :
    Offered (fun offset => if offset = start then .written count else .blocked) len := by
  intro offset count' hanswer
  by_cases hat : offset = start
  · subst hat
    dsimp only at hanswer
    rw [if_pos rfl] at hanswer
    cases hanswer
    exact h
  · dsimp only at hanswer
    rw [if_neg hat] at hanswer
    cases hanswer

/-- A write of three bytes, of which noq takes two before it blocks, and a second write
    that is refused meanwhile. -/
theorem sendsWhole_resumed :
    ∃ s, (sendStream ⟨0, 0, 0⟩).Reachable s ∧ s.noq.accepted = [1, 2, 3] ∧
      s.calls.map WriteCall.accepted = [[1, 2, 3], []] ∧ SendsWhole ⟨0, 0, 0⟩ s := by
  have hstart : (sendStream ⟨0, 0, 0⟩).Reachable
      ⟨Sys.streaming (Vector.replicate 32 7), .new, .new, ∅, []⟩ :=
    .init ⟨_, streaming_reachable, List.mem_singleton_self _, rfl⟩
  have hfirst := hstart.step ⟨_, @SendStep.writeStarted _ _ 1 [1, 2, 3] _ rfl nofun rfl⟩
  have hparked := hfirst.step ⟨_, @SendStep.writeParked _ _ 1 [1, 2, 3] 0 2 _ _ rfl rfl
    (@SendSys.WriteAll.asked _ _ _ _ (fun offset => if offset = 0 then .written 2 else .blocked)
      _ _ _ rfl (offered_once (by decide)) rfl)⟩
  have hsecond := hparked.step ⟨_, @SendStep.writeRefused _ _ 2 [9] _ _ rfl (by
    intro c hc
    cases hc with
    | head => decide
    | tail _ hc => cases hc) rfl⟩
  have hdone := hsecond.step ⟨_, @SendStep.writeDone _ _ 1 [1, 2, 3] 2 3 _ _ (.ok ()) rfl rfl
    (@SendSys.WriteAll.asked _ _ _ _ (fun offset => if offset = 2 then .written 1 else .blocked)
      _ _ _ rfl (offered_once (by decide)) rfl)⟩
  exact ⟨_, hdone, rfl, rfl, sendsWhole_reachable hdone⟩

end IrohEndpoint
