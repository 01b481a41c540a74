import IrohEndpoint.RecvStream.Basic

/-!
# The consumers of a receive stream

A receive stream should have one consumer at a time, which takes the bytes of the
peer in order (`SoleConsumer`).

A `read` is excluded by a `read` in flight and by `read_via_stream`, but
`read_via_stream` is only excluded by itself: called while a `read` is in flight, it
starts a second consumer (`not_soleConsumer_via`). In the runs in which it is not
called then (`ClaimedFree`), the stream has one consumer at a time
(`soleConsumer_reachable`).
-/

namespace IrohEndpoint

open Transition

/-- One consumer at a time, and its bytes in order. -/
structure SoleConsumer (s : RecvSys) : Prop where
  sole : ∀ id c id' c', s.consumers.lookup id = some c → s.consumers.lookup id' = some c' →
    id = id'
  /-- While there is a consumer, a `read` that could take bytes is refused with no
      effect, -/
  read : ∀ id c max, s.consumers.lookup id = some c → max ≠ 0 →
    ∃ detail, s.res.read max = (s.res, some (.error (.inUse detail)))
  /-- and so is `read_via_stream`, if it would be called at all. -/
  via : ∀ id c, s.consumers.lookup id = some c → (∀ max, c ≠ .read max) →
    ∃ detail, s.res.readViaStream = (s.res, .error (.inUse detail))
  /-- What was handed out is what arrived, up to a point: nothing is skipped or
      repeated. -/
  inOrder : (s.handed.map Prod.snd).flatten = s.noq.arrived.take s.noq.taken

/-- The first `read_via_stream` is called while no `read` is in flight. -/
def ClaimedFree : Action → RecvSys → Prop
  | .readViaStream, s => s.res.streaming = false → s.res.reading = false
  | _, _ => True

namespace Consumers

/-- The flags exclude a second consumer. -/
structure Inv (s : RecvSys) : Prop where
  sole : ∀ id c id' c', s.consumers.lookup id = some c → s.consumers.lookup id' = some c' →
    id = id'
  reads : ∀ id max, s.consumers.lookup id = some (.read max) →
    s.res.reading = true ∧ s.res.terminal = none ∧ s.res.streaming = false
  vias : ∀ id c, s.consumers.lookup id = some c → (∀ max, c ≠ .read max) → s.res.streaming = true
  taken : s.noq.taken ≤ s.noq.arrived.length
  inOrder : (s.handed.map Prod.snd).flatten = s.noq.arrived.take s.noq.taken

variable {stream : StreamRes} {s s' : RecvSys}

/-- With both flags clear, there is no consumer. -/
theorem Inv.free (hi : Inv s) (hstreaming : s.res.streaming = false)
    (hreading : s.res.reading = false) (id : TaskId) : s.consumers.lookup id = none := by
  rw [Option.eq_none_iff_forall_ne_some]
  intro c hc
  cases c with
  | read max => exact Bool.false_ne_true (hreading.symm.trans (hi.reads id max hc).1)
  | _ => exact Bool.false_ne_true (hstreaming.symm.trans (hi.vias id _ hc nofun))

/-- The sole consumer ends. -/
theorem Inv.erase (hi : Inv s) {id : TaskId} {c : Consumer} (hc : s.consumers.lookup id = some c)
    (id' : TaskId) : (s.consumers.erase id).lookup id' = none := by
  rw [Table.lookup_erase_eq]
  split <;> rename_i hne
  · rfl
  · rw [Option.eq_none_iff_forall_ne_some]
    exact fun c' hc' => hne (hi.sole id' c' id c hc' hc)

/-- The sole consumer goes on. -/
theorem Inv.insert (hi : Inv s) {id : TaskId} {c c' : Consumer}
    (hc : s.consumers.lookup id = some c) {id₁ : TaskId} {c₁ : Consumer}
    (h₁ : (s.consumers.insert id c').lookup id₁ = some c₁) : id₁ = id ∧ c₁ = c' := by
  rw [Table.lookup_insert_eq] at h₁
  split at h₁ <;> rename_i hne
  · exact ⟨hne, (Option.some.inj h₁).symm⟩
  · exact absurd (hi.sole id₁ c₁ id c h₁ hc) hne

/-- A first consumer starts. -/
theorem lookup_first (hfree : ∀ id, s.consumers.lookup id = none) {id id₁ : TaskId}
    {c c₁ : Consumer} (h₁ : (s.consumers.insert id c).lookup id₁ = some c₁) :
    id₁ = id ∧ c₁ = c := by
  rw [Table.lookup_insert_eq] at h₁
  split at h₁ <;> rename_i hne
  · exact ⟨hne, (Option.some.inj h₁).symm⟩
  · cases (hfree id₁).symm.trans h₁

/-- What is handed out by a poll is what comes next. -/
theorem polled_inOrder {noq : NoqRecv} {result : Except Error (Option Bytes)}
    (st : State) (id : TaskId) (h : s.Poll stream noq (some result))
    (ht : s.noq.taken ≤ s.noq.arrived.length)
    (ho : (s.handed.map Prod.snd).flatten = s.noq.arrived.take s.noq.taken) :
    noq.taken ≤ noq.arrived.length ∧
      ((s.polled id st noq result).handed.map Prod.snd).flatten = noq.arrived.take noq.taken := by
  have hsame : ((s.handed ++ []).map Prod.snd).flatten = s.noq.arrived.take s.noq.taken := by
    rw [List.append_nil]
    exact ho
  cases h with
  | @chunk bytes _ _ hpre =>
    refine ⟨?_, ?_⟩
    · have hlen := hpre.length_le
      rw [List.length_drop] at hlen
      dsimp only
      omega
    · dsimp only [RecvSys.polled]
      rw [List.map_append, List.flatten_append, ho, List.take_add,
        ← List.prefix_iff_eq_take.1 hpre]
      simp
  | _ => exact ⟨ht, hsame⟩

/-- A step that leaves the consumers and what they took. -/
theorem Inv.same (hi : Inv s) (hc : s'.consumers = s.consumers) (hres : s'.res = s.res)
    (hnoq : s'.noq.arrived = s.noq.arrived ∧ s'.noq.taken = s.noq.taken)
    (hh : s'.handed = s.handed) : Inv s' := by
  refine ⟨?_, ?_, ?_, ?_, ?_⟩ <;> simp only [hc, hres, hnoq.1, hnoq.2, hh]
  · exact hi.sole
  · exact hi.reads
  · exact hi.vias
  · exact hi.taken
  · exact hi.inOrder

/-- The sole consumer ends, and with it the claims. -/
theorem Inv.ends (hi : Inv s) {id : TaskId} {c : Consumer} (hl : s.consumers.lookup id = some c)
    (hc : s'.consumers = s.consumers.erase id) (ht : s'.noq.taken ≤ s'.noq.arrived.length)
    (ho : (s'.handed.map Prod.snd).flatten = s'.noq.arrived.take s'.noq.taken) : Inv s' := by
  have hnone : ∀ id', s'.consumers.lookup id' = none := fun id' => hc ▸ hi.erase hl id'
  refine ⟨fun id₁ c₁ _ _ h₁ _ => ?_, fun id₁ max h₁ => ?_, fun id₁ c₁ h₁ _ => ?_, ht, ho⟩
  · cases (hnone id₁).symm.trans h₁
  · cases (hnone id₁).symm.trans h₁
  · cases (hnone id₁).symm.trans h₁

/-- The pump of `read_via_stream` is the sole consumer. -/
theorem Inv.pump {id : TaskId} {c : Consumer} (hc : ∀ max, c ≠ .read max)
    (hl : ∀ id₁ c₁, s'.consumers.lookup id₁ = some c₁ → id₁ = id ∧ c₁ = c)
    (hstreaming : s'.res.streaming = true) (ht : s'.noq.taken ≤ s'.noq.arrived.length)
    (ho : (s'.handed.map Prod.snd).flatten = s'.noq.arrived.take s'.noq.taken) : Inv s' := by
  refine ⟨fun id₁ c₁ id₂ c₂ h₁ h₂ => ?_, fun id₁ max h₁ => ?_, fun _ _ _ _ => hstreaming, ht, ho⟩
  · rw [(hl id₁ c₁ h₁).1, (hl id₂ c₂ h₂).1]
  · exact absurd (hl id₁ _ h₁).2.symm (hc max)

/-- A step that starts no pump during a `read` keeps the invariant. -/
theorem Inv.step {action : Action} (hi : Inv s) (hst : RecvStep stream action s s')
    (hok : ClaimedFree action s) : Inv s' := by
  cases hst with
  | around | fin | reset | torn => exact hi.same rfl rfl ⟨rfl, rfl⟩ rfl
  | data =>
    refine { hi with taken := ?_, inOrder := ?_ }
    · dsimp only
      rw [List.length_append]
      exact Nat.le_add_right_of_le hi.taken
    · dsimp only
      rw [List.take_append_of_le_length hi.taken]
      exact hi.inOrder
  | stop =>
    rw [RecvSys.stop]
    split
    · exact hi
    · exact hi.same rfl rfl ⟨rfl, rfl⟩ rfl
  | readAnswered _ hr =>
    obtain ⟨rfl, -⟩ := RecvStreamRes.read_some hr
    exact hi.same rfl rfl ⟨rfl, rfl⟩ rfl
  | readStarted _ _ hr =>
    obtain ⟨hstreaming, hterminal, hreading, rfl⟩ := RecvStreamRes.read_none hr
    have hfirst := @lookup_first s (hi.free hstreaming hreading)
    refine ⟨fun id₁ c₁ id₂ c₂ h₁ h₂ => ?_, fun _ _ _ => ⟨rfl, hterminal, hstreaming⟩,
      fun id₁ c₁ h₁ hc => ?_, hi.taken, hi.inOrder⟩
    · rw [(hfirst h₁).1, (hfirst h₂).1]
    · exact absurd (hfirst h₁).2 (hc _)
  | readParked _ _ h | viaParked _ _ h =>
    cases h.poll with
    | blocked => exact hi.same rfl rfl ⟨rfl, rfl⟩ rfl
  | @readDone _ id _ st _ _ _ hl h =>
    obtain ⟨ht, ho⟩ := polled_inOrder st id h.poll hi.taken hi.inOrder
    exact hi.ends hl rfl ht ho
  | readCancelled _ hl => exact hi.ends hl rfl hi.taken hi.inOrder
  | viaRefused _ hr =>
    rw [RecvStreamRes.readViaStream_error hr]
    exact hi.same rfl rfl ⟨rfl, rfl⟩ rfl
  | viaStarted _ _ hr =>
    obtain ⟨hstreaming, rfl⟩ := RecvStreamRes.readViaStream_ok hr
    have hfree := hi.free hstreaming (hok hstreaming)
    exact .pump (by simp) (fun _ _ => lookup_first hfree) rfl hi.taken hi.inOrder
  | @viaChunk _ id st _ _ _ hl h =>
    obtain ⟨ht, ho⟩ := polled_inOrder st id h.poll hi.taken hi.inOrder
    exact .pump (by simp) (fun _ _ => hi.insert hl) (hi.vias id _ hl (by simp)) ht ho
  | @viaDone _ id st _ _ _ _ hl h =>
    obtain ⟨ht, ho⟩ := polled_inOrder st id h.poll hi.taken hi.inOrder
    exact hi.ends hl rfl ht ho
  | viaWritten _ hl =>
    exact .pump (by simp) (fun _ _ => hi.insert hl) (hi.vias _ _ hl (by simp)) hi.taken hi.inOrder
  | viaAbandoned _ hl => exact hi.ends hl rfl hi.taken hi.inOrder

end Consumers

/-- In every run in which `read_via_stream` is not called while a `read` is in
    flight, the stream has one consumer at a time. -/
theorem soleConsumer_reachable {stream : StreamRes} {s : RecvSys}
    (hs : (recvStream stream ClaimedFree).Reachable s) : SoleConsumer s := by
  have hi : Consumers.Inv s := by
    refine hs.invariant (P := Consumers.Inv) ?_ fun _ _ _ ⟨_, hst, hok⟩ hi => hi.step hst hok
    rintro _ ⟨sys, -, -, rfl⟩
    exact ⟨fun _ _ _ _ h => (nomatch h), fun _ _ h => (nomatch h), fun _ _ h => (nomatch h),
      le_refl _, rfl⟩
  refine ⟨hi.sole, fun id c max hc hmax => ?_, fun id c hc hne => ?_, hi.inOrder⟩
  · cases c with
    | read max' =>
      obtain ⟨hreading, hterminal, hstreaming⟩ := hi.reads id max' hc
      refine ⟨"a read is already in flight on this stream", ?_⟩
      rw [RecvStreamRes.read, hstreaming, hterminal, hreading]
      simp [hmax]
    | _ =>
      refine ⟨"the stream's bytes were taken by read-via-stream", ?_⟩
      rw [RecvStreamRes.read, hi.vias id _ hc (by simp)]
      rfl
  · refine ⟨"read-via-stream may be called once", ?_⟩
    rw [RecvStreamRes.readViaStream, hi.vias id c hc hne]
    rfl

/-- A `read` is cancelled, and then the stream is taken by `read_via_stream`. -/
theorem soleConsumer_taken : ∃ s : RecvSys, s.consumers.lookup 1 = some .viaWriting ∧
    s.handed = [(1, [1])] ∧ SoleConsumer s := by
  have hstart := recvStream_start ClaimedFree
  have hread := hstart.step ⟨_, @RecvStep.readStarted _ _ 0 1 _ rfl rfl rfl, trivial⟩
  have hcancel := hread.step ⟨_, @RecvStep.readCancelled _ _ 0 1 rfl rfl, trivial⟩
  have hvia := hcancel.step ⟨_, @RecvStep.viaStarted _ _ 1 _ rfl rfl rfl, fun _ => rfl⟩
  have hdata := hvia.step ⟨_, @RecvStep.data _ _ [1] rfl rfl rfl, trivial⟩
  have hchunk := hdata.step ⟨_, @RecvStep.viaChunk _ _ 1 _ _ [1] rfl rfl
    (.asked rfl (@NoqRecv.Answers.chunk _ _ [1] rfl (List.prefix_refl _) nofun (by decide)) rfl),
    trivial⟩
  exact ⟨_, rfl, rfl, soleConsumer_reachable hchunk⟩

/-- While a `read` is in flight, `read_via_stream` starts a second consumer, which
    takes bytes that the `read` waits for. -/
theorem not_soleConsumer_via : ∃ s : RecvSys,
    (recvStream ⟨0, 0, 0⟩ fun _ _ => True).Reachable s ∧
    s.consumers.lookup 0 = some (.read 1) ∧ s.consumers.lookup 1 = some .viaWriting ∧
    ¬SoleConsumer s := by
  have hstart := recvStream_start fun _ _ => True
  have hread := hstart.step ⟨_, @RecvStep.readStarted _ _ 0 1 _ rfl rfl rfl, trivial⟩
  have hpark := hread.step ⟨_, @RecvStep.readParked _ _ 0 1 _ _ rfl rfl
    (.asked rfl (.blocked rfl ⟨rfl, rfl, rfl⟩) rfl), trivial⟩
  have hvia := hpark.step ⟨_, @RecvStep.viaStarted _ _ 1 _ rfl rfl rfl, trivial⟩
  have hdata := hvia.step ⟨_, @RecvStep.data _ _ [1, 2] rfl rfl rfl, trivial⟩
  have hchunk := hdata.step ⟨_, @RecvStep.viaChunk _ _ 1 _ _ [1] rfl rfl
    (.asked rfl (@NoqRecv.Answers.chunk _ _ [1] rfl (List.prefix_append [1] [2]) nofun
      (by decide)) rfl), trivial⟩
  refine ⟨_, hchunk, rfl, rfl, fun h => ?_⟩
  exact absurd (h.sole 0 (.read 1) 1 .viaWriting rfl rfl) (by decide)

end IrohEndpoint
