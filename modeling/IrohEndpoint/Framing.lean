import IrohEndpoint.Lib.Except
import IrohEndpoint.Lib.Varint
import IrohEndpoint.RelayFrames

/-!
# What the relay frames decode to

The bytes of a frame come from the relay. `splitTag` reads the frame type off its
front, and `decodeRelayDatagrams` the datagrams out of the rest.

The functions of the namespace `Checked` are the same code with every operation
checked for its range: they fail where a slice is out of bounds or a shift loses
bits. They never do (`checked_splitTag`, `checked_decodeRelayDatagrams`).

* `splitTag_exact`: the frame type is a variable-length integer, whatever the
  length it is encoded in;
* `decodeRelayDatagrams_exact`: which payloads are decoded, and that the contents
  are cut into datagrams without loss.
-/

namespace IrohEndpoint

/-- An operation of a decoder out of its range. -/
inductive RangeError
  /-- A slice that is out of bounds, where the code panics. -/
  | slice
  /-- Chunks of length zero, where the code panics. -/
  | chunkSize
  /-- A shift of a `u64` that loses bits. -/
  | shift
  deriving DecidableEq

/-! ## The checked decoders -/

/-- `bytes.get(i..j)`. -/
def getSlice (bytes : Bytes) (i j : ℕ) : Option Bytes :=
  if i ≤ j ∧ j ≤ bytes.length then some ((bytes.take j).drop i) else none

/-- One turn of the loop of `split_tag`. -/
def shiftIn (value : UInt64) (byte : UInt8) : UInt64 := (value <<< 8) ||| byte.toUInt64

namespace Checked

/-- `&bytes[i..j]`. -/
def slice (bytes : Bytes) (i j : ℕ) : Except RangeError Bytes :=
  match getSlice bytes i j with
  | some piece => .ok piece
  | none => .error .slice

/-- One turn of the loop of `split_tag`, unless the shift loses bits. -/
def shiftIn (value : UInt64) (byte : UInt8) : Except RangeError UInt64 :=
  if value.toNat * 2 ^ 8 < 2 ^ 64 then .ok (IrohEndpoint.shiftIn value byte) else .error .shift

/-- Split the frame type off the front of a frame. -/
def splitTag (frame : Bytes) : Except RangeError (Option (UInt64 × Bytes)) :=
  match frame.head? with
  | none => .ok none
  | some first => do
    let len := 1 <<< (first >>> 6).toNat
    if frame.length < len then return none
    let tail ← slice frame 1 len
    let value ← tail.foldlM shiftIn (first &&& 0x3f).toUInt64
    let rest ← slice frame len frame.length
    return some (value, rest)

/-- `bytes.chunks(n)`. -/
def chunks (n : ℕ) (bytes : Bytes) : Except RangeError (List Bytes) :=
  if n = 0 then .error .chunkSize else .ok (IrohEndpoint.chunks n bytes)

/-- Decode the payload of a `relay-to-client-datagram` frame or of a batch of them
    into individual datagrams. -/
def decodeRelayDatagrams (payload : Bytes) (batch : Bool) :
    Except RangeError (Option (List Datagram)) :=
  match (getSlice payload 0 32).bind EndpointId.ofSlice with
  | none => .ok none
  | some source => do
    let rest ← slice payload 32 payload.length
    if batch then
      match getSlice rest 1 3 with
      | none => return none
      | some be =>
        let segmentSize := ofNetwork be
        if segmentSize = 0 then return none
        let contents ← slice rest 3 rest.length
        let pieces ← chunks segmentSize contents
        return some (pieces.map fun chunk => ⟨source, chunk⟩)
    else
      match getSlice rest 1 rest.length with
      | none => return none
      | some contents => return some [⟨source, contents⟩]

end Checked

section Slices

variable {bytes : Bytes} {i j : ℕ}

theorem getSlice_eq (hij : i ≤ j) (hj : j ≤ bytes.length) :
    getSlice bytes i j = some ((bytes.take j).drop i) := if_pos ⟨hij, hj⟩

theorem checked_slice (hij : i ≤ j) (hj : j ≤ bytes.length) :
    Checked.slice bytes i j = .ok ((bytes.take j).drop i) := by
  rw [Checked.slice, getSlice_eq hij hj]

/-- A slice to the end. -/
theorem checked_slice_length (hi : i ≤ bytes.length) :
    Checked.slice bytes i bytes.length = .ok (bytes.drop i) := by
  rw [checked_slice hi le_rfl, List.take_length]

end Slices

/-! ## Frame types -/

/-- The length of the frame type, as the code shifts it. -/
theorem shiftLeft_eq_announced (first : UInt8) :
    1 <<< (first >>> 6).toNat = Varint.announced first := by
  rw [Nat.one_shiftLeft, UInt8.toNat_shiftRight, Nat.shiftRight_eq_div_pow]
  rfl

/-- The code masks the announced length off. -/
theorem mask_toNat (first : UInt8) : (first &&& 0x3f).toUInt64.toNat = first.toNat % 2 ^ 6 := by
  rw [UInt8.toNat_toUInt64, UInt8.toNat_and]
  exact Nat.and_two_pow_sub_one_eq_mod first.toNat 6

/-- A turn of the loop, on a value that leaves room for another byte. -/
theorem shiftIn_toNat {value : UInt64} (h : value.toNat * 2 ^ 8 < 2 ^ 64) (byte : UInt8) :
    (shiftIn value byte).toNat = value.toNat * 256 + byte.toNat := by
  have hshift : (value <<< 8).toNat = value.toNat <<< 8 := by
    rw [UInt64.toNat_shiftLeft, show (8 : UInt64).toNat % 64 = 8 from rfl]
    refine Nat.mod_eq_of_lt ?_
    rwa [Nat.shiftLeft_eq]
  rw [shiftIn, UInt64.toNat_or, hshift, UInt8.toNat_toUInt64,
    ← Nat.shiftLeft_add_eq_or_of_lt byte.toNat_lt, Nat.shiftLeft_eq]

/-- The loop reads its bytes in network byte order, after what was read before, and
    loses nothing as long as all of it fits 64 bits. -/
theorem foldlM_shiftIn (tail : Bytes) (value : UInt64)
    (h : (value.toNat + 1) * 256 ^ tail.length ≤ 2 ^ 64) :
    tail.foldlM Checked.shiftIn value = .ok (tail.foldl shiftIn value) ∧
      (tail.foldl shiftIn value).toNat = value.toNat * 256 ^ tail.length + ofNetwork tail := by
  induction tail generalizing value with
  | nil =>
    refine ⟨rfl, ?_⟩
    rw [List.foldl_nil, List.length_nil, pow_zero, mul_one, ofNetwork_nil, add_zero]
  | cons byte tail ih =>
    have hbyte : byte.toNat + 1 ≤ 256 := byte.toNat_lt
    have hroom : (value.toNat + 1) * 256 ≤ 2 ^ 64 := by
      refine le_trans (Nat.mul_le_mul_left _ ?_) h
      exact Nat.le_self_pow (Nat.succ_ne_zero _) 256
    have hvalue : value.toNat * 2 ^ 8 < 2 ^ 64 := by omega
    have hstep := shiftIn_toNat hvalue byte
    have hnext : ((shiftIn value byte).toNat + 1) * 256 ^ tail.length ≤ 2 ^ 64 := by
      refine le_trans ?_ h
      rw [List.length_cons, pow_succ', ← mul_assoc, hstep]
      refine Nat.mul_le_mul_right _ ?_
      omega
    obtain ⟨hok, hfold⟩ := ih (shiftIn value byte) hnext
    constructor
    · rw [List.foldlM_cons, Checked.shiftIn, if_pos hvalue, List.foldl_cons]
      exact hok
    · rw [List.foldl_cons, hfold, hstep, List.length_cons, ofNetwork_cons]
      ring

/-- What the loop is run on: the masked first byte, and at most seven bytes more. -/
theorem foldlM_shiftIn_first (first : UInt8) (rest : Bytes) :
    let tail := rest.take (Varint.announced first - 1)
    tail.foldlM Checked.shiftIn (first &&& 0x3f).toUInt64 =
        .ok (tail.foldl shiftIn (first &&& 0x3f).toUInt64) ∧
      (tail.foldl shiftIn (first &&& 0x3f).toUInt64).toNat = Varint.value (first :: tail) := by
  intro tail
  have hmask := mask_toNat first
  have hsix : first.toNat % 2 ^ 6 < 2 ^ 6 := Nat.mod_lt _ (by decide)
  have hlen : tail.length ≤ 7 := by
    have hann := (Varint.announced_bounds first).2
    have htake : tail.length ≤ Varint.announced first - 1 := List.length_take_le _ _
    omega
  have hfits : ((first &&& 0x3f).toUInt64.toNat + 1) * 256 ^ tail.length ≤ 2 ^ 64 := by
    calc ((first &&& 0x3f).toUInt64.toNat + 1) * 256 ^ tail.length
        ≤ 2 ^ 6 * 256 ^ 7 :=
          Nat.mul_le_mul (by omega) (Nat.pow_le_pow_right (by decide) hlen)
      _ ≤ 2 ^ 64 := by decide
  obtain ⟨hok, hfold⟩ := foldlM_shiftIn tail _ hfits
  refine ⟨hok, ?_⟩
  rw [hfold, hmask, Varint.value_cons]

/-- The bytes of the frame type: the first one, and those it announces. -/
theorem take_announced (first : UInt8) (rest : Bytes) :
    (first :: rest).take (Varint.announced first) =
      first :: rest.take (Varint.announced first - 1) := by
  obtain ⟨n, hn⟩ := Nat.exists_eq_add_one.2 (Varint.announced_bounds first).1
  rw [hn, List.take_succ_cons, Nat.add_sub_cancel]

/-- A frame that is shorter than its first byte announces has no frame type. -/
theorem splitTag_short {first : UInt8} {rest : Bytes}
    (h : (first :: rest).length < Varint.announced first) : splitTag (first :: rest) = none := by
  rw [splitTag, shiftLeft_eq_announced]
  exact if_pos h

/-- The frame type of a frame is the integer that its first bytes hold. -/
theorem splitTag_long {first : UInt8} {rest : Bytes}
    (h : Varint.announced first ≤ (first :: rest).length) :
    ∃ v : UInt64, v.toNat = Varint.value ((first :: rest).take (Varint.announced first)) ∧
      splitTag (first :: rest) = some (v, (first :: rest).drop (Varint.announced first)) := by
  refine ⟨(rest.take (Varint.announced first - 1)).foldl shiftIn (first &&& 0x3f).toUInt64,
    ?_, ?_⟩
  · rw [take_announced]
    exact (foldlM_shiftIn_first first rest).2
  · rw [splitTag, shiftLeft_eq_announced]
    exact if_neg (Nat.not_lt.2 h)

/-- No slice of `split_tag` is out of bounds, and its shifts lose nothing. -/
theorem checked_splitTag (frame : Bytes) : Checked.splitTag frame = .ok (splitTag frame) := by
  cases frame with
  | nil => rfl
  | cons first rest =>
    rw [Checked.splitTag, List.head?_cons]
    dsimp only
    rw [shiftLeft_eq_announced]
    rcases lt_or_ge (first :: rest).length (Varint.announced first) with h | h
    · rw [if_pos h, splitTag_short h]
      rfl
    · rw [if_neg (Nat.not_lt.2 h), checked_slice (Varint.announced_bounds first).1 h,
        checked_slice_length h, take_announced, List.drop_one, List.tail_cons]
      dsimp only [bind, Except.bind]
      rw [(foldlM_shiftIn_first first rest).1, splitTag, shiftLeft_eq_announced]
      exact congrArg Except.ok (if_neg (Nat.not_lt.2 h)).symm

/-- The encoding of an integer, in any length it fits, is split off as that integer. -/
theorem splitTag_encode {k v : ℕ} (hk : k < 4) (hv : v < 2 ^ Varint.bits (2 ^ k)) (rest : Bytes) :
    splitTag (Varint.encode k v ++ rest) = some (UInt64.ofNat v, rest) := by
  obtain ⟨first, tail, hencode, hannounced⟩ := Varint.announced_encode hk hv
  have hlen : (Varint.encode k v).length = Varint.announced first := by
    rw [hannounced, Varint.length_encode]
  have hle : Varint.announced first ≤ (first :: (tail ++ rest)).length := by
    rw [← hlen, hencode, List.length_cons, List.length_cons, List.length_append]
    omega
  obtain ⟨w, hw, hsplit⟩ := splitTag_long hle
  rw [← List.cons_append, ← hencode] at hw hsplit
  rw [List.take_left' hlen, Varint.value_encode hk hv] at hw
  rw [hsplit, List.drop_left' hlen, ← hw, UInt64.ofNat_toNat]

/-- **The frame type is decoded exactly.** A frame has none if and only if it is
    empty or shorter than its first byte announces; else it is the integer that the
    announced bytes hold, below `2 ^ 62`, and the payload is what follows them. No
    slice is out of bounds and no shift loses bits. Every integer is read back from
    its encoding of every length, whatever follows. -/
theorem splitTag_exact (frame : Bytes) :
    Checked.splitTag frame = .ok (splitTag frame) ∧
    (splitTag frame = none ↔
      frame = [] ∨ ∃ first ∈ frame.head?, frame.length < Varint.announced first) ∧
    (∀ v rest, splitTag frame = some (v, rest) → ∃ first ∈ frame.head?,
      rest = frame.drop (Varint.announced first) ∧ v.toNat < 2 ^ 62 ∧
      v.toNat = Varint.value (frame.take (Varint.announced first))) ∧
    ∀ k < 4, ∀ v < 2 ^ Varint.bits (2 ^ k),
      splitTag (Varint.encode k v ++ frame) = some (UInt64.ofNat v, frame) := by
  refine ⟨checked_splitTag frame, ?_, ?_, fun k hk v hv => splitTag_encode hk hv frame⟩
  · cases frame with
    | nil => exact iff_of_true rfl (.inl rfl)
    | cons first rest =>
      constructor
      · intro h
        refine .inr ⟨first, rfl, ?_⟩
        by_contra hlong
        obtain ⟨v, -, hsplit⟩ := splitTag_long (Nat.not_lt.1 hlong)
        rw [hsplit] at h
        cases h
      · rintro (h | ⟨_, hfirst, hshort⟩)
        · cases h
        · cases hfirst
          exact splitTag_short hshort
  · intro v rest h
    cases frame with
    | nil => cases h
    | cons first tail =>
      rcases lt_or_ge (first :: tail).length (Varint.announced first) with hshort | hlong
      · rw [splitTag_short hshort] at h
        cases h
      · obtain ⟨w, hw, hsplit⟩ := splitTag_long hlong
        rw [hsplit] at h
        cases h
        refine ⟨first, rfl, rfl, ?_, hw⟩
        rw [hw]
        exact Varint.value_take_lt _ (Varint.announced_bounds first).2

-- A frame type in two bytes.
example : splitTag [0x40, 6, 42] = some (Tag.relayToClientDatagram, [42]) := by decide

/-! ## Datagrams -/

section Chunks

variable {n : ℕ} {bytes : Bytes}

theorem chunks_nil (n : ℕ) : chunks n [] = [] := by
  cases n with
  | zero => rw [chunks.eq_def]
  | succ n => rw [chunks.eq_def]

/-- The first piece, and the pieces of the rest. -/
theorem chunks_eq (hn : 0 < n) (hbytes : bytes ≠ []) :
    chunks n bytes = bytes.take n :: chunks n (bytes.drop n) := by
  obtain ⟨n, rfl⟩ := Nat.exists_eq_add_one.2 hn
  obtain ⟨b, rest, rfl⟩ := List.exists_cons_of_ne_nil hbytes
  rw [chunks]

/-- The pieces of a byte string, one after the other, are the byte string. -/
theorem flatten_chunks (hn : 0 < n) : (chunks n bytes).flatten = bytes := by
  induction hlen : bytes.length using Nat.strong_induction_on generalizing bytes with
  | _ len ih =>
    rcases eq_or_ne bytes [] with rfl | hbytes
    · rw [chunks_nil, List.flatten_nil]
    · have hpos := List.length_pos_of_ne_nil hbytes
      have hdrop : (bytes.drop n).length < len := by
        rw [List.length_drop]
        omega
      rw [chunks_eq hn hbytes, List.flatten_cons, ih _ hdrop rfl, List.take_append_drop]

/-- Pieces of the size `n`: all of them but the last one, which is not empty and not
    longer. -/
def Segmented (n : ℕ) (pieces : List Bytes) : Prop :=
  (∀ piece ∈ pieces.dropLast, piece.length = n) ∧
    ∀ piece ∈ pieces.getLast?, 1 ≤ piece.length ∧ piece.length ≤ n

/-- A byte string is cut into pieces of the size that is asked for. -/
theorem segmented_chunks (hn : 0 < n) : Segmented n (chunks n bytes) := by
  induction hlen : bytes.length using Nat.strong_induction_on generalizing bytes with
  | _ len ih =>
    rcases eq_or_ne bytes [] with rfl | hbytes
    · rw [chunks_nil]
      exact ⟨nofun, nofun⟩
    have hpos := List.length_pos_of_ne_nil hbytes
    rw [chunks_eq hn hbytes]
    rcases eq_or_ne (bytes.drop n) [] with hrest | hrest
    · -- The last piece: what is left of the byte string.
      rw [hrest, chunks_nil]
      refine ⟨nofun, ?_⟩
      intro piece hpiece
      rw [List.getLast?_singleton, Option.mem_some_iff] at hpiece
      rw [← hpiece, List.length_take]
      omega
    · -- A piece that is followed by another one is full.
      have hfull : n < bytes.length := Nat.lt_of_not_le (List.drop_eq_nil_iff.not.1 hrest)
      have hdrop : (bytes.drop n).length < len := by
        rw [List.length_drop]
        omega
      obtain ⟨hinit, hlast⟩ := ih _ hdrop rfl
      have hne : chunks n (bytes.drop n) ≠ [] := by
        rw [chunks_eq hn hrest]
        exact List.cons_ne_nil _ _
      constructor
      · rw [List.dropLast_cons_of_ne_nil hne]
        intro piece hpiece
        rcases List.mem_cons.1 hpiece with rfl | hpiece
        · rw [List.length_take, min_eq_left hfull.le]
        · exact hinit piece hpiece
      · intro piece hpiece
        rw [List.getLast?_cons_of_ne_nil hne] at hpiece
        exact hlast piece hpiece

end Chunks

/-- What follows the source: the ECN byte, the segment size of a batch, and the
    contents of the datagrams. -/
def segments : Bool → Bytes → Option (List Bytes)
  | true, _ :: hi :: lo :: contents =>
    if ofNetwork [hi, lo] = 0 then none else some (chunks (ofNetwork [hi, lo]) contents)
  | false, _ :: contents => some [contents]
  | _, _ => none

/-- The datagrams of a source with these contents. -/
def datagrams (source : EndpointId) (pieces : List Bytes) : List Datagram :=
  pieces.map fun piece => ⟨source, piece⟩

/-- The size of the segments of a batch: two bytes, after the source and the ECN. -/
def segmentSize (payload : Bytes) : ℕ := ofNetwork ((payload.drop 33).take 2)

/-- The length of what is before the contents. -/
def headerLength (batch : Bool) : ℕ := if batch then 35 else 33

/-- A payload that is too short for its header, or a batch of segments of size zero. -/
def Malformed (payload : Bytes) (batch : Bool) : Prop :=
  payload.length < headerLength batch ∨ batch = true ∧ segmentSize payload = 0

theorem ofNetwork_pair (hi lo : UInt8) : ofNetwork [hi, lo] = hi.toNat * 256 + lo.toNat := by
  rw [ofNetwork_cons, ofNetwork_cons, ofNetwork_nil, List.length_singleton, List.length_nil,
    pow_one, pow_zero, mul_one, add_zero]

/-- A payload of 32 bytes or more begins with a source. -/
theorem exists_source {payload : Bytes} (h : 32 ≤ payload.length) :
    ∃ (source : EndpointId) (rest : Bytes), payload = source.toList ++ rest := by
  have htake : (payload.take 32).toArray.size = 32 := by
    rw [List.size_toArray, List.length_take, min_eq_left h]
  refine ⟨⟨(payload.take 32).toArray, htake⟩, payload.drop 32, ?_⟩
  exact (List.take_append_drop 32 payload).symm

section Append

variable (source : EndpointId) (rest : Bytes) (batch : Bool)

theorem take_source : (source.toList ++ rest).take 32 = source.toList :=
  List.take_left' source.length_toList

theorem drop_source : (source.toList ++ rest).drop 32 = rest :=
  List.drop_left' source.length_toList

/-- Behind the source, and `n` bytes more. -/
theorem drop_header (n : ℕ) : (source.toList ++ rest).drop (32 + n) = rest.drop n := by
  rw [← List.drop_drop, drop_source]

/-- Behind a source, the decoder cuts the contents. -/
theorem decodeRelayDatagrams_append :
    decodeRelayDatagrams (source.toList ++ rest) batch =
      (segments batch rest).map (datagrams source) := by
  rw [decodeRelayDatagrams, take_source, drop_source, EndpointId.ofSlice_toList]
  cases batch with
  | false => cases rest <;> rfl
  | true =>
    rcases rest with _ | ⟨_, _ | ⟨hi, _ | ⟨lo, contents⟩⟩⟩
    · rfl
    · rfl
    · rfl
    · rw [segments, ofNetwork_pair, apply_ite (Option.map (datagrams source))]
      rfl

/-- Behind a source, no slice is out of bounds: the guards are those of the slices. -/
theorem checked_decodeRelayDatagrams_append :
    Checked.decodeRelayDatagrams (source.toList ++ rest) batch =
      .ok ((segments batch rest).map (datagrams source)) := by
  have hlen : 32 ≤ (source.toList ++ rest).length := by
    rw [List.length_append, source.length_toList]
    omega
  have hsource : (getSlice (source.toList ++ rest) 0 32).bind EndpointId.ofSlice = some source := by
    rw [getSlice_eq (Nat.zero_le _) hlen, List.drop_zero, take_source, Option.bind_some,
      EndpointId.ofSlice_toList]
  rw [Checked.decodeRelayDatagrams, hsource]
  dsimp only
  rw [checked_slice_length hlen, drop_source]
  match batch, rest with
  | true, [] | true, [_] | true, [_, _] | false, [] => rfl
  | false, ecn :: contents =>
    have hget : getSlice (ecn :: contents) 1 (ecn :: contents).length = some contents := by
      have hone : 1 ≤ (ecn :: contents).length := Nat.le_add_left _ _
      rw [getSlice_eq hone le_rfl, List.take_length, List.drop_one, List.tail_cons]
    dsimp only [bind, Except.bind]
    rw [if_neg Bool.false_ne_true, hget]
    rfl
  | true, ecn :: hi :: lo :: contents =>
    have hthree : 3 ≤ (ecn :: hi :: lo :: contents).length := by
      simp only [List.length_cons]
      omega
    have hget : getSlice (ecn :: hi :: lo :: contents) 1 3 = some [hi, lo] :=
      getSlice_eq (by decide) hthree
    dsimp only [bind, Except.bind]
    rw [if_pos rfl, hget]
    dsimp only
    rw [segments]
    rcases eq_or_ne (ofNetwork [hi, lo]) 0 with hzero | hzero
    · rw [if_pos hzero, if_pos hzero]
      rfl
    · rw [if_neg hzero, if_neg hzero, checked_slice_length hthree]
      dsimp only
      rw [Checked.chunks, if_neg hzero]
      rfl

/-- Behind a source, the contents are not cut if and only if the payload is
    malformed. -/
theorem segments_eq_none_iff :
    segments batch rest = none ↔ Malformed (source.toList ++ rest) batch := by
  have hlen : (source.toList ++ rest).length = 32 + rest.length := by
    rw [List.length_append, source.length_toList]
  rw [Malformed, hlen, headerLength, segmentSize, drop_header source rest 1]
  match batch, rest with
  | true, [] | true, [_] | true, [_, _] | false, [] => exact iff_of_true rfl (.inl (by simp))
  | false, _ :: contents =>
    refine iff_of_false nofun (not_or.2 ⟨?_, nofun⟩)
    rw [if_neg Bool.false_ne_true, List.length_cons]
    omega
  | true, _ :: hi :: lo :: contents =>
    have hlong : ¬32 + (contents.length + 1 + 1 + 1) < 35 := by omega
    constructor
    · intro h
      rw [segments, ite_eq_left_iff] at h
      exact .inr ⟨rfl, by_contra fun hzero => nomatch h hzero⟩
    · rintro (h | ⟨-, hzero⟩)
      · exact absurd h hlong
      · exact if_pos hzero

/-- Pieces that are cut are the contents, and those of a batch have its segment
    size. -/
theorem segments_spec {pieces : List Bytes} (h : segments batch rest = some pieces) :
    pieces.flatten = (source.toList ++ rest).drop (headerLength batch) ∧
      if batch then Segmented (segmentSize (source.toList ++ rest)) pieces
      else pieces.length = 1 := by
  rw [segmentSize, drop_header source rest 1]
  match batch, rest with
  | true, [] | true, [_] | true, [_, _] | false, [] => cases h
  | false, ecn :: contents =>
    cases h
    rw [headerLength, if_neg Bool.false_ne_true, drop_header source _ 1, if_neg Bool.false_ne_true]
    exact ⟨List.append_nil _, rfl⟩
  | true, ecn :: hi :: lo :: contents =>
    rw [segments] at h
    rcases Nat.eq_zero_or_pos (ofNetwork [hi, lo]) with hzero | hpos
    · rw [if_pos hzero] at h
      cases h
    · rw [if_neg hpos.ne'] at h
      cases h
      rw [headerLength, if_pos rfl, drop_header source _ 3, if_pos rfl]
      exact ⟨flatten_chunks hpos, segmented_chunks hpos⟩

end Append

theorem map_payload_datagrams (source : EndpointId) (pieces : List Bytes) :
    (datagrams source pieces).map Datagram.payload = pieces := by
  rw [datagrams, List.map_map]
  exact List.map_id pieces

/-- A payload without a whole source is not decoded. -/
theorem decodeRelayDatagrams_short {payload : Bytes} (h : payload.length < 32) (batch : Bool) :
    Checked.decodeRelayDatagrams payload batch = .ok none ∧
      decodeRelayDatagrams payload batch = none := by
  constructor
  · have hget : getSlice payload 0 32 = none := if_neg fun hle => Nat.not_lt.2 hle.2 h
    rw [Checked.decodeRelayDatagrams, hget]
    rfl
  · have hsource : EndpointId.ofSlice (payload.take 32) = none := by
      refine dif_neg ?_
      rw [List.length_take]
      omega
    rw [decodeRelayDatagrams, hsource]
    rfl

/-- **Relay datagrams are decoded exactly.** No slice is out of bounds. A payload
    is refused if and only if it is malformed: too short for its header, or a batch
    of segments of size zero. Else all its datagrams have the source that it begins
    with, and what follows the header is cut into their payloads: one, or segments of
    the size that the batch tells. And the datagram that a client sends is decoded to
    itself. -/
theorem decodeRelayDatagrams_exact (payload : Bytes) (batch : Bool) :
    Checked.decodeRelayDatagrams payload batch = .ok (decodeRelayDatagrams payload batch) ∧
    (decodeRelayDatagrams payload batch = none ↔ Malformed payload batch) ∧
    (∀ decoded, decodeRelayDatagrams payload batch = some decoded →
      (∀ datagram ∈ decoded, datagram.source.toList = payload.take 32) ∧
      (decoded.map Datagram.payload).flatten = payload.drop (headerLength batch) ∧
      if batch then Segmented (segmentSize payload) (decoded.map Datagram.payload)
      else decoded.length = 1) ∧
    ∀ (id : EndpointId) (contents : Bytes), ∃ tail,
      splitTag (encodeClientDatagram id contents) = some (Tag.clientToRelayDatagram, tail) ∧
      decodeRelayDatagrams tail false = some [⟨id, contents⟩] := by
  have hsent : ∀ (id : EndpointId) (contents : Bytes), ∃ tail,
      splitTag (encodeClientDatagram id contents) = some (Tag.clientToRelayDatagram, tail) ∧
      decodeRelayDatagrams tail false = some [⟨id, contents⟩] := fun id contents =>
    ⟨_, splitTag_encodeClientDatagram id contents, decodeRelayDatagrams_single id 0 contents⟩
  rcases lt_or_ge payload.length 32 with hshort | hlong
  · obtain ⟨hchecked, hnone⟩ := decodeRelayDatagrams_short hshort batch
    rw [hchecked, hnone]
    refine ⟨rfl, iff_of_true rfl (.inl ?_), nofun, hsent⟩
    rw [headerLength]
    split <;> omega
  · obtain ⟨source, rest, rfl⟩ := exists_source hlong
    rw [checked_decodeRelayDatagrams_append, decodeRelayDatagrams_append]
    refine ⟨rfl, ?_, ?_, hsent⟩
    · rw [Option.map_eq_none_iff]
      exact segments_eq_none_iff source rest batch
    · intro decoded hdecoded
      obtain ⟨pieces, hpieces, rfl⟩ := Option.map_eq_some_iff.1 hdecoded
      obtain ⟨hflatten, hsize⟩ := segments_spec source rest batch hpieces
      rw [map_payload_datagrams, take_source]
      refine ⟨?_, hflatten, ?_⟩
      · intro datagram hdatagram
        obtain ⟨piece, -, rfl⟩ := List.mem_map.1 hdatagram
        rfl
      · rwa [datagrams, List.length_map]

end IrohEndpoint
