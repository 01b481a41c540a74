import Mathlib.Data.Nat.Digits.Defs
import Mathlib.Tactic.Ring

/-!
# Network byte order and variable-length integers

The number that bytes are in network byte order (`ofNetwork`), and the bytes of a number
(`toNetwork`).

A variable-length integer is 1, 2, 4 or 8 bytes long. The two most significant bits of its first
byte are the base-2 logarithm of that length, and the other bits the integer, in network byte
order. An integer can be encoded in every length whose other bits can hold it.

* `Varint.announced` is the length that a first byte announces, and `Varint.value` the integer
  that the bytes hold;
* `Varint.encode` is the encoding in `2 ^ k` bytes: it announces its length
  (`Varint.announced_encode`) and holds its integer (`Varint.value_encode`).
-/

/-- The number that the bytes are in network byte order: the most significant byte is first. -/
def ofNetwork (bytes : List UInt8) : ℕ := Nat.ofDigits 256 (bytes.map UInt8.toNat).reverse

/-- The `n` bytes of a number below `256 ^ n` in network byte order. -/
def toNetwork : ℕ → ℕ → List UInt8
  | 0, _ => []
  | n + 1, v => UInt8.ofNat (v / 256 ^ n) :: toNetwork n (v % 256 ^ n)

theorem ofNetwork_nil : ofNetwork [] = 0 := rfl

/-- The first byte is the most significant one. -/
theorem ofNetwork_cons (b : UInt8) (bytes : List UInt8) :
    ofNetwork (b :: bytes) = b.toNat * 256 ^ bytes.length + ofNetwork bytes := by
  rw [ofNetwork, List.map_cons, Nat.ofDigits_reverse_cons, List.length_map, ← ofNetwork, add_comm,
    mul_comm]

/-- That many bytes hold no greater number. -/
theorem ofNetwork_lt (bytes : List UInt8) : ofNetwork bytes < 256 ^ bytes.length := by
  have hdigits : ∀ d ∈ (bytes.map UInt8.toNat).reverse, d < 256 := by
    simp only [List.mem_reverse, List.mem_map]
    rintro d ⟨b, -, rfl⟩
    exact b.toNat_lt
  simpa [ofNetwork] using Nat.ofDigits_lt_base_pow_length (by decide) hdigits

theorem length_toNetwork (n v : ℕ) : (toNetwork n v).length = n := by
  induction n generalizing v with
  | zero => rfl
  | succ n ih => rw [toNetwork, List.length_cons, ih]

/-- The bytes of a number are that number. -/
theorem ofNetwork_toNetwork {n v : ℕ} (h : v < 256 ^ n) : ofNetwork (toNetwork n v) = v := by
  induction n generalizing v with
  | zero =>
    rw [toNetwork, ofNetwork_nil]
    omega
  | succ n ih =>
    have hpos : 0 < 256 ^ n := by positivity
    have hbyte : v / 256 ^ n < 256 := Nat.div_lt_of_lt_mul (by rwa [← pow_succ])
    rw [toNetwork, ofNetwork_cons, length_toNetwork, ih (Nat.mod_lt v hpos), UInt8.toNat_ofNat',
      Nat.mod_eq_of_lt hbyte, mul_comm]
    exact Nat.div_add_mod v (256 ^ n)

/-! ## Variable-length integers -/

namespace Varint

/-- The length that the first byte announces. -/
def announced (first : UInt8) : ℕ := 2 ^ (first.toNat / 2 ^ 6)

/-- The bits that are left for the integer in an encoding of `len` bytes. -/
def bits (len : ℕ) : ℕ := 8 * len - 2

/-- The integer that the bytes hold: what the first two bits do not tell. -/
def value (bytes : List UInt8) : ℕ := ofNetwork bytes % 2 ^ bits bytes.length

/-- The encoding of `v` in `2 ^ k` bytes. -/
def encode (k v : ℕ) : List UInt8 := toNetwork (2 ^ k) (k * 2 ^ bits (2 ^ k) + v)

variable {k v : ℕ}

/-- A byte more than `n` leaves six bits of the first byte, and those `n` bytes. -/
theorem two_pow_bits (n : ℕ) : 2 ^ bits (n + 1) = 2 ^ 6 * 256 ^ n := by
  have h256 : 256 ^ n = 2 ^ (8 * n) := by
    rw [pow_mul]
    norm_num
  rw [h256, ← pow_add, bits]
  congr 1
  omega

/-- The announced length is 1, 2, 4 or 8. -/
theorem announced_cases (first : UInt8) : ∃ k < 4, announced first = 2 ^ k :=
  ⟨first.toNat / 2 ^ 6, Nat.div_lt_of_lt_mul first.toNat_lt, rfl⟩

/-- At most eight bytes are announced, and at least one. -/
theorem announced_bounds (first : UInt8) : 1 ≤ announced first ∧ announced first ≤ 8 := by
  obtain ⟨k, hk, h⟩ := announced_cases first
  rw [h]
  exact ⟨Nat.one_le_two_pow, Nat.pow_le_pow_right Nat.two_pos (Nat.le_of_lt_succ hk)⟩

/-- The first byte holds the integer in its last six bits. -/
theorem value_cons (first : UInt8) (rest : List UInt8) :
    value (first :: rest) = first.toNat % 2 ^ 6 * 256 ^ rest.length + ofNetwork rest := by
  have hrest := ofNetwork_lt rest
  have hlow : first.toNat % 2 ^ 6 * 256 ^ rest.length + ofNetwork rest <
      2 ^ 6 * 256 ^ rest.length := by
    have hsix : first.toNat % 2 ^ 6 + 1 ≤ 2 ^ 6 := Nat.mod_lt _ (by decide)
    calc first.toNat % 2 ^ 6 * 256 ^ rest.length + ofNetwork rest
        < (first.toNat % 2 ^ 6 + 1) * 256 ^ rest.length := by rw [Nat.succ_mul]; omega
      _ ≤ 2 ^ 6 * 256 ^ rest.length := Nat.mul_le_mul_right _ hsix
  have hsplit : first.toNat * 256 ^ rest.length + ofNetwork rest =
      first.toNat % 2 ^ 6 * 256 ^ rest.length + ofNetwork rest +
        2 ^ 6 * 256 ^ rest.length * (first.toNat / 2 ^ 6) := by
    conv_lhs => rw [← Nat.mod_add_div first.toNat (2 ^ 6)]
    ring
  rw [value, List.length_cons, two_pow_bits, ofNetwork_cons, hsplit, Nat.add_mul_mod_self_left,
    Nat.mod_eq_of_lt hlow]

/-- An integer that is held is less than what its bits can tell. -/
theorem value_lt (bytes : List UInt8) : value bytes < 2 ^ bits bytes.length :=
  Nat.mod_lt _ (by positivity)

/-- Eight bytes hold 62 bits. -/
theorem value_take_lt (bytes : List UInt8) {len : ℕ} (hlen : len ≤ 8) :
    value (bytes.take len) < 2 ^ 62 := by
  refine (value_lt _).trans_le (Nat.pow_le_pow_right Nat.two_pos ?_)
  have htake : (bytes.take len).length ≤ len := List.length_take_le _ _
  rw [bits]
  omega

/-! ## Encodings -/

theorem length_encode (k v : ℕ) : (encode k v).length = 2 ^ k := length_toNetwork _ _

/-- The length and the integer fit. -/
theorem encoded_lt (hk : k < 4) (hv : v < 2 ^ bits (2 ^ k)) :
    k * 2 ^ bits (2 ^ k) + v < 256 ^ 2 ^ k := by
  have hfull : 256 ^ 2 ^ k = 4 * 2 ^ bits (2 ^ k) := by
    obtain ⟨n, hn⟩ := Nat.exists_eq_add_one_of_ne_zero (pow_ne_zero k (two_ne_zero' ℕ))
    rw [hn, two_pow_bits, pow_succ]
    ring
  rw [hfull]
  calc k * 2 ^ bits (2 ^ k) + v
      < (k + 1) * 2 ^ bits (2 ^ k) := by rw [Nat.succ_mul]; omega
    _ ≤ 4 * 2 ^ bits (2 ^ k) := Nat.mul_le_mul_right _ hk

/-- An encoding holds its integer. -/
theorem value_encode (hk : k < 4) (hv : v < 2 ^ bits (2 ^ k)) : value (encode k v) = v := by
  rw [value, length_encode, encode, ofNetwork_toNetwork (encoded_lt hk hv), mul_comm,
    Nat.mul_add_mod, Nat.mod_eq_of_lt hv]

/-- The first byte of an encoding announces its length. -/
theorem announced_encode (hk : k < 4) (hv : v < 2 ^ bits (2 ^ k)) :
    ∃ first rest, encode k v = first :: rest ∧ announced first = 2 ^ k := by
  obtain ⟨n, hn⟩ := Nat.exists_eq_add_one_of_ne_zero (pow_ne_zero k (two_ne_zero' ℕ))
  have hlt := encoded_lt hk hv
  have hlog : (k * 2 ^ bits (2 ^ k) + v) / 256 ^ n / 2 ^ 6 = k := by
    rw [hn, two_pow_bits, mul_comm (2 ^ 6)] at hv ⊢
    rw [Nat.div_div_eq_div_mul, mul_comm k, Nat.mul_add_div (by positivity),
      Nat.div_eq_of_lt hv, add_zero]
  have hbyte : (k * 2 ^ bits (2 ^ k) + v) / 256 ^ n < 256 := by
    refine Nat.div_lt_of_lt_mul ?_
    rwa [← pow_succ, ← hn]
  refine ⟨UInt8.ofNat ((k * 2 ^ bits (2 ^ k) + v) / 256 ^ n), _, by rw [encode, hn, toNetwork], ?_⟩
  rw [announced, UInt8.toNat_ofNat', Nat.mod_eq_of_lt hbyte, hlog]

end Varint
