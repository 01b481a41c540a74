import IrohEndpoint.Types

/-!
# The redial backoff

The delay before a redial of the home relay: `REDIAL_MIN_DELAY` doubled per
attempt and capped, plus up to as much again in jitter. A home relay that had
been registered for `REDIAL_ESTABLISHED` before it failed is redialed at once
and restarts the backoff.

`Checked.redialDelay` is the delay with its arithmetic checked: it fails where the
code overflows, or casts a number that does not fit. It never does, and the delay
keeps to its bounds (`redialDelay_exact`).
-/

namespace IrohEndpoint

/-- `Duration::checked_mul`: a duration has 64 bits of seconds. -/
def checkedMul (d : Duration) (n : ℕ) : Option Duration :=
  if d * n < 2 ^ 64 * 1000000000 then some (d * n) else none

/-- `1u32.checked_shl(n)`. -/
def checkedShl (n : ℕ) : Option ℕ := if n < 32 then some (2 ^ n) else none

/-- The delay of an attempt before the jitter. -/
def redialBase (attempt : ℕ) : Duration :=
  min ((checkedMul redialMinDelay ((checkedShl (min attempt 31)).getD (2 ^ 32 - 1))).getD
    redialMaxDelay) redialMaxDelay

/-- The delay before the redial attempt numbered `attempt`, with two random
    bytes, or none if the random source refuses. -/
def redialDelay (attempt : ℕ) (random : Option (UInt8 × UInt8)) : Duration :=
  let base := redialBase attempt
  let spread := match random with
    | some (lo, hi) => lo.toNat + 2 ^ 8 * hi.toNat
    | none => 0
  let jitter := base % 2 ^ 64 / (2 ^ 16 - 1) * spread
  min (base + jitter) redialMaxDelay

/-- The number that the random bytes are, zero if the random source refuses. -/
def spread : Option (UInt8 × UInt8) → ℕ
  | some (lo, hi) => lo.toNat + 2 ^ 8 * hi.toNat
  | none => 0

namespace Checked

/-- A number that must be below `bound`: the result of an operation that panics when
    it overflows, or of a cast. -/
def below (bound n : ℕ) : Except Fault ℕ := if n < bound then .ok n else .error .overflow

/-- The delay before the redial attempt numbered `attempt`, its arithmetic checked. -/
def redialDelay (attempt : ℕ) (random : Option (UInt8 × UInt8)) : Except Fault Duration := do
  let base := redialBase attempt
  let nanos ← below (2 ^ 64) base
  let jitter ← below (2 ^ 64) (nanos / (2 ^ 16 - 1) * spread random)
  let sum ← below (2 ^ 64 * 1000000000) (base + jitter)
  return min sum redialMaxDelay

end Checked

/-- The state of the backoff: the number of the next attempt, and since when
    the home relay is registered. -/
structure Backoff where
  attempt : ℕ
  homeSince : Option Instant

/-- The delay the next redial waits at `now`, consuming the backoff state. -/
def nextRedialDelay (b : Backoff) (now : Instant) (random : Option (UInt8 × UInt8)) :
    Duration × Backoff :=
  if (b.homeSince.map fun at_ => decide (now - at_ ≥ redialEstablished)).getD false then
    (0, ⟨0, none⟩)
  else (redialDelay b.attempt random, ⟨min (b.attempt + 1) (2 ^ 32 - 1), none⟩)

/-! ## The bounds of a delay -/

/-- Ten doublings reach the ceiling. -/
theorem doublings_capped {p : ℕ} (h : 2 ^ 10 ≤ p) :
    min (redialMinDelay * p) redialMaxDelay = redialMaxDelay := by
  have hle : 5000000000 ≤ 10000000 * p := by omega
  exact Nat.min_eq_right hle

/-- The delay of an attempt before the jitter doubles up to the ceiling. -/
theorem redialBase_eq (attempt : ℕ) :
    redialBase attempt = min (redialMinDelay * 2 ^ attempt) redialMaxDelay := by
  have hshl : checkedShl (min attempt 31) = some (2 ^ min attempt 31) :=
    if_pos (Nat.lt_succ_of_le (Nat.min_le_right _ _))
  have hpow : 2 ^ min attempt 31 ≤ 2 ^ 31 :=
    Nat.pow_le_pow_right Nat.two_pos (Nat.min_le_right _ _)
  have hfits : 10000000 * 2 ^ min attempt 31 < 2 ^ 64 * 1000000000 := by omega
  have hmul : checkedMul redialMinDelay (2 ^ min attempt 31) =
      some (redialMinDelay * 2 ^ min attempt 31) := if_pos hfits
  rw [redialBase, hshl, Option.getD_some, hmul, Option.getD_some]
  rcases Nat.le_total attempt 31 with h | h
  · rw [Nat.min_eq_left h]
  · rw [Nat.min_eq_right h, doublings_capped (by decide),
      doublings_capped (Nat.pow_le_pow_right Nat.two_pos (by omega))]

/-- A counter of attempts may saturate beyond the ceiling. -/
theorem redialBase_saturated {bound : ℕ} (hbound : 10 ≤ bound) (index : ℕ) :
    redialBase (min index bound) = redialBase index := by
  rcases Nat.le_total index bound with h | h
  · rw [Nat.min_eq_left h]
  · rw [Nat.min_eq_right h, redialBase_eq, redialBase_eq,
      doublings_capped (Nat.pow_le_pow_right Nat.two_pos hbound),
      doublings_capped (Nat.pow_le_pow_right Nat.two_pos (hbound.trans h))]

/-- The delay of an attempt is at least its base, and at most the ceiling. -/
theorem redialDelay_bounds (attempt : ℕ) (random : Option (UInt8 × UInt8)) :
    redialBase attempt ≤ redialDelay attempt random ∧
      redialDelay attempt random ≤ redialMaxDelay := by
  have hmax : redialBase attempt ≤ redialMaxDelay := by
    rw [redialBase_eq]
    exact Nat.min_le_right _ _
  unfold redialDelay
  exact ⟨Nat.le_min.2 ⟨Nat.le_add_right _ _, hmax⟩, Nat.min_le_right _ _⟩

section Jitter

variable (random : Option (UInt8 × UInt8))

/-- Two bytes are at most what the base is divided by. -/
theorem spread_le : spread random ≤ 2 ^ 16 - 1 := by
  match random with
  | none => exact Nat.zero_le _
  | some (lo, hi) =>
    have hlo := lo.toNat_lt
    have hhi := hi.toNat_lt
    rw [spread]
    omega

theorem redialBase_le (attempt : ℕ) : redialBase attempt ≤ redialMaxDelay := Nat.min_le_right _ _

/-- At most as much again in jitter: the division rounds down. -/
theorem jitter_le (base : Duration) : base / (2 ^ 16 - 1) * spread random ≤ base :=
  (Nat.mul_le_mul_left _ (spread_le random)).trans (Nat.div_mul_le_self _ _)

/-- The cast keeps the base, which is at most the ceiling. -/
theorem redialDelay_eq (attempt : ℕ) :
    redialDelay attempt random =
      min (redialBase attempt + redialBase attempt / (2 ^ 16 - 1) * spread random)
        redialMaxDelay := by
  have hcast : redialBase attempt % 2 ^ 64 = redialBase attempt :=
    Nat.mod_eq_of_lt ((redialBase_le attempt).trans_lt (by decide))
  unfold redialDelay
  dsimp only
  rw [hcast]
  cases random <;> rfl

/-- No operation overflows, and the cast loses no bits. -/
theorem checked_redialDelay (attempt : ℕ) :
    Checked.redialDelay attempt random = .ok (redialDelay attempt random) := by
  have hbase := redialBase_le attempt
  have hjitter := (jitter_le random (redialBase attempt)).trans hbase
  have hnanos : Checked.below (2 ^ 64) (redialBase attempt) = .ok (redialBase attempt) :=
    if_pos (hbase.trans_lt (by decide))
  have hproduct : Checked.below (2 ^ 64) (redialBase attempt / (2 ^ 16 - 1) * spread random) =
      .ok (redialBase attempt / (2 ^ 16 - 1) * spread random) :=
    if_pos (hjitter.trans_lt (by decide))
  have hsum : Checked.below (2 ^ 64 * 1000000000)
      (redialBase attempt + redialBase attempt / (2 ^ 16 - 1) * spread random) =
      .ok (redialBase attempt + redialBase attempt / (2 ^ 16 - 1) * spread random) :=
    if_pos ((Nat.add_le_add hbase hjitter).trans_lt (by decide))
  rw [Checked.redialDelay, redialDelay_eq]
  dsimp only [bind, Except.bind]
  rw [hnanos]
  dsimp only
  rw [hproduct]
  dsimp only
  rw [hsum]
  rfl

/-- A later attempt waits no less, for the same random bytes. -/
theorem redialDelay_monotone : Monotone fun attempt => redialDelay attempt random := by
  intro attempt later h
  have hbase : redialBase attempt ≤ redialBase later := by
    rw [redialBase_eq, redialBase_eq]
    exact min_le_min_right _ (Nat.mul_le_mul_left _ (Nat.pow_le_pow_right Nat.two_pos h))
  have hjitter : redialBase attempt / (2 ^ 16 - 1) * spread random ≤
      redialBase later / (2 ^ 16 - 1) * spread random :=
    Nat.mul_le_mul_right _ (Nat.div_le_div_right hbase)
  dsimp only
  rw [redialDelay_eq, redialDelay_eq]
  exact min_le_min_right _ (Nat.add_le_add hbase hjitter)

/-- **A redial delay keeps to its bounds.** Its arithmetic never overflows. It is at
    least its base, which doubles per attempt up to the ceiling, and at most twice the
    base and the ceiling. It does not decrease from an attempt to a later one. -/
theorem redialDelay_exact :
    (∀ attempt, Checked.redialDelay attempt random = .ok (redialDelay attempt random)) ∧
    (∀ attempt, min (redialMinDelay * 2 ^ attempt) redialMaxDelay ≤ redialDelay attempt random ∧
      redialDelay attempt random ≤
        min (2 * min (redialMinDelay * 2 ^ attempt) redialMaxDelay) redialMaxDelay) ∧
    Monotone fun attempt => redialDelay attempt random := by
  refine ⟨checked_redialDelay random, fun attempt => ?_, redialDelay_monotone random⟩
  rw [← redialBase_eq]
  refine ⟨(redialDelay_bounds attempt random).1, ?_⟩
  rw [redialDelay_eq, Nat.two_mul]
  exact min_le_min_right _ (Nat.add_le_add_left (jitter_le random _) _)

end Jitter

end IrohEndpoint
