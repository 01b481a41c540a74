import Mathlib.Data.List.Basic

/-!
# Computations that may fail

What a successful run of an `Except` computation went through: `bind_eq_ok` for
a sequence of two, `foldlM_trace` for a loop over a list. A relation that every
turn of a loop respects is respected by the whole loop (`foldlM_rel`).

`x.Ensures e Q` is a postcondition: `x` does not fail with the error `e`, and if
it succeeds then `Q` holds of its result. Its rules follow the shape of the
computation: `Ensures.bind` for a sequence, `Ensures.foldlM` for a loop, with an
invariant that speaks of the elements gone through.
-/

namespace Except

universe u

variable {ε : Type*} {α β : Type u}

/-- A sequence succeeds when both of its parts do. -/
theorem bind_eq_ok {x : Except ε α} {f : α → Except ε β} {b : β} :
    x >>= f = .ok b ↔ ∃ a, x = .ok a ∧ f a = .ok b := by
  cases x with
  | error e => exact ⟨nofun, nofun⟩
  | ok a => exact ⟨fun h => ⟨a, rfl, h⟩, fun ⟨_, ha, h⟩ => Except.ok.inj ha ▸ h⟩

/-- What every turn of a loop does with its element, the loop does with its
    list. -/
theorem foldlM_trace {f : β → α → Except ε β} {R : List α → β → β → Prop} (nil : ∀ b, R [] b b)
    (cons : ∀ a l b₁ b₂ b₃, f b₁ a = .ok b₂ → R l b₂ b₃ → R (a :: l) b₁ b₃) {l : List α} {b b' : β}
    (h : l.foldlM f b = .ok b') : R l b b' := by
  induction l generalizing b with
  | nil => exact Except.ok.inj h ▸ nil b
  | cons a l ih =>
    rw [List.foldlM_cons, bind_eq_ok] at h
    obtain ⟨b₁, hb₁, h⟩ := h
    exact cons _ _ _ _ _ hb₁ (ih h)

/-- What every turn of a loop respects, the loop respects. -/
theorem foldlM_rel {f : β → α → Except ε β} {R : β → β → Prop} (refl : ∀ b, R b b)
    (trans : ∀ b₁ b₂ b₃, R b₁ b₂ → R b₂ b₃ → R b₁ b₃)
    (step : ∀ b a b', f b a = .ok b' → R b b') {l : List α} {b b' : β}
    (h : l.foldlM f b = .ok b') : R b b' :=
  foldlM_trace (R := fun _ => R) refl (fun _ _ _ _ _ ha => trans _ _ _ (step _ _ _ ha)) h

/-- The computation does not fail with `e`, and a result of it meets `Q`. -/
def Ensures (x : Except ε α) (e : ε) (Q : α → Prop) : Prop :=
  x ≠ .error e ∧ ∀ a, x = .ok a → Q a

namespace Ensures

variable {e : ε}

/-- A computation that succeeds ensures what holds of its result. -/
theorem ok {a : α} {Q : α → Prop} (h : Q a) : Ensures (.ok a) e Q :=
  ⟨nofun, fun _ ha => Except.ok.inj ha ▸ h⟩

/-- A computation that fails otherwise ensures anything. -/
theorem error {e' : ε} {Q : α → Prop} (h : e' ≠ e) : Ensures (.error e' : Except ε α) e Q :=
  ⟨fun he => h (Except.error.inj he), nofun⟩

/-- A sequence, with what its first part ensures in between. -/
theorem bind {x : Except ε α} {f : α → Except ε β} {P : α → Prop} {Q : β → Prop}
    (hx : x.Ensures e P) (hf : ∀ a, P a → (f a).Ensures e Q) : Ensures (x >>= f) e Q := by
  cases x with
  | error e' => exact error fun he => hx.1 (he ▸ rfl)
  | ok a => exact hf a (hx.2 a rfl)

/-- A weaker postcondition. -/
theorem mono {x : Except ε α} {P Q : α → Prop} (hx : x.Ensures e P) (h : ∀ a, P a → Q a) :
    x.Ensures e Q :=
  ⟨hx.1, fun a ha => h a (hx.2 a ha)⟩

/-- A loop, with an invariant of the elements it went through. -/
theorem foldlM {f : β → α → Except ε β} {I : List α → β → Prop}
    (step : ∀ done a b, I done b → (f b a).Ensures e (I (done ++ [a])))
    {b : β} (init : I [] b) (l : List α) : Ensures (l.foldlM f b) e (I l) := by
  suffices ∀ done b, I done b → Ensures (l.foldlM f b) e (I (done ++ l)) from this [] b init
  induction l with
  | nil => exact fun done b hb => ok (by rwa [List.append_nil])
  | cons a l ih =>
    intro done b hb
    rw [List.foldlM_cons]
    refine (step done a b hb).bind fun b' hb' => ?_
    rw [List.append_cons]
    exact ih _ b' hb'

end Ensures

end Except
