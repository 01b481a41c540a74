import Mathlib.Logic.Relation
import Mathlib.Data.Set.Basic

/-!
# Transition systems

A transition system on a type of states `σ`: a set of initial states and a
step relation. Its *reachable* states are those at the end of a finite run
from an initial state, and `t.Leads s s'` is a run from `s` to `s'`.

* `Reachable.invariant`: what holds initially and is preserved by every step
  from a reachable state holds in every reachable state;
* `Leads.rel`: a reflexive and transitive relation that every step respects is
  respected by every run (what a run can do, from what a step can do);
* `System.restrict`: the runs whose steps all meet a condition; its reachable
  states are reachable, and an invariant of the restricted system is what
  holds along every run that meets the condition;
* `System.observe`: the runs together with a record of them, which every step
  brings up to date;
* `Simulation`: a projection `f` of the states under which every step is a run
  of a second system. The invariants of the second system are invariants of
  the first (`Simulation.invariant`), and so is what its runs respect
  (`Simulation.leads`).
-/

namespace Transition

variable {σ τ : Type*}

/-- A transition system on the states `σ`. -/
structure System (σ : Type*) where
  /-- The initial states. -/
  init : Set σ
  /-- The steps. -/
  step : σ → σ → Prop

namespace System

variable (t : System σ)

/-- The states at the end of a run from an initial state. -/
inductive Reachable : σ → Prop
  | init {s : σ} : s ∈ t.init → Reachable s
  | step {s s' : σ} : Reachable s → t.step s s' → Reachable s'

/-- There is a run from `s` to `s'`. -/
def Leads : σ → σ → Prop := Relation.ReflTransGen t.step

/-- The runs of `t` whose steps all meet the condition `ok`. -/
def restrict (ok : σ → σ → Prop) : System σ where
  init := t.init
  step s s' := t.step s s' ∧ ok s s'

/-- The runs of `t` with a record of them: it starts as `start`, and `note` says how
    a step brings it up to date. -/
def observe {ρ : Type*} (start : ρ) (note : σ → σ → ρ → ρ → Prop) : System (σ × ρ) where
  init := {x | x.1 ∈ t.init ∧ x.2 = start}
  step x y := t.step x.1 y.1 ∧ note x.1 y.1 x.2 y.2

variable {t}

/-- What holds initially and is preserved by every step holds in every
    reachable state. A step may use that the state before it is reachable. -/
theorem Reachable.invariant {P : σ → Prop} {s : σ} (hs : t.Reachable s)
    (init : ∀ s ∈ t.init, P s)
    (step : ∀ s s', t.Reachable s → t.step s s' → P s → P s') : P s := by
  induction hs with
  | init h => exact init _ h
  | step hr hst ih => exact step _ _ hr hst ih

/-- The empty run. -/
theorem Leads.of_eq {s s' : σ} (h : s' = s) : t.Leads s s' := h ▸ .refl

/-- The run of one step, to a state known by another name. -/
theorem Leads.single_of_eq {s s' s'' : σ} (h : t.step s s'') (he : s' = s'') : t.Leads s s' :=
  he ▸ .single h

/-- A run from a reachable state ends in a reachable state. -/
theorem Reachable.leads {s s' : σ} (hs : t.Reachable s) (h : t.Leads s s') : t.Reachable s' := by
  induction h with
  | refl => exact hs
  | tail _ hst ih => exact .step ih hst

/-- A reflexive and transitive relation that every step from a reachable state
    respects is respected by every run from a reachable state. -/
theorem Leads.rel {R : σ → σ → Prop} (refl : ∀ s, R s s)
    (trans : ∀ s₁ s₂ s₃, R s₁ s₂ → R s₂ s₃ → R s₁ s₃)
    (step : ∀ s s', t.Reachable s → t.step s s' → R s s')
    {s s' : σ} (hs : t.Reachable s) (h : t.Leads s s') : R s s' := by
  induction h with
  | refl => exact refl s
  | tail hl hst ih => exact trans _ _ _ ih (step _ _ (hs.leads hl) hst)

/-- A run that meets a condition is a run. -/
theorem Reachable.of_restrict {ok : σ → σ → Prop} {s : σ} (hs : (t.restrict ok).Reachable s) :
    t.Reachable s := by
  induction hs with
  | init h => exact .init h
  | step _ hst ih => exact .step ih hst.1

/-- A run that meets a condition meets a weaker one. -/
theorem Reachable.weaken {ok ok' : σ → σ → Prop} (hok : ∀ s s', ok s s' → ok' s s') {s : σ}
    (hs : (t.restrict ok).Reachable s) : (t.restrict ok').Reachable s := by
  induction hs with
  | init h => exact .init h
  | step _ hst ih => exact .step ih ⟨hst.1, hok _ _ hst.2⟩

theorem Leads.of_restrict {ok : σ → σ → Prop} {s s' : σ} (h : (t.restrict ok).Leads s s') :
    t.Leads s s' :=
  h.lift id fun _ _ hst => hst.1

theorem Leads.weaken {ok ok' : σ → σ → Prop} (hok : ∀ s s', ok s s' → ok' s s') {s s' : σ}
    (h : (t.restrict ok).Leads s s') : (t.restrict ok').Leads s s' :=
  h.lift id fun s s' hst => ⟨hst.1, hok s s' hst.2⟩

section Observe

variable {ρ : Type*} {start : ρ} {note : σ → σ → ρ → ρ → Prop}

/-- A run with a record is a run. -/
theorem Reachable.of_observe {x : σ × ρ} (h : (t.observe start note).Reachable x) :
    t.Reachable x.1 := by
  induction h with
  | init h => exact .init h.1
  | step _ hst ih => exact .step ih hst.1

/-- If a record can always be brought up to date, every run has a record. -/
theorem Reachable.observe (total : ∀ s s' r, t.step s s' → ∃ r', note s s' r r') {s : σ}
    (h : t.Reachable s) : ∃ r, (t.observe start note).Reachable (s, r) := by
  induction h with
  | init h => exact ⟨start, .init ⟨h, rfl⟩⟩
  | @step s s' _ hst ih =>
    obtain ⟨r, hr⟩ := ih
    obtain ⟨r', hr'⟩ := total s s' r hst
    exact ⟨r', .step hr ⟨hst, hr'⟩⟩

end Observe

end System

/-- The projection `f` maps the steps of `t` to runs of `u`. A step may use that
    the states it starts from are reachable in both. -/
structure Simulation (t : System σ) (u : System τ) (f : σ → τ) : Prop where
  init : ∀ s ∈ t.init, f s ∈ u.init
  step : ∀ s s', t.Reachable s → u.Reachable (f s) → t.step s s' → u.Leads (f s) (f s')

namespace Simulation

variable {t : System σ} {u : System τ} {f : σ → τ}

/-- A reachable state is projected to a reachable state. -/
theorem reachable (h : Simulation t u f) {s : σ} (hs : t.Reachable s) : u.Reachable (f s) := by
  induction hs with
  | init hi => exact .init (h.init _ hi)
  | step hr hst ih => exact ih.leads (h.step _ _ hr ih hst)

/-- The invariants of `u` are invariants of `t`. -/
theorem invariant (h : Simulation t u f) {P : τ → Prop} (hP : ∀ x, u.Reachable x → P x)
    {s : σ} (hs : t.Reachable s) : P (f s) :=
  hP _ (h.reachable hs)

/-- A run is projected to a run. -/
theorem leads (h : Simulation t u f) {s s' : σ} (hs : t.Reachable s) (hl : t.Leads s s') :
    u.Leads (f s) (f s') := by
  induction hl with
  | refl => exact .refl
  | tail hl hst ih =>
    have hm := hs.leads hl
    exact ih.trans (h.step _ _ hm (h.reachable hm) hst)

end Simulation

end Transition
