import IrohEndpoint.Lib.Transition

/-!
# Inevitability

`t.Inevitable P s`: from the state `s`, every run of the transition system `t` comes to a state
in which `P` holds, and none ends before. The runs are all of them: whoever chooses the steps
cannot avoid `P`.

* `Inevitable.of_rank`: `P` is inevitable if, as long as it does not hold, there is a step, and
  every step leads to `P` or lowers a rank in a well-founded order;
* `Inevitable.trans`: what is inevitable in two stages is inevitable;
* `Inevitable.further`: it stays so along a run, if `P` does;
* `Inevitable.leads`: there is a run to a state in which `P` holds;
* `Bisimulation`: a projection under which two systems take the same steps. What is inevitable in
  one of them is inevitable in the other (`Bisimulation.inevitable_iff`); so it is with a record
  of the runs (`Bisimulation.observe`).
-/

namespace Transition

variable {σ τ : Type*}

namespace System

/-- Every run from the state comes to `P`. -/
inductive Inevitable (t : System σ) (P : σ → Prop) : σ → Prop
  | now {s : σ} : P s → Inevitable t P s
  | later {s : σ} :
      (∃ s', t.step s s') → (∀ s', t.step s s' → Inevitable t P s') → Inevitable t P s

namespace Inevitable

variable {t : System σ} {P Q : σ → Prop} {s : σ}

/-- By induction on the rank, under an invariant `I` of the steps before `P` holds. -/
theorem of_rank {α : Type*} {r : α → α → Prop} (hr : WellFounded r) (rank : σ → α) {I : σ → Prop}
    (progress : ∀ s, I s → ¬P s → ∃ s', t.step s s')
    (step : ∀ s s', I s → ¬P s → t.step s s' → P s' ∨ I s' ∧ r (rank s') (rank s)) (hs : I s) :
    t.Inevitable P s := by
  generalize ha : rank s = a
  induction a using hr.induction generalizing s with
  | h a ih =>
    by_cases hp : P s
    · exact .now hp
    · refine .later (progress s hs hp) fun s' hst => ?_
      rcases step s s' hs hp hst with hp' | ⟨hs', hlt⟩
      · exact .now hp'
      · exact ih (rank s') (ha ▸ hlt) hs' rfl

theorem mono (hPQ : ∀ s, P s → Q s) (h : t.Inevitable P s) : t.Inevitable Q s := by
  induction h with
  | now hp => exact .now (hPQ _ hp)
  | later hex _ ih => exact .later hex ih

/-- From wherever `P` comes to hold, `Q` is inevitable. -/
theorem trans (h : t.Inevitable P s) (hQ : ∀ s, P s → t.Inevitable Q s) : t.Inevitable Q s := by
  induction h with
  | now hp => exact hQ _ hp
  | later hex _ ih => exact .later hex ih

/-- What is inevitable is possible. -/
theorem leads (h : t.Inevitable P s) : ∃ s', t.Leads s s' ∧ P s' := by
  induction h with
  | now hp => exact ⟨_, .refl, hp⟩
  | later hstep _ ih =>
    obtain ⟨s', hst⟩ := hstep
    obtain ⟨s'', hl, hp⟩ := ih s' hst
    exact ⟨s'', .head hst hl, hp⟩

/-- Where `P` comes to hold, an invariant of the steps holds as well. -/
theorem and_invariant {I : σ → Prop} (step : ∀ s s', I s → t.step s s' → I s')
    (h : t.Inevitable P s) (hs : I s) : t.Inevitable (fun s => P s ∧ I s) s := by
  induction h with
  | now hp => exact .now ⟨hp, hs⟩
  | later hex _ ih => exact .later hex fun s' hst => ih s' hst (step _ _ hs hst)

/-- What is inevitable, and stays, is inevitable further on. -/
theorem further {s' : σ} (stays : ∀ s s', t.step s s' → P s → P s') (h : t.Inevitable P s)
    (hl : t.Leads s s') : t.Inevitable P s' := by
  induction hl using Relation.ReflTransGen.head_induction_on with
  | refl => exact h
  | head hst _ ih =>
    cases h with
    | now hp => exact ih (.now (stays _ _ hst hp))
    | later _ hlater => exact ih (hlater _ hst)

end Inevitable

end System

/-- The projection `f` maps the steps of `t` to steps of `u`, and lifts those of `u`, on the states
    that meet an invariant `I` of the steps of `t`. -/
structure Bisimulation (t : System σ) (u : System τ) (f : σ → τ) (I : σ → Prop) : Prop where
  step : ∀ s s', I s → t.step s s' → I s' ∧ u.step (f s) (f s')
  lift : ∀ s x, I s → u.step (f s) x → ∃ s', t.step s s' ∧ f s' = x

/-- If a record can always be brought up to date, to keep it changes nothing. -/
theorem Bisimulation.observe {t : System σ} {ρ : Type*} {start : ρ} {note : σ → σ → ρ → ρ → Prop}
    (total : ∀ s s' r, t.step s s' → ∃ r', note s s' r r') :
    Bisimulation (t.observe start note) t Prod.fst fun _ => True where
  step _ _ _ hst := ⟨trivial, hst.1⟩
  lift x s' _ hst := by
    obtain ⟨r', hr'⟩ := total x.1 s' x.2 hst
    exact ⟨(s', r'), ⟨hst, hr'⟩, rfl⟩

namespace Bisimulation

variable {t : System σ} {u : System τ} {f : σ → τ} {I : σ → Prop} {s : σ}

/-- A run is projected to a run. -/
theorem leads (h : Bisimulation t u f I) {s' : σ} (hs : I s) (hl : t.Leads s s') :
    I s' ∧ u.Leads (f s) (f s') := by
  induction hl with
  | refl => exact ⟨hs, .refl⟩
  | tail _ hst ih =>
    obtain ⟨hs', hst'⟩ := h.step _ _ ih.1 hst
    exact ⟨hs', ih.2.tail hst'⟩

/-- What is inevitable in `u` is inevitable in `t`, and the other way round. -/
theorem inevitable_iff (h : Bisimulation t u f I) {P : τ → Prop} (hs : I s) :
    t.Inevitable (fun s => P (f s)) s ↔ u.Inevitable P (f s) := by
  constructor
  · intro ht
    induction ht with
    | now hp => exact .now hp
    | @later s hex _ ih =>
      obtain ⟨s', hst⟩ := hex
      refine .later ⟨f s', (h.step s s' hs hst).2⟩ fun x hx => ?_
      obtain ⟨s'', hst', rfl⟩ := h.lift s x hs hx
      exact ih s'' hst' (h.step s s'' hs hst').1
  · intro hu
    generalize hx : f s = x at hu
    induction hu generalizing s with
    | now hp => exact .now (hx ▸ hp)
    | later hex _ ih =>
      subst hx
      obtain ⟨x, hst⟩ := hex
      obtain ⟨s', hst', -⟩ := h.lift s x hs hst
      refine .later ⟨s', hst'⟩ fun s'' hst'' => ?_
      obtain ⟨hs'', hu⟩ := h.step s s'' hs hst''
      exact ih (f s'') hu hs'' rfl

end Bisimulation

end Transition
