import IrohEndpoint.Lib.Transition
import Mathlib.Logic.Function.Basic

/-!
# Cooperative tasks over a borrowed cell

Tasks on one cooperative thread that share a cell. A task borrows the cell in a scope, for
reading or exclusively, and is switched out where it awaits, or inside a call that blocks.
A borrow that is live while a task is switched out stays live, and a borrow that conflicts
with a live one is an error of the program.

What a task does with the cell is a `Skeleton`: the control flow of its code with everything
else left out. A skeleton is *guarded* (`Skeleton.guarded`) if nothing awaits and nothing
borrows again in a scope, and if calls are only made in exclusive scopes.

* `Coop.Inv.reachable`: in a run of guarded skeletons, a task that is switched out in a scope
  is inside a call that blocked, and the other way round;
* `Coop.overlaps_iff`: so a borrow overlaps with the exclusive borrow of another task if,
  and only if, that task is inside a call that blocked;
* `Coop.not_conflicts`: while no task is inside such a call, no borrow is an error.
-/

namespace Cell

open Transition

variable {ι κ : Type*}

/-- How the cell is borrowed. -/
inductive Mode
  | shared
  | exclusive
  deriving DecidableEq

/-- What a task does with the cell. -/
inductive Skeleton (κ : Type*)
  | skip
  /-- The task is switched out. -/
  | await
  /-- A call, which may block. -/
  | call (k : κ)
  /-- The body runs with the cell borrowed. -/
  | scope (mode : Mode) (body : Skeleton κ)
  | seq (a b : Skeleton κ)
  | alt (a b : Skeleton κ)
  /-- Any number of turns. -/
  | loop (body : Skeleton κ)

namespace Skeleton

/-- One after the other. -/
def seqs : List (Skeleton κ) → Skeleton κ
  | [] => skip
  | a :: l => seq a (seqs l)

/-- One of several. -/
def oneOf : List (Skeleton κ) → Skeleton κ
  | [] => skip
  | [a] => a
  | a :: l => alt a (oneOf l)

/-- Perhaps. -/
def maybe (a : Skeleton κ) : Skeleton κ := alt skip a

/-- Neither awaits, nor calls, nor borrows. -/
def silent : Skeleton κ → Bool
  | skip => true
  | await | call _ | scope _ _ => false
  | seq a b | alt a b => a.silent && b.silent
  | loop a => a.silent

/-- Neither awaits nor borrows. -/
def plain : Skeleton κ → Bool
  | skip | call _ => true
  | await | scope _ _ => false
  | seq a b | alt a b => a.plain && b.plain
  | loop a => a.plain

/-- What may stand in a scope of a mode. -/
def fits : Mode → Skeleton κ → Bool
  | .shared, a => a.silent
  | .exclusive, a => a.plain

/-- Nothing awaits and nothing borrows in a scope, and calls are made in exclusive ones. -/
def guarded : Skeleton κ → Bool
  | skip | await => true
  | call _ => false
  | scope mode a => a.fits mode
  | seq a b | alt a b => a.guarded && b.guarded
  | loop a => a.guarded

end Skeleton

/-- What a task still has to do: run a skeleton, or end a borrow. -/
inductive Frame (κ : Type*)
  | run (a : Skeleton κ)
  | release (mode : Mode)

/-- What a skeleton without an effect of its own unfolds to. -/
inductive Unfolds : Skeleton κ → List (Frame κ) → Prop
  | skip : Unfolds .skip []
  | seq {a b : Skeleton κ} : Unfolds (.seq a b) [.run a, .run b]
  | left {a b : Skeleton κ} : Unfolds (.alt a b) [.run a]
  | right {a b : Skeleton κ} : Unfolds (.alt a b) [.run b]
  | stop {a : Skeleton κ} : Unfolds (.loop a) []
  | turn {a : Skeleton κ} : Unfolds (.loop a) [.run a, .run (.loop a)]

/-- The tasks `ι`: what each of them still has to do, which one runs, and the call each of
    them is switched out in. -/
structure Coop (ι κ : Type*) where
  tasks : ι → List (Frame κ)
  running : Option ι
  waiting : ι → Option κ

namespace Coop

/-- A live borrow of a task. -/
def Holds (s : Coop ι κ) (i : ι) (mode : Mode) : Prop := .release mode ∈ s.tasks i

/-- A borrow that two tasks, or one, cannot have at once. -/
def Conflicts (s : Coop ι κ) (mode : Mode) : Prop :=
  ∃ i mode', s.Holds i mode' ∧ (mode = .exclusive ∨ mode' = .exclusive)

/-- The task that runs comes to a borrow. -/
def Borrows (s : Coop ι κ) (i : ι) (mode : Mode) : Prop :=
  s.running = some i ∧ ∃ body rest, s.tasks i = .run (.scope mode body) :: rest

/-- A task comes to a borrow while the exclusive borrow of another task is live. -/
def Overlaps (s : Coop ι κ) : Prop :=
  ∃ i mode j, s.Borrows i mode ∧ j ≠ i ∧ s.Holds j .exclusive

variable [DecidableEq ι]

/-- The task `i` goes on with `frames`. -/
def proceed (s : Coop ι κ) (i : ι) (frames : List (Frame κ)) : Coop ι κ :=
  { s with tasks := Function.update s.tasks i frames }

@[simp] theorem proceed_tasks_self (s : Coop ι κ) (i : ι) (frames : List (Frame κ)) :
    (s.proceed i frames).tasks i = frames := Function.update_self _ _ _

theorem proceed_tasks_of_ne {s : Coop ι κ} {i j : ι} (h : j ≠ i) (frames : List (Frame κ)) :
    (s.proceed i frames).tasks j = s.tasks j := Function.update_of_ne h _ _

/-- A step of the tasks, which run the skeletons `programs`; `blocks` says which calls may
    block. -/
inductive Step (programs : Set (Skeleton κ)) (blocks : κ → Prop) : Coop ι κ → Coop ι κ → Prop
  /-- A task starts. -/
  | start {s : Coop ι κ} {i : ι} {a : Skeleton κ} :
      s.running = none → s.tasks i = [] → a ∈ programs →
      Step programs blocks s { s.proceed i [.run a] with running := some i }
  /-- A task is switched in again. -/
  | resume {s : Coop ι κ} {i : ι} :
      s.running = none → s.tasks i ≠ [] →
      Step programs blocks s { s with
        running := some i
        waiting := Function.update s.waiting i none }
  | unfold {s : Coop ι κ} {i : ι} {a : Skeleton κ} {frames rest : List (Frame κ)} :
      s.running = some i → s.tasks i = .run a :: rest → Unfolds a frames →
      Step programs blocks s (s.proceed i (frames ++ rest))
  | await {s : Coop ι κ} {i : ι} {rest : List (Frame κ)} :
      s.running = some i → s.tasks i = .run .await :: rest →
      Step programs blocks s { s.proceed i rest with running := none }
  /-- A call returns at once. -/
  | call {s : Coop ι κ} {i : ι} {k : κ} {rest : List (Frame κ)} :
      s.running = some i → s.tasks i = .run (.call k) :: rest →
      Step programs blocks s (s.proceed i rest)
  /-- A call blocks: the task is switched out inside it. -/
  | block {s : Coop ι κ} {i : ι} {k : κ} {rest : List (Frame κ)} :
      s.running = some i → s.tasks i = .run (.call k) :: rest → blocks k →
      Step programs blocks s { s.proceed i rest with
        running := none
        waiting := Function.update s.waiting i (some k) }
  /-- The cell is borrowed. A borrow that conflicts is an error, after which nothing runs. -/
  | borrow {s : Coop ι κ} {i : ι} {mode : Mode} {body : Skeleton κ} {rest : List (Frame κ)} :
      s.running = some i → s.tasks i = .run (.scope mode body) :: rest → ¬s.Conflicts mode →
      Step programs blocks s (s.proceed i (.run body :: .release mode :: rest))
  | release {s : Coop ι κ} {i : ι} {mode : Mode} {rest : List (Frame κ)} :
      s.running = some i → s.tasks i = .release mode :: rest →
      Step programs blocks s (s.proceed i rest)
  /-- The task ends. -/
  | finish {s : Coop ι κ} {i : ι} :
      s.running = some i → s.tasks i = [] →
      Step programs blocks s { s with running := none }

/-- The runs of tasks with the skeletons `programs`, from when there is none. -/
def system (ι : Type*) [DecidableEq ι] (programs : Set (Skeleton κ)) (blocks : κ → Prop) :
    System (Coop ι κ) where
  init := {⟨fun _ => [], none, fun _ => none⟩}
  step := Step programs blocks

/-! ## Guarded skeletons -/

/-- Frames outside every scope. -/
def Outside (frames : List (Frame κ)) : Prop :=
  ∀ f ∈ frames, ∃ a, f = .run a ∧ a.guarded = true

/-- Frames inside a scope of a mode. -/
def Inside (mode : Mode) (frames : List (Frame κ)) : Prop :=
  ∃ l rest, frames = l ++ .release mode :: rest ∧
    (∀ f ∈ l, ∃ a, f = .run a ∧ a.fits mode = true) ∧ Outside rest

/-- What guarded skeletons keep: a task that does not run is outside every scope, or inside
    an exclusive one, and then in a call. -/
structure Inv (blocks : κ → Prop) (s : Coop ι κ) : Prop where
  running : ∀ i, s.running = some i →
    s.waiting i = none ∧ (Outside (s.tasks i) ∨ ∃ mode, Inside mode (s.tasks i))
  idle : ∀ i, s.running ≠ some i → s.waiting i = none → Outside (s.tasks i)
  waiting : ∀ i k, s.waiting i = some k → blocks k ∧ Inside .exclusive (s.tasks i)

section Frames

variable {a : Skeleton κ} {mode mode' : Mode} {frames rest : List (Frame κ)}

theorem outside_nil : Outside ([] : List (Frame κ)) := nofun

theorem outside_run : Outside (.run a :: rest) ↔ a.guarded = true ∧ Outside rest := by
  rw [Outside, List.forall_mem_cons]
  refine and_congr_left' ⟨?_, fun ha => ⟨a, rfl, ha⟩⟩
  rintro ⟨_, ⟨⟩, ha⟩
  exact ha

theorem not_outside_release : ¬Outside (.release mode :: rest) := by
  intro h
  obtain ⟨_, hf, -⟩ := h _ List.mem_cons_self
  cases hf

theorem not_inside_nil : ¬Inside mode ([] : List (Frame κ)) := by
  rintro ⟨l, rest, h, -⟩
  exact List.append_ne_nil_of_right_ne_nil l (List.cons_ne_nil _ rest) h.symm

theorem inside_run : Inside mode (.run a :: rest) ↔ a.fits mode = true ∧ Inside mode rest := by
  constructor
  · rintro ⟨_ | ⟨f, l⟩, rest', h, hl, hrest⟩ <;> cases h
    obtain ⟨_, ⟨⟩, ha⟩ := hl _ List.mem_cons_self
    exact ⟨ha, l, rest', rfl, fun f hf => hl f (List.mem_cons_of_mem _ hf), hrest⟩
  · rintro ⟨ha, l, rest', rfl, hl, hrest⟩
    refine ⟨.run a :: l, rest', rfl, fun f hf => ?_, hrest⟩
    rcases List.mem_cons.1 hf with rfl | hf
    · exact ⟨a, rfl, ha⟩
    · exact hl f hf

theorem inside_release : Inside mode (.release mode' :: rest) ↔ mode = mode' ∧ Outside rest := by
  constructor
  · rintro ⟨_ | ⟨f, l⟩, rest', h, hl, hrest⟩ <;> cases h
    · exact ⟨rfl, hrest⟩
    · obtain ⟨_, hf, -⟩ := hl _ List.mem_cons_self
      cases hf
  · rintro ⟨rfl, hrest⟩
    exact ⟨[], rest, rfl, nofun, hrest⟩

/-- Outside every scope, no borrow is live. -/
theorem Outside.not_mem (h : Outside frames) : .release mode ∉ frames := by
  intro hm
  obtain ⟨_, hf, -⟩ := h _ hm
  cases hf

/-- Inside a scope, its borrow is live. -/
theorem Inside.mem (h : Inside mode frames) : .release mode ∈ frames := by
  obtain ⟨l, rest, rfl, -⟩ := h
  exact List.mem_append_right l List.mem_cons_self

/-- What a guarded skeleton unfolds to is guarded. -/
theorem Outside.unfold (h : Outside (.run a :: rest)) (hu : Unfolds a frames) :
    Outside (frames ++ rest) := by
  obtain ⟨ha, hrest⟩ := outside_run.1 h
  cases hu <;> simp_all [outside_run, Skeleton.guarded]

/-- What a skeleton in a scope unfolds to fits in the scope. -/
theorem Inside.unfold (h : Inside mode (.run a :: rest)) (hu : Unfolds a frames) :
    Inside mode (frames ++ rest) := by
  obtain ⟨ha, hrest⟩ := inside_run.1 h
  cases mode <;> cases hu <;> simp_all [inside_run, Skeleton.fits, Skeleton.silent, Skeleton.plain]

/-- A borrow is only taken outside every scope, and then its scope is entered. -/
theorem Outside.borrow {body : Skeleton κ} (h : Outside (.run (.scope mode body) :: rest)) :
    Inside mode (.run body :: .release mode :: rest) := by
  obtain ⟨hbody, hrest⟩ := outside_run.1 h
  exact inside_run.2 ⟨hbody, inside_release.2 ⟨rfl, hrest⟩⟩

theorem not_inside_scope {body : Skeleton κ} :
    ¬Inside mode (.run (.scope mode' body) :: rest) := by
  intro h
  have hfits := (inside_run.1 h).1
  cases mode <;> cases hfits

theorem not_inside_await : ¬Inside mode (.run .await :: rest) := by
  intro h
  have hfits := (inside_run.1 h).1
  cases mode <;> cases hfits

/-- A call is only made in an exclusive scope. -/
theorem inside_call {k : κ} (h : Outside (.run (.call k) :: rest) ∨
    ∃ mode, Inside mode (.run (.call k) :: rest)) : Inside .exclusive rest := by
  rcases h with h | ⟨mode, h⟩
  · cases (outside_run.1 h).1
  · obtain ⟨hfits, hrest⟩ := inside_run.1 h
    cases mode with
    | shared => cases hfits
    | exclusive => exact hrest

end Frames

/-! ## Runs of guarded skeletons -/

variable {blocks : κ → Prop} {programs : Set (Skeleton κ)} {s s' : Coop ι κ} {i : ι}

/-- The task that runs goes on, outside every scope or inside one. -/
theorem Inv.proceed (hi : s.Inv blocks) (hr : s.running = some i) {frames : List (Frame κ)}
    (hf : Outside frames ∨ ∃ mode, Inside mode frames) : (s.proceed i frames).Inv blocks := by
  have hne : ∀ j, s.running ≠ some j → j ≠ i := by
    rintro j hj rfl
    exact hj hr
  refine ⟨fun j hj => ?_, fun j hj hw => ?_, fun j k hw => ?_⟩
  · obtain rfl : i = j := Option.some.inj (hr.symm.trans hj)
    refine ⟨(hi.running i hr).1, ?_⟩
    rwa [proceed_tasks_self]
  · rw [proceed_tasks_of_ne (hne j hj)]
    exact hi.idle j hj hw
  · have hji : j ≠ i := by
      rintro rfl
      exact absurd ((hi.running j hr).1.symm.trans hw) nofun
    rw [proceed_tasks_of_ne hji]
    exact hi.waiting j k hw

/-- The task that runs is switched out, outside every scope. -/
theorem Inv.switchOut (hi : s.Inv blocks) (hr : s.running = some i) (ho : Outside (s.tasks i)) :
    Inv blocks { s with running := none } := by
  refine ⟨nofun, fun j _ hw => ?_, hi.waiting⟩
  by_cases hj : s.running = some j
  · obtain rfl : i = j := Option.some.inj (hr.symm.trans hj)
    exact ho
  · exact hi.idle j hj hw

/-- The task that runs is switched out, in a call inside an exclusive scope. -/
theorem Inv.block (hi : s.Inv blocks) (hr : s.running = some i) {k : κ} (hk : blocks k)
    (hin : Inside .exclusive (s.tasks i)) :
    Inv blocks { s with running := none, waiting := Function.update s.waiting i (some k) } := by
  refine ⟨nofun, fun j _ hw => ?_, fun j k' hw => ?_⟩
  · simp only [Function.update_apply] at hw
    split at hw <;> rename_i hji
    · cases hw
    · exact hi.idle j (fun hj => hji (Option.some.inj (hj.symm.trans hr))) hw
  · simp only [Function.update_apply] at hw
    split at hw <;> rename_i hji
    · cases hw
      rw [hji]
      exact ⟨hk, hin⟩
    · exact hi.waiting j k' hw

/-- A task that is switched in may be inside the scope in which it waited. -/
theorem Inv.resume (hi : s.Inv blocks) (hr : s.running = none) :
    Inv blocks { s with running := some i, waiting := Function.update s.waiting i none } := by
  refine ⟨fun j hj => ?_, fun j hj hw => ?_, fun j k hw => ?_⟩
  · obtain rfl : i = j := Option.some.inj hj
    refine ⟨Function.update_self _ _ _, ?_⟩
    cases hw : s.waiting i with
    | none => exact .inl (hi.idle i (by simp [hr]) hw)
    | some k => exact .inr ⟨_, (hi.waiting i k hw).2⟩
  · have hji : j ≠ i := fun h => hj (congrArg some h.symm)
    simp only [Function.update_of_ne hji] at hw
    exact hi.idle j (by simp [hr]) hw
  · simp only [Function.update_apply] at hw
    split at hw
    · cases hw
    · exact hi.waiting j k hw

/-- A task that starts is outside every scope. -/
theorem Inv.start (hi : s.Inv blocks) (hr : s.running = none) (hn : s.tasks i = [])
    {a : Skeleton κ} (ha : a.guarded = true) :
    Inv blocks { s.proceed i [.run a] with running := some i } := by
  have hw : s.waiting i = none := by
    refine Option.eq_none_iff_forall_ne_some.2 fun k hk => ?_
    exact not_inside_nil (hn ▸ (hi.waiting i k hk).2)
  refine ⟨fun j hj => ?_, fun j hj hwj => ?_, fun j k hwj => ?_⟩
  · obtain rfl : i = j := Option.some.inj hj
    refine ⟨hw, .inl ?_⟩
    change Outside ((s.proceed i [.run a]).tasks i)
    rw [proceed_tasks_self]
    exact outside_run.2 ⟨ha, outside_nil⟩
  · have hji : j ≠ i := fun h => hj (congrArg some h.symm)
    change Outside ((s.proceed i [.run a]).tasks j)
    rw [proceed_tasks_of_ne hji]
    exact hi.idle j (by simp [hr]) hwj
  · have hji : j ≠ i := by
      rintro rfl
      exact absurd (hw.symm.trans hwj) nofun
    rw [proceed_tasks_of_ne hji]
    exact hi.waiting j k hwj

omit [DecidableEq ι] in
/-- The task that runs is outside every scope, or inside one. -/
theorem Inv.frames (hi : s.Inv blocks) (hr : s.running = some i) {frames : List (Frame κ)}
    (ht : s.tasks i = frames) : Outside frames ∨ ∃ mode, Inside mode frames :=
  ht ▸ (hi.running i hr).2

/-- A step of guarded skeletons keeps the invariant. -/
theorem Inv.step (hguarded : ∀ a ∈ programs, a.guarded = true) (hi : s.Inv blocks)
    (hst : (system ι programs blocks).step s s') : s'.Inv blocks := by
  cases hst with
  | start hr hn ha => exact hi.start hr hn (hguarded _ ha)
  | resume hr _ => exact hi.resume hr
  | unfold hr ht hu =>
    refine hi.proceed hr ((hi.frames hr ht).imp (·.unfold hu) ?_)
    exact fun ⟨mode, hin⟩ => ⟨mode, hin.unfold hu⟩
  | @await i rest hr ht =>
    -- An await is outside every scope, and what is behind it as well.
    have ho := (hi.frames hr ht).resolve_right fun ⟨_, hin⟩ => not_inside_await hin
    have hrest := (outside_run.1 ho).2
    refine (hi.proceed hr (.inl hrest)).switchOut hr ?_
    rwa [proceed_tasks_self]
  | call hr ht => exact hi.proceed hr (.inr ⟨_, inside_call (hi.frames hr ht)⟩)
  | @block i k rest hr ht hk =>
    have hin := inside_call (hi.frames hr ht)
    refine (hi.proceed hr (.inr ⟨_, hin⟩)).block hr hk ?_
    rwa [proceed_tasks_self]
  | @borrow i mode body rest hr ht _ =>
    -- The scope that is entered is the only one.
    have ho := (hi.frames hr ht).resolve_right fun ⟨_, hin⟩ => not_inside_scope hin
    exact hi.proceed hr (.inr ⟨mode, ho.borrow⟩)
  | release hr ht =>
    obtain ⟨_, hin⟩ := (hi.frames hr ht).resolve_left not_outside_release
    exact hi.proceed hr (.inl (inside_release.1 hin).2)
  | finish hr ht => exact hi.switchOut hr (ht ▸ outside_nil)

/-- Guarded skeletons keep the invariant. -/
theorem Inv.reachable (hguarded : ∀ a ∈ programs, a.guarded = true)
    (hs : (system ι programs blocks).Reachable s) : s.Inv blocks := by
  refine hs.invariant (fun s hinit => ?_) fun s s' _ hst hi => hi.step hguarded hst
  cases hinit
  exact ⟨nofun, fun _ _ _ => outside_nil, nofun⟩

/-- A borrow overlaps with the exclusive borrow of another task if, and only if, that task is
    inside a call that blocked. -/
theorem overlaps_iff (hguarded : ∀ a ∈ programs, a.guarded = true)
    (hs : (system ι programs blocks).Reachable s) :
    s.Overlaps ↔ ∃ i mode j k, s.Borrows i mode ∧ j ≠ i ∧ s.waiting j = some k := by
  have hi := Inv.reachable hguarded hs
  constructor
  · rintro ⟨i, mode, j, hb, hji, hholds⟩
    cases hw : s.waiting j with
    | some k => exact ⟨i, mode, j, k, hb, hji, hw⟩
    | none =>
      have hj : s.running ≠ some j := fun hj => hji (Option.some.inj (hj.symm.trans hb.1))
      exact absurd hholds (hi.idle j hj hw).not_mem
  · rintro ⟨i, mode, j, k, hb, hji, hw⟩
    exact ⟨i, mode, j, hb, hji, (hi.waiting j k hw).2.mem⟩

/-- While no task is inside a call that blocked, no borrow conflicts with a live one. -/
theorem not_conflicts (hguarded : ∀ a ∈ programs, a.guarded = true)
    (hs : (system ι programs blocks).Reachable s) (hw : ∀ j, s.waiting j = none) {mode : Mode}
    (hb : s.Borrows i mode) : ¬s.Conflicts mode := by
  have hi := Inv.reachable hguarded hs
  rintro ⟨j, mode', hholds, -⟩
  refine absurd hholds (Outside.not_mem ?_)
  by_cases hj : s.running = some j
  · -- The task itself comes to a borrow outside every scope.
    obtain ⟨body, rest, ht⟩ := hb.2
    obtain rfl : i = j := Option.some.inj (hb.1.symm.trans hj)
    refine (hi.running i hj).2.resolve_right fun ⟨_, hin⟩ => ?_
    exact not_inside_scope (ht ▸ hin)
  · exact hi.idle j hj (hw j)

/-- If no call blocks, no task is inside one. -/
theorem not_waiting (hguarded : ∀ a ∈ programs, a.guarded = true) (hblocks : ∀ k, ¬blocks k)
    (hs : (system ι programs blocks).Reachable s) (j : ι) : s.waiting j = none :=
  Option.eq_none_iff_forall_ne_some.2 fun k hk =>
    hblocks k ((Inv.reachable hguarded hs).waiting j k hk).1

/-! ## Running a task -/

/-- Frames that the unfolding of skeletons leads to. -/
inductive Unfolding : List (Frame κ) → List (Frame κ) → Prop
  | refl {frames : List (Frame κ)} : Unfolding frames frames
  | step {a : Skeleton κ} {frames rest frames' : List (Frame κ)} :
      Unfolds a frames → Unfolding (frames ++ rest) frames' → Unfolding (.run a :: rest) frames'

/-- The task that runs may unfold its skeletons. -/
theorem unfolding_leads {frames frames' : List (Frame κ)} (hu : Unfolding frames frames')
    (hr : s.running = some i) (ht : s.tasks i = frames) :
    (system ι programs blocks).Leads s (s.proceed i frames') := by
  induction hu generalizing s with
  | @refl frames =>
    refine .of_eq ?_
    rw [proceed, ← ht, Function.update_eq_self]
  | @step a frames rest frames' hf hu ih =>
    have hstep : (system ι programs blocks).step s (s.proceed i (frames ++ rest)) :=
      .unfold hr ht hf
    have hrest := ih (s := s.proceed i (frames ++ rest)) hr (proceed_tasks_self _ _ _)
    rw [proceed, proceed, Function.update_idem] at hrest
    exact .head hstep hrest

end Coop

end Cell
