import IotdbClient.Library.Outcome

/-!
# Programs over a mutable state

A Rust method on `&mut self` keeps what it changed when it returns an error, so a program here is a
state transformer around an outcome, and not the other way round.  `Triple P m Q E`: from a state in
`P` the program `m` ends with a value and a state in `Q`, or with a fault and a state in `E`.
-/

namespace IotdbClient.Library

abbrev Program (σ ε α : Type) := ExceptT (Fault ε) (StateM σ) α

namespace Program

variable {σ ε α β : Type}

/-- `return Err(e)`. -/
def raise (e : ε) : Program σ ε α := throw (.error e)

/-- A call that does not touch the state. -/
def ofOutcome (o : Outcome ε α) : Program σ ε α := fun s ↦ (o, s)

/-- `match m { Ok(a) => .., Err(e) => .. }`: the outcome as a value. -/
def attempt (m : Program σ ε α) : Program σ ε (Outcome ε α) := fun s ↦
  let r := m s
  (.ok r.1, r.2)

/-! ## Running a program -/

@[simp] theorem bind_apply (m : Program σ ε α) (f : α → Program σ ε β) (s : σ) :
    (m >>= f) s = match m s with
      | (.ok a, s') => f a s'
      | (.error e, s') => (.error e, s') := by
  change ExceptT.bindCont f (m s).1 (m s).2 = _
  rcases m s with ⟨_ | a, s'⟩ <;> rfl

@[simp] theorem pure_apply (a : α) (s : σ) : (Pure.pure a : Program σ ε α) s = (.ok a, s) := rfl

@[simp] theorem get_apply (s : σ) : (get : Program σ ε σ) s = (.ok s, s) := rfl

@[simp] theorem modify_apply (f : σ → σ) (s : σ) :
    (modify f : Program σ ε Unit) s = (.ok (), f s) := rfl

@[simp] theorem raise_apply (e : ε) (s : σ) :
    (raise e : Program σ ε α) s = (.error (.error e), s) := rfl

@[simp] theorem throw_apply (e : Fault ε) (s : σ) :
    (throw e : Program σ ε α) s = (.error e, s) := rfl

@[simp] theorem ofOutcome_apply (o : Outcome ε α) (s : σ) :
    (ofOutcome o : Program σ ε α) s = (o, s) := rfl

@[simp] theorem attempt_apply (m : Program σ ε α) (s : σ) :
    attempt m s = (.ok (m s).1, (m s).2) := rfl

@[simp] theorem branch_apply (c : Prop) [Decidable c] (m m' : Program σ ε α) (s : σ) :
    (if c then m else m') s = if c then m s else m' s := by
  split <;> rfl

/-- A run with a value went through a value of its first step. -/
theorem bind_eq_ok {m : Program σ ε α} {f : α → Program σ ε β} {s s' : σ} {b : β}
    (h : (m >>= f) s = (.ok b, s')) : ∃ a mid, m s = (.ok a, mid) ∧ f a mid = (.ok b, s') := by
  rw [bind_apply] at h
  rcases hrun : m s with ⟨fault | a, mid⟩ <;> rw [hrun] at h
  · cases h
  · exact ⟨a, mid, rfl, h⟩

theorem ofOutcome_eq_ok {o : Outcome ε α} {a : α} {s s' : σ}
    (h : (ofOutcome o : Program σ ε α) s = (.ok a, s')) : o = .ok a ∧ s = s' := by
  cases h
  exact ⟨rfl, rfl⟩

/-! ## Pre- and postconditions -/

def Triple (P : σ → Prop) (m : Program σ ε α) (Q : α → σ → Prop) (E : Fault ε → σ → Prop) : Prop :=
  ∀ s, P s → match m s with
    | (.ok a, s') => Q a s'
    | (.error e, s') => E e s'

variable {P P' : σ → Prop} {Q Q' : α → σ → Prop} {R : β → σ → Prop} {E E' : Fault ε → σ → Prop}

theorem Triple.pure {a : α} (h : ∀ s, P s → Q a s) :
    Triple P (Pure.pure a : Program σ ε α) Q E := fun s hs ↦ h s hs

theorem Triple.raise {e : ε} (h : ∀ s, P s → E (.error e) s) :
    Triple P (raise e : Program σ ε α) Q E := fun s hs ↦ h s hs

theorem Triple.bind {m : Program σ ε α} {f : α → Program σ ε β} (hm : Triple P m Q E)
    (hf : ∀ a, Triple (Q a) (f a) R E) : Triple P (m >>= f) R E := by
  intro s hs
  have hstep := hm s hs
  rw [bind_apply]
  rcases hms : m s with ⟨_ | a, s'⟩ <;> rw [hms] at hstep
  · exact hstep
  · exact hf a s' hstep

theorem Triple.mono {m : Program σ ε α} (hm : Triple P m Q E) (hP : ∀ s, P' s → P s)
    (hQ : ∀ a s, Q a s → Q' a s) (hE : ∀ e s, E e s → E' e s) : Triple P' m Q' E' := by
  intro s hs
  have hstep := hm s (hP s hs)
  rcases hms : m s with ⟨_ | a, s'⟩ <;> rw [hms] at hstep
  · exact hE _ _ hstep
  · exact hQ _ _ hstep

theorem Triple.attempt {m : Program σ ε α} {T : Outcome ε α → σ → Prop} (hm : Triple P m Q E)
    (hok : ∀ a s, Q a s → T (.ok a) s) (herr : ∀ e s, E e s → T (.error e) s) :
    Triple P (attempt m) T E' := by
  intro s hs
  have hstep := hm s hs
  change T (m s).1 (m s).2
  rcases hms : m s with ⟨_ | a, s'⟩ <;> rw [hms] at hstep
  · exact herr _ _ hstep
  · exact hok _ _ hstep

/-! ## Invariants -/

/-- Whichever way the program ends, it keeps `I`. -/
structure Keeps (I : σ → Prop) (m : Program σ ε α) : Prop where
  kept : ∀ s, I s → I (m s).2

variable {I : σ → Prop}

theorem Keeps.pure (a : α) : Keeps I (Pure.pure a : Program σ ε α) := ⟨fun _ hs ↦ hs⟩

theorem Keeps.raise (e : ε) : Keeps I (raise e : Program σ ε α) := ⟨fun _ hs ↦ hs⟩

theorem Keeps.throw (e : Fault ε) : Keeps I (throw e : Program σ ε α) := ⟨fun _ hs ↦ hs⟩

theorem Keeps.ofOutcome (o : Outcome ε α) : Keeps I (ofOutcome o : Program σ ε α) :=
  ⟨fun _ hs ↦ hs⟩

theorem Keeps.bind {m : Program σ ε α} {f : α → Program σ ε β} (hm : Keeps I m)
    (hf : ∀ a, Keeps I (f a)) : Keeps I (m >>= f) where
  kept := by
    intro s hs
    have hmid := hm.kept s hs
    rw [bind_apply]
    rcases hrun : m s with ⟨_ | a, mid⟩ <;> rw [hrun] at hmid
    · exact hmid
    · exact (hf a).kept mid hmid

theorem Keeps.attempt {m : Program σ ε α} (hm : Keeps I m) : Keeps I (attempt m) := ⟨hm.kept⟩

theorem Keeps.branch {c : Prop} [Decidable c] {m m' : Program σ ε α} (hm : Keeps I m)
    (hm' : Keeps I m') : Keeps I (if c then m else m') := by
  split
  · exact hm
  · exact hm'

/-! ## Programs that run alike

Two programs that ask different environments, such as a network and the same network behind a
filter, run alike where they only ask what both answer alike. -/

/-- From a state in `I` the two programs do the same; they stay in `I`, and a value is in `Q`. -/
structure Alike (I : σ → Prop) (Q : α → Prop) (m m' : Program σ ε α) : Prop where
  same : ∀ s, I s → m' s = m s
  kept : ∀ s, I s → I (m s).2
  value : ∀ s a, I s → (m s).1 = .ok a → Q a

section

variable {I : σ → Prop} {Q Q' : α → Prop} {R : β → Prop} {m m' n n' : Program σ ε α}

theorem Alike.pure {a : α} (h : Q a) :
    Alike I Q (Pure.pure a : Program σ ε α) (Pure.pure a) where
  same _ _ := rfl
  kept _ hs := hs
  value _ _ _ heq := Except.ok.inj heq ▸ h

theorem Alike.fault (e : Fault ε) : Alike I Q (throw e : Program σ ε α) (throw e) where
  same _ _ := rfl
  kept _ hs := hs
  value _ _ _ heq := by cases heq

theorem Alike.raise (e : ε) : Alike I Q (raise e : Program σ ε α) (raise e) := .fault (.error e)

theorem Alike.ofOutcome {o : Outcome ε α} (h : ∀ a, o = .ok a → Q a) :
    Alike I Q (ofOutcome o : Program σ ε α) (ofOutcome o) where
  same _ _ := rfl
  kept _ hs := hs
  value _ a _ heq := h a heq

/-- A change of the state that asks nobody. -/
theorem Alike.modify {f : σ → σ} (h : ∀ s, I s → I (f s)) :
    Alike I (fun _ ↦ True) (modify f : Program σ ε Unit) (modify f) where
  same _ _ := rfl
  kept := h
  value _ _ _ _ := trivial

theorem Alike.mono (h : Alike I Q m m') (hQ : ∀ a, Q a → Q' a) : Alike I Q' m m' where
  same := h.same
  kept := h.kept
  value s a hs heq := hQ a (h.value s a hs heq)

theorem Alike.bind {f f' : α → Program σ ε β} (hm : Alike I Q m m')
    (hf : ∀ a, Q a → Alike I R (f a) (f' a)) : Alike I R (m >>= f) (m' >>= f') where
  same := by
    intro s hs
    have hkept := hm.kept s hs
    have hvalue := hm.value s
    rw [bind_apply, bind_apply, hm.same s hs]
    rcases hrun : m s with ⟨_ | a, mid⟩
    · rfl
    · rw [hrun] at hkept hvalue
      exact (hf a (hvalue a hs rfl)).same mid hkept
  kept := by
    intro s hs
    have hkept := hm.kept s hs
    have hvalue := hm.value s
    rw [bind_apply]
    rcases hrun : m s with ⟨_ | a, mid⟩ <;> rw [hrun] at hkept hvalue
    · exact hkept
    · exact (hf a (hvalue a hs rfl)).kept mid hkept
  value := by
    intro s b hs heq
    have hkept := hm.kept s hs
    have hvalue := hm.value s
    rw [bind_apply] at heq
    rcases hrun : m s with ⟨_ | a, mid⟩ <;> rw [hrun] at hkept hvalue heq
    · cases heq
    · exact (hf a (hvalue a hs rfl)).value mid b hkept heq

theorem Alike.attempt (h : Alike I Q m m') :
    Alike I (fun o ↦ ∀ a, o = .ok a → Q a) (attempt m) (attempt m') where
  same := by
    intro s hs
    rw [attempt_apply, attempt_apply, h.same s hs]
  kept := h.kept
  value := by
    intro s o hs heq a ho
    rw [attempt_apply] at heq
    have hout : (m s).1 = o := Except.ok.inj heq
    exact h.value s a hs (hout.trans ho)

theorem Alike.branch {c : Prop} [Decidable c] (hm : Alike I Q m m') (hn : Alike I Q n n') :
    Alike I Q (if c then m else n) (if c then m' else n') := by
  by_cases hc : c
  · rw [if_pos hc, if_pos hc]
    exact hm
  · rw [if_neg hc, if_neg hc]
    exact hn

end

end Program

end IotdbClient.Library
