import Mathlib.Data.List.Basic
import Mathlib.Data.List.Forall2
import Mathlib.Data.Option.Basic
import Mathlib.Logic.Function.Iterate
import Mathlib.Order.Basic

/-!
# Searching lists

What a search from the front finds, compared with other searches of the same list, removing the first
few elements that pass a test, and lists that a clock keeps in order, so that the front is the oldest.
-/

namespace IotdbClient.Library

variable {α : Type} {p q : α → Bool} {l : List α} {a : α}

/-- A list's first element that passes `q` is its first that passes the weaker `p`, unless that one
fails `q` while a later one passes. -/
theorem find?_filter_eq_iff (hpq : ∀ a, q a = true → p a = true) (l : List α) :
    (l.find? p).filter q = l.find? q ↔
      ∀ a, l.find? p = some a → q a = false → ∀ b ∈ l, q b = false := by
  induction l with
  | nil => simp
  | cons a l ih =>
      cases hp : p a with
      | false =>
          have hq : q a = false := by
            cases hq : q a with
            | false => rfl
            | true => rw [hpq a hq] at hp; cases hp
          simp [hp, hq, ih]
      | true =>
          cases hq : q a with
          | true => simp [hp, hq]
          | false =>
              rw [List.find?_cons_of_pos hp, List.find?_cons_of_neg (by simp [hq]), Option.filter_some,
                hq, if_neg Bool.false_ne_true, eq_comm, List.find?_eq_none]
              simp [hq]

/-- The first result of `f` is that of the first element with a result. -/
theorem findSome?_eq_bind_find? {β : Type} (f : α → Option β) (l : List α) :
    l.findSome? f = (l.find? fun a ↦ (f a).isSome).bind f := by
  induction l with
  | nil => rfl
  | cons a l ih =>
      cases hf : f a with
      | some b => simp [hf]
      | none => simp [hf, ih]

/-- A list splits where `a` occurs last. -/
theorem split_at_last (h : a ∈ l) : ∃ front back, l = front ++ a :: back ∧ a ∉ back := by
  obtain ⟨back, front, hsplit, hback⟩ := List.eq_append_cons_of_mem (List.mem_reverse.mpr h)
  refine ⟨front.reverse, back.reverse, ?_, by simpa using hback⟩
  have hreverse := congrArg List.reverse hsplit
  simpa using hreverse

/-- Where `p` holds of everything in front of an element it holds of, the elements it holds of are
the first ones of the list. -/
theorem lt_countP_iff {l : List α} (hfront : l.Pairwise fun a b ↦ p b = true → p a = true) {i : Nat}
    (h : l[i]? = some a) : i < l.countP p ↔ p a = true := by
  induction l generalizing i with
  | nil => cases h
  | cons b l ih =>
      rw [List.pairwise_cons] at hfront
      cases hp : p b with
      | true =>
          rw [List.countP_cons_of_pos hp]
          cases i with
          | zero =>
              cases h
              simp [hp]
          | succ i =>
              rw [List.getElem?_cons_succ] at h
              rw [Nat.succ_lt_succ_iff, ih hfront.2 h]
      | false =>
          -- nothing behind the first element can pass
          have hnone : ∀ c ∈ l, p c = false := by
            intro c hc
            by_contra hpass
            rw [hfront.1 c hc (by simpa using hpass)] at hp
            cases hp
          have hcount : (b :: l).countP p = 0 := by
            rw [List.countP_eq_zero]
            simpa [hp] using hnone
          have ha : p a = false := by
            rcases List.mem_cons.mp (List.mem_of_getElem? h) with rfl | hmem
            · exact hp
            · exact hnone a hmem
          simp [hcount, ha]

/-! ## Removing the first few -/

section

variable {β : Type} {front back : List α} {R : α → β → Prop} {l' : List β} {q' : β → Bool}

theorem iterate_eraseP_of_forall_not (h : ∀ a ∈ l, p a = false) (n : Nat) :
    (List.eraseP p)^[n] l = l := by
  induction n with
  | zero => rfl
  | succ n ih =>
      have hsame : l.eraseP p = l := List.eraseP_of_forall_not (by simpa using h)
      rw [Function.iterate_succ_apply, hsame, ih]

theorem iterate_eraseP_append (h : ∀ a ∈ front, p a = false) (n : Nat) :
    (List.eraseP p)^[n] (front ++ back) = front ++ (List.eraseP p)^[n] back := by
  induction n generalizing back with
  | zero => rfl
  | succ n ih =>
      have hback : (front ++ back).eraseP p = front ++ back.eraseP p :=
        List.eraseP_append_right _ (by simpa using h)
      rw [Function.iterate_succ_apply, hback, ih, ← Function.iterate_succ_apply]

theorem iterate_eraseP_cons (h : p a = true) (n : Nat) :
    (List.eraseP p)^[n + 1] (a :: l) = (List.eraseP p)^[n] l := by
  rw [Function.iterate_succ_apply, List.eraseP_cons_of_pos h]

theorem iterate_eraseP_sublist (n : Nat) : ((List.eraseP p)^[n] l).Sublist l := by
  induction n generalizing l with
  | zero => exact List.Sublist.refl l
  | succ n ih => exact ih.trans List.eraseP_sublist

theorem forall₂_eraseP (hp : ∀ a b, R a b → q' b = p a) (h : List.Forall₂ R l l') :
    List.Forall₂ R (l.eraseP p) (l'.eraseP q') := by
  induction h with
  | nil => exact .nil
  | @cons a b l l' hab hrest ih =>
      have hsame := hp a b hab
      by_cases ha : p a = true
      · rw [List.eraseP_cons_of_pos ha, List.eraseP_cons_of_pos (hsame.trans ha)]
        exact hrest
      · rw [List.eraseP_cons_of_neg ha, List.eraseP_cons_of_neg (by rwa [hsame])]
        exact .cons hab ih

theorem forall₂_iterate_eraseP (hp : ∀ a b, R a b → q' b = p a) (n : Nat)
    (h : List.Forall₂ R l l') :
    List.Forall₂ R ((List.eraseP p)^[n] l) ((List.eraseP q')^[n] l') := by
  induction n generalizing l l' with
  | zero => exact h
  | succ n ih => exact ih (forall₂_eraseP hp h)

theorem rel_some_left {o : Option α} {o' : Option β} (h : Option.Rel R o o') (ha : o = some a) :
    ∃ b, o' = some b ∧ R a b := by
  subst ha
  cases h with
  | some hab => exact ⟨_, rfl, hab⟩

theorem rel_some_right {o : Option α} {o' : Option β} {b : β} (h : Option.Rel R o o')
    (hb : o' = some b) : ∃ a, o = some a ∧ R a b := by
  subst hb
  cases h with
  | some hab => exact ⟨_, rfl, hab⟩

/-- What two searches of related lists find is related. -/
theorem forall₂_find? (hp : ∀ a b, R a b → q' b = p a) (h : List.Forall₂ R l l') :
    Option.Rel R (l.find? p) (l'.find? q') := by
  induction h with
  | nil => exact .none
  | @cons a b l l' hab _ ih =>
      have hsame := hp a b hab
      by_cases ha : p a = true
      · rw [List.find?_cons_of_pos ha, List.find?_cons_of_pos (hsame.trans ha)]
        exact .some hab
      · rw [List.find?_cons_of_neg ha, List.find?_cons_of_neg (by rwa [hsame])]
        exact ih

end

/-! ## Lists in the order of time -/

/-- Instants in order, none of them later than `clock`. -/
structure Timeline {τ : Type} [Preorder τ] (times : List τ) (clock : τ) : Prop where
  sorted : times.Pairwise (· ≤ ·)
  past : ∀ time ∈ times, time ≤ clock

section

variable {τ : Type} [Preorder τ] {times times' : List τ} {clock now : τ}

theorem timeline_nil (clock : τ) : Timeline [] clock := ⟨.nil, by simp⟩

theorem Timeline.sublist (h : Timeline times clock) (hsub : times'.Sublist times)
    (hle : clock ≤ now) : Timeline times' now where
  sorted := h.sorted.sublist hsub
  past := fun time htime ↦ (h.past time (hsub.subset htime)).trans hle

theorem Timeline.push (h : Timeline times clock) (hle : clock ≤ now) :
    Timeline (times ++ [now]) now where
  sorted := by
    rw [List.pairwise_append]
    refine ⟨h.sorted, List.pairwise_singleton _ _, ?_⟩
    intro time htime last hlast
    obtain rfl := List.mem_singleton.mp hlast
    exact (h.past time htime).trans hle
  past := by
    intro time htime
    rcases List.mem_append.mp htime with htime | htime
    · exact (h.past time htime).trans hle
    · exact (List.mem_singleton.mp htime).le

end

end IotdbClient.Library
