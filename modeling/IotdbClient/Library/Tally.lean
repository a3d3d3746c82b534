import Mathlib

/-!
# Tallies over a list of processes

A system of processes is a list of their states.  A quantity that the processes hold together is the
sum of a weight over the list; when one process moves, the sum changes by the change of its weight.
-/

namespace IotdbClient.Library

variable {α : Type} {f g : α → Nat} {xs : List α} {i j : Nat} {x y : α}

def total (f : α → Nat) (xs : List α) : Nat := (xs.map f).sum

@[simp] theorem total_nil : total f [] = 0 := rfl

@[simp] theorem total_cons : total f (x :: xs) = f x + total f xs := rfl

@[simp] theorem total_append {ys : List α} : total f (xs ++ ys) = total f xs + total f ys := by
  simp [total]

theorem total_add : total (fun x ↦ f x + g x) xs = total f xs + total g xs := List.sum_map_add

/-- One process moves from `x` to `y`. -/
theorem total_set (f : α → Nat) (h : xs[i]? = some x) (y : α) :
    total f (xs.set i y) + f x = total f xs + f y := by
  induction xs generalizing i with
  | nil => cases h
  | cons z rest ih =>
      cases i with
      | zero =>
          cases h
          simp only [List.set_cons_zero, total_cons]
          omega
      | succ i =>
          have hrest := ih (i := i) (by simpa using h)
          simp only [List.set_cons_succ, total_cons]
          omega

theorem le_total (f : α → Nat) (h : x ∈ xs) : f x ≤ total f xs :=
  List.single_le_sum (fun _ _ ↦ Nat.zero_le _) _ (List.mem_map_of_mem h)

theorem total_eq_zero_iff : total f xs = 0 ↔ ∀ x ∈ xs, f x = 0 := by
  simp [total, List.sum_eq_zero_iff_forall_eq_nat]

theorem total_pos_iff : 0 < total f xs ↔ ∃ x ∈ xs, 0 < f x := by
  rw [Nat.pos_iff_ne_zero, ne_eq, total_eq_zero_iff]
  push Not
  simp only [Nat.pos_iff_ne_zero]

/-- Where a weight allows one process only, a process that has it is alone: every weight that comes
with it is that of this process. -/
theorem total_of_alone (hone : total g xs ≤ 1) (h : xs[i]? = some x) (hx : 0 < g x)
    (hfg : ∀ y, 0 < f y → 0 < g y) : total f xs = f x := by
  induction xs generalizing i with
  | nil => cases h
  | cons z rest ih =>
      simp only [total_cons] at hone ⊢
      cases i with
      | zero =>
          cases h
          have hnone : total g rest = 0 := by omega
          have hzero : total f rest = 0 := by
            refine total_eq_zero_iff.mpr fun y hy ↦ ?_
            have hy' := total_eq_zero_iff.mp hnone y hy
            by_contra hne
            have := hfg y (Nat.pos_of_ne_zero hne)
            omega
          omega
      | succ i =>
          have hget : rest[i]? = some x := by simpa using h
          have hmem := le_total g (List.mem_of_getElem? hget)
          have hrest := ih (by omega) hget
          have hz : f z = 0 := by
            by_contra hne
            have := hfg z (Nat.pos_of_ne_zero hne)
            omega
          omega

/-- A property of every process survives the move of one. -/
theorem forall_mem_set {P : α → Prop} (h : ∀ x ∈ xs, P x) (hy : P y) : ∀ x ∈ xs.set i y, P x := by
  intro x hx
  rcases List.mem_or_eq_of_mem_set hx with hold | rfl
  · exact h x hold
  · exact hy

/-- The same from the `n`-th process on. -/
theorem forall_from_set {P : α → Prop} {n : Nat} (h : ∀ j x, n ≤ j → xs[j]? = some x → P x)
    (hy : n ≤ i → P y) : ∀ j x, n ≤ j → (xs.set i y)[j]? = some x → P x := by
  intro j x hj hx
  rw [List.getElem?_set] at hx
  split at hx
  · rename_i hij
    split at hx
    · cases hx
      exact hy (hij ▸ hj)
    · cases hx
  · exact h j x hj hx

end IotdbClient.Library
