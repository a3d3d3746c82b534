import Mathlib.Data.List.Pairwise
import Mathlib.Data.List.Perm.Basic

/-!
# Owners of numbered things

Things are numbered as they are made.  Every owner has some of them, and no thing has two owners.
Owners make new things for themselves, lose things and are moved about, one at a time; nobody is given
a thing that another has.
-/

namespace IotdbClient.Library

variable {β : Type} {owns : β → Nat → Prop} {bound bound' : Nat} {x y : β} {xs ys : List β}

/-- The things of each owner are made already, and no two owners share one. -/
structure Private (owns : β → Nat → Prop) (bound : Nat) (xs : List β) : Prop where
  made : ∀ x ∈ xs, ∀ n, owns x n → n < bound
  apart : xs.Pairwise fun x y ↦ ∀ n, owns x n → ¬owns y n

/-- Whatever `y` has, `x` had, or it was made since. -/
def Grows (owns : β → Nat → Prop) (bound bound' : Nat) (x y : β) : Prop :=
  ∀ n, owns y n → owns x n ∨ bound ≤ n ∧ n < bound'

theorem Grows.trans {z : β} {bound'' : Nat} (h : Grows owns bound bound' x y)
    (h' : Grows owns bound' bound'' y z) (hfirst : bound ≤ bound') (hlast : bound' ≤ bound'') :
    Grows owns bound bound'' x z := by
  intro n hn
  rcases h' n hn with hy | hnew
  · rcases h n hy with hx | hmade
    · exact .inl hx
    · exact .inr ⟨hmade.1, by omega⟩
  · exact .inr ⟨by omega, hnew.2⟩

namespace Private

theorem mono (h : Private owns bound xs) (hbound : bound ≤ bound') : Private owns bound' xs where
  made x hx n hn := Nat.lt_of_lt_of_le (h.made x hx n hn) hbound
  apart := h.apart

theorem perm (h : Private owns bound xs) (hperm : xs.Perm ys) : Private owns bound ys where
  made x hx := h.made x (hperm.mem_iff.mpr hx)
  apart := by
    have hsymm : ∀ {x y : β}, (∀ n, owns x n → ¬owns y n) → ∀ n, owns y n → ¬owns x n :=
      fun hxy n hy hx ↦ hxy n hx hy
    exact hperm.pairwise h.apart hsymm

theorem sublist (h : Private owns bound xs) (hsub : ys.Sublist xs) : Private owns bound ys where
  made x hx := h.made x (hsub.subset hx)
  apart := h.apart.sublist hsub

-- What is new to `y` is too new for anybody else.
theorem grow (h : Private owns bound (x :: xs)) (hgrows : Grows owns bound bound' x y)
    (hbound : bound ≤ bound') : Private owns bound' (y :: xs) := by
  have hapart := List.pairwise_cons.mp h.apart
  constructor
  · rw [List.forall_mem_cons]
    constructor
    · intro n hn
      rcases hgrows n hn with hx | hnew
      · have hlt := h.made x List.mem_cons_self n hx
        omega
      · exact hnew.2
    · exact fun z hz n hn ↦ Nat.lt_of_lt_of_le (h.made z (List.mem_cons_of_mem _ hz) n hn) hbound
  · rw [List.pairwise_cons]
    refine ⟨fun z hz n hy hz' ↦ ?_, hapart.2⟩
    rcases hgrows n hy with hx | hnew
    · exact hapart.1 z hz n hx hz'
    · have hlt := h.made z (List.mem_cons_of_mem _ hz) n hz'
      omega

/-- An owner who has nothing yet. -/
theorem cons_empty (h : Private owns bound xs) (hempty : ∀ n, ¬owns x n) :
    Private owns bound (x :: xs) where
  made := List.forall_mem_cons.mpr ⟨fun n hn ↦ absurd hn (hempty n), h.made⟩
  apart := List.pairwise_cons.mpr ⟨fun _ _ n hn ↦ absurd hn (hempty n), h.apart⟩

/-- Owners who have no more than before. -/
theorem shrink (h : Private owns bound (xs ++ ys)) {xs' : List β}
    (hless : List.Forall₂ (fun x x' ↦ ∀ n, owns x' n → owns x n) xs xs') :
    Private owns bound (xs' ++ ys) := by
  induction hless generalizing ys with
  | nil => exact h
  | @cons x x' xs xs' hx _ ih =>
      have hgrown : Private owns bound (x' :: (xs ++ ys)) :=
        h.grow (fun n hn ↦ .inl (hx n hn)) (Nat.le_refl _)
      have hlast := ih (hgrown.perm List.perm_middle.symm)
      exact hlast.perm List.perm_middle

end Private

end IotdbClient.Library
