import Mathlib.Data.Multiset.AddSub
import Mathlib.Data.Multiset.Bind

/-!
# Ledgers of resources

A ledger lists the resources that were taken into a system and those that left it.  In between a
resource may change in the ways that `R` allows, and processes pass it on to each other; the books
balance as long as no resource is lost and none appears twice.
-/

namespace IotdbClient.Library

structure Ledger (α : Type) where
  opened : List α
  closed : List α

namespace Ledger

variable {α β : Type} {R : β → β → Prop}

def record (ledger : Ledger α) (opened closed : List α) : Ledger α :=
  ⟨ledger.opened ++ opened, ledger.closed ++ closed⟩

/-- Each resource that was opened is either held or closed by now. -/
def Balanced (R : β → β → Prop) (ledger : Ledger β) (held : Multiset β) : Prop :=
  Multiset.Rel R ledger.opened (held + ledger.closed)

variable [Std.Refl R] [IsTrans β R] {ledger : Ledger β} {held held' : Multiset β}

/-- A step balances the books if it accounts for what was held before and what it opened. -/
theorem Balanced.record {opened closed : List β} (h : ledger.Balanced R held)
    (hstep : Multiset.Rel R (held + opened) (held' + closed)) :
    (ledger.record opened closed).Balanced R held' := by
  have hsame : ∀ s : Multiset β, Multiset.Rel R s s := fun s ↦
    Multiset.rel_refl_of_refl_on fun x _ ↦ Std.Refl.refl x
  have hopened : Multiset.Rel R (↑ledger.opened + ↑opened) (held + ↑ledger.closed + ↑opened) :=
    h.add (hsame _)
  have hclosed : Multiset.Rel R (held + ↑opened + ↑ledger.closed)
      (held' + ↑closed + ↑ledger.closed) := hstep.add (hsame _)
  rw [add_right_comm] at hclosed
  have hboth := Multiset.Rel.trans R hopened hclosed
  unfold Balanced Ledger.record
  rw [← Multiset.coe_add, ← Multiset.coe_add]
  rwa [add_assoc, add_comm (closed : Multiset β)] at hboth

end Ledger

/-! ## What a list of processes holds -/

section

variable {α β : Type} {f : α → List β} {xs : List α} {i : Nat} {x : α}

/-- Only the process that moves changes what it holds. -/
theorem flatMap_set (f : α → List β) (h : xs[i]? = some x) :
    ∃ rest : Multiset β, (xs.flatMap f : Multiset β) = rest + f x ∧
      ∀ y, ((xs.set i y).flatMap f : Multiset β) = rest + f y := by
  induction xs generalizing i with
  | nil => cases h
  | cons z tail ih =>
      cases i with
      | zero =>
          cases h
          refine ⟨tail.flatMap f, ?_, fun y ↦ ?_⟩
          · rw [List.flatMap_cons, ← Multiset.coe_add, add_comm]
          · rw [List.set_cons_zero, List.flatMap_cons, ← Multiset.coe_add, add_comm]
      | succ i =>
          obtain ⟨rest, hbefore, hafter⟩ := ih (i := i) (by simpa using h)
          refine ⟨f z + rest, ?_, fun y ↦ ?_⟩
          · rw [List.flatMap_cons, ← Multiset.coe_add, hbefore, add_assoc]
          · rw [List.set_cons_succ, List.flatMap_cons, ← Multiset.coe_add, hafter, add_assoc]

end

end IotdbClient.Library
