import Mathlib.Data.List.MinMax
import Mathlib.Data.List.Nodup
import Mathlib.Data.List.Lattice

/-!
# Association lists with distinct keys

A hash map is a list of pairs whose order means nothing: what is looked up, removed or chosen as
least depends on the list up to permutation only.
-/

namespace IotdbClient.Library

variable {κ ν : Type} {xs ys : List (κ × ν)} {k : κ} {v : ν}

/-- No key twice. -/
def DistinctKeys (xs : List (κ × ν)) : Prop := (xs.map Prod.fst).Nodup

theorem DistinctKeys.perm (h : DistinctKeys xs) (hperm : xs.Perm ys) : DistinctKeys ys :=
  (hperm.map Prod.fst).nodup h

theorem DistinctKeys.append (h : DistinctKeys xs) (hk : ∀ p ∈ xs, p.1 ≠ k) :
    DistinctKeys (xs ++ [(k, v)]) := by
  rw [DistinctKeys, List.map_append, List.nodup_append]
  refine ⟨h, List.nodup_singleton k, ?_⟩
  intro a ha b hb
  obtain ⟨p, hp, rfl⟩ := List.mem_map.mp ha
  obtain rfl := List.mem_singleton.mp hb
  exact hk p hp

variable [DecidableEq κ]

/-- The list without key `k`. -/
def eraseKey (xs : List (κ × ν)) (k : κ) : List (κ × ν) := xs.filter fun p ↦ p.1 != k

theorem DistinctKeys.eraseKey (h : DistinctKeys xs) (k : κ) : DistinctKeys (eraseKey xs k) :=
  h.sublist (List.filter_sublist.map Prod.fst)

theorem mem_eraseKey {p : κ × ν} : p ∈ eraseKey xs k ↔ p ∈ xs ∧ p.1 ≠ k := by
  simp [eraseKey]

theorem eraseKey_of_not_mem (h : ∀ p ∈ xs, p.1 ≠ k) : eraseKey xs k = xs := by
  rw [eraseKey, List.filter_eq_self]
  simpa using h

theorem DistinctKeys.eraseKey_head {p : κ × ν} (h : DistinctKeys (p :: xs)) :
    Library.eraseKey (p :: xs) p.1 = xs := by
  rw [DistinctKeys, List.map_cons, List.nodup_cons] at h
  rw [Library.eraseKey, List.filter_cons_of_neg (by simp)]
  apply eraseKey_of_not_mem
  intro q hq heq
  exact h.1 (heq ▸ List.mem_map_of_mem hq)

theorem DistinctKeys.lookup_eq_some (h : DistinctKeys xs) : xs.lookup k = some v ↔ (k, v) ∈ xs := by
  induction xs with
  | nil => simp
  | cons p xs ih =>
      obtain ⟨k', v'⟩ := p
      rw [DistinctKeys, List.map_cons, List.nodup_cons] at h
      rw [List.lookup_cons, List.mem_cons]
      by_cases hk : k = k'
      · subst hk
        have hrest : (k, v) ∉ xs := fun hmem ↦
          h.1 (List.mem_map.mpr ⟨(k, v), hmem, rfl⟩)
        simp [hrest, eq_comm]
      · rw [show (k == k') = false from beq_eq_false_iff_ne.mpr hk]
        change xs.lookup k = some v ↔ _
        rw [ih h.2]
        simp [hk]

theorem lookup_eq_none : xs.lookup k = none ↔ ∀ p ∈ xs, p.1 ≠ k := by
  rw [List.lookup_eq_none_iff]
  constructor
  · intro h p hp heq
    simpa [heq] using h p hp
  · intro h p hp
    simpa using fun heq ↦ h p hp heq.symm

theorem DistinctKeys.lookup_perm (h : DistinctKeys xs) (hperm : xs.Perm ys) (k : κ) :
    xs.lookup k = ys.lookup k := by
  apply Option.ext
  intro v
  rw [h.lookup_eq_some, (h.perm hperm).lookup_eq_some]
  exact hperm.mem_iff

theorem lookup_append_of_ne {k' : κ} (h : k ≠ k') (xs : List (κ × ν)) (v : ν) :
    (xs ++ [(k', v)]).lookup k = xs.lookup k := by
  rw [List.lookup_append, List.lookup_cons, beq_eq_false_iff_ne.mpr h]
  exact Option.or_none

theorem DistinctKeys.lookup_eraseKey_of_ne {k' : κ} (hxs : DistinctKeys xs) (h : k ≠ k') :
    (Library.eraseKey xs k').lookup k = xs.lookup k := by
  apply Option.ext
  intro v
  rw [(hxs.eraseKey k').lookup_eq_some, hxs.lookup_eq_some, mem_eraseKey]
  exact and_iff_left h

/-- Without its head a list finds what it found before, or nothing at the head's key. -/
theorem DistinctKeys.lookup_tail (h : DistinctKeys xs) (k : κ) :
    xs.tail.lookup k = xs.lookup k ∨ xs.tail.lookup k = none := by
  cases xs with
  | nil => exact .inl rfl
  | cons p rest =>
      rw [List.tail_cons]
      by_cases hk : p.1 = k
      · rw [← h.eraseKey_head, lookup_eq_none.mpr]
        · exact .inr rfl
        · intro q hq
          exact hk ▸ (mem_eraseKey.mp hq).2
      · have hrest := h.lookup_eraseKey_of_ne (Ne.symm hk)
        rw [h.eraseKey_head] at hrest
        exact .inl hrest

/-- The element of least key, where one is smaller than all others. -/
theorem argmin_of_forall_lt {α μ : Type} [LinearOrder μ] {f : α → μ} {a : α} {l rest : List α}
    (hperm : (a :: rest).Perm l) (h : ∀ b ∈ rest, f a < f b) : l.argmin f = some a := by
  have hmem : a ∈ l := hperm.mem_iff.mp List.mem_cons_self
  obtain ⟨m, hm⟩ : ∃ m, l.argmin f = some m := by
    rw [← Option.ne_none_iff_exists', ne_eq, List.argmin_eq_none]
    exact List.ne_nil_of_mem hmem
  rcases List.mem_cons.mp (hperm.mem_iff.mpr (List.argmin_mem hm)) with rfl | hrest
  · exact hm
  · exact ((List.le_of_mem_argmin hmem hm).not_gt (h m hrest)).elim

end IotdbClient.Library
