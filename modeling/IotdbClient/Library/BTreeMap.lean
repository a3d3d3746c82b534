import Mathlib

/-!
# Ordered maps

Rust's `BTreeMap` as its entries in ascending order of their keys, which is also the order in which
it iterates.
-/

namespace IotdbClient.Library

structure BTreeMap (κ β : Type) [LinearOrder κ] where
  entries : List (κ × β)
  sorted : (entries.map Prod.fst).Pairwise (· < ·)

namespace BTreeMap

variable {κ β : Type} [LinearOrder κ]

theorem ext_entries {m m' : BTreeMap κ β} (h : m.entries = m'.entries) : m = m' := by
  cases m
  cases m'
  cases h
  rfl

def insertEntry (k : κ) (v : β) : List (κ × β) → List (κ × β)
  | [] => [(k, v)]
  | e :: rest =>
      if k < e.1 then (k, v) :: e :: rest
      else if k = e.1 then (k, v) :: rest
      else e :: insertEntry k v rest

theorem mem_keys_insertEntry {k k' : κ} {v : β} {l : List (κ × β)}
    (h : k' ∈ (insertEntry k v l).map Prod.fst) : k' = k ∨ k' ∈ l.map Prod.fst := by
  induction l with
  | nil => simpa [insertEntry] using h
  | cons e rest ih =>
      rw [insertEntry] at h
      by_cases hlt : k < e.1
      · rw [if_pos hlt] at h
        simpa using h
      · rw [if_neg hlt] at h
        by_cases heq : k = e.1
        · rw [if_pos heq, List.map_cons, List.mem_cons] at h
          exact h.imp_right (List.mem_cons_of_mem e.1)
        · rw [if_neg heq, List.map_cons, List.mem_cons] at h
          rcases h with rfl | h
          · exact .inr List.mem_cons_self
          · exact (ih h).imp_right (List.mem_cons_of_mem e.1)

theorem sorted_insertEntry (k : κ) (v : β) {l : List (κ × β)}
    (h : (l.map Prod.fst).Pairwise (· < ·)) :
    ((insertEntry k v l).map Prod.fst).Pairwise (· < ·) := by
  induction l with
  | nil => simp [insertEntry]
  | cons e rest ih =>
      rw [List.map_cons, List.pairwise_cons] at h
      rw [insertEntry]
      by_cases hlt : k < e.1
      · rw [if_pos hlt, List.map_cons, List.map_cons, List.pairwise_cons, List.pairwise_cons]
        refine ⟨?_, h⟩
        intro k' hk'
        rcases List.mem_cons.mp hk' with rfl | hk'
        · exact hlt
        · exact hlt.trans (h.1 k' hk')
      · rw [if_neg hlt]
        by_cases heq : k = e.1
        · rw [if_pos heq, List.map_cons, List.pairwise_cons]
          exact ⟨fun k' hk' ↦ heq ▸ h.1 k' hk', h.2⟩
        · rw [if_neg heq, List.map_cons, List.pairwise_cons]
          refine ⟨?_, ih h.2⟩
          intro k' hk'
          rcases mem_keys_insertEntry hk' with rfl | hk'
          · exact lt_of_le_of_ne (not_lt.mp hlt) (Ne.symm heq)
          · exact h.1 k' hk'

def empty : BTreeMap κ β := ⟨[], List.Pairwise.nil⟩

def insert (m : BTreeMap κ β) (k : κ) (v : β) : BTreeMap κ β :=
  ⟨insertEntry k v m.entries, sorted_insertEntry k v m.sorted⟩

/-- A key above all others goes to the end. -/
theorem insertEntry_last {k : κ} {v : β} {l : List (κ × β)} (h : ∀ k' ∈ l.map Prod.fst, k' < k) :
    insertEntry k v l = l ++ [(k, v)] := by
  induction l with
  | nil => rfl
  | cons e rest ih =>
      rw [List.map_cons, List.forall_mem_cons] at h
      rw [insertEntry, if_neg (not_lt.mpr h.1.le), if_neg (ne_of_gt h.1), ih h.2, List.cons_append]

/-- Inserting the entries of a map one by one, in its own order, builds it up again. -/
theorem insert_entries {m : BTreeMap κ β} {front back : List (κ × β)} {e : κ × β}
    (h : m.entries = front ++ e :: back) {m' : BTreeMap κ β} (hm' : m'.entries = front) :
    (m'.insert e.1 e.2).entries = front ++ [e] := by
  have hbelow : ∀ k' ∈ front.map Prod.fst, k' < e.1 := by
    have hsorted := m.sorted
    rw [h, List.map_append, List.pairwise_append] at hsorted
    intro k' hk'
    exact hsorted.2.2 k' hk' e.1 (by simp)
  change insertEntry e.1 e.2 m'.entries = _
  rw [hm']
  exact insertEntry_last hbelow

end BTreeMap

end IotdbClient.Library
