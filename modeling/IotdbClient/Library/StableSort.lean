import Mathlib
import IotdbClient.Library.Outcome

/-!
# Stable sorting by a key

`sortByKey` is a stable sort; `StablySorted` says what that means without naming an algorithm: the
output is ordered by key and the elements of one key stand as they stood in the input.  Sorting the
indices of a list and reading the list through them is sorting the list.
-/

namespace IotdbClient.Library

variable {α β κ : Type} [LinearOrder κ]

structure StablySorted (key : α → κ) (input output : List α) : Prop where
  sorted : output.Pairwise fun a b ↦ key a ≤ key b
  stable : ∀ k, output.filter (fun a ↦ key a = k) = input.filter (fun a ↦ key a = k)

def sortByKey (key : α → κ) (l : List α) : List α := l.insertionSort fun a b ↦ key a ≤ key b

instance keyLe_total (key : α → κ) : Std.Total fun a b ↦ key a ≤ key b := ⟨fun a b ↦ le_total (key a) (key b)⟩

instance keyLe_trans (key : α → κ) : IsTrans α fun a b ↦ key a ≤ key b := ⟨fun _ _ _ ↦ le_trans⟩

theorem sortByKey_perm (key : α → κ) (l : List α) : (sortByKey key l).Perm l :=
  List.perm_insertionSort _ l

@[simp] theorem sortByKey_length (key : α → κ) (l : List α) : (sortByKey key l).length = l.length :=
  (sortByKey_perm key l).length_eq

@[simp] theorem mem_sortByKey {key : α → κ} {l : List α} {a : α} : a ∈ sortByKey key l ↔ a ∈ l :=
  (sortByKey_perm key l).mem_iff

theorem sortByKey_stablySorted (key : α → κ) (l : List α) : StablySorted key l (sortByKey key l) where
  sorted := List.pairwise_insertionSort _ l
  stable := by
    intro k
    -- One key's elements are already in order, so the sort keeps them as a sublist.
    have hclass : (l.filter fun a ↦ key a = k).Pairwise fun a b ↦ key a ≤ key b := by
      apply List.pairwise_of_forall_mem_list
      intro a ha b hb
      rw [List.mem_filter, decide_eq_true_eq] at ha hb
      exact (ha.2.trans hb.2.symm).le
    have hsub := (List.sublist_insertionSort hclass List.filter_sublist).filter fun a ↦ key a = k
    rw [List.filter_filter] at hsub
    simp only [Bool.and_self] at hsub
    exact (hsub.eq_of_length ((sortByKey_perm key l).filter _).length_eq.symm).symm

theorem sortByKey_map (key : β → κ) (f : α → β) (l : List α) :
    (sortByKey (fun a ↦ key (f a)) l).map f = sortByKey key (l.map f) :=
  List.map_insertionSort _ _ f l fun _ _ _ _ ↦ Iff.rfl

/-- Sorting indices by the key they point at, then reading through them, sorts the list. -/
theorem sortByKey_indices (key : α → κ) (l : List α) (d : α) :
    (sortByKey (fun i ↦ key (l.getD i d)) (List.range l.length)).map (fun i ↦ l.getD i d) =
      sortByKey key l := by
  rw [sortByKey_map key (fun i ↦ l.getD i d), map_getD_range]

/-- A list that holds its own positions is the list of positions. -/
theorem eq_range_of_positions (l : List Nat) (h : l.zipIdx.all fun p ↦ p.2 == p.1) :
    l = List.range l.length := by
  apply List.ext_getElem
  · simp
  · intro i h1 h2
    rw [List.all_eq_true] at h
    have hpos := h (l[i], i) (List.mem_zipIdx_iff_getElem?.mpr (List.getElem?_eq_getElem h1))
    rw [List.getElem_range]
    exact (beq_iff_eq.mp hpos).symm

/-- The gather loop of an index sort: reading a column of `l` through the sorted indices. -/
theorem mapM_index_sorted {ε : Type} (key : α → κ) (f : α → β) (l : List α) (d : α) :
    (sortByKey (fun i ↦ key (l.getD i d)) (List.range l.length)).mapM (index (l.map f)) =
      (.ok ((sortByKey key l).map f) : Outcome ε (List β)) := by
  rw [mapM_ok (g := fun i ↦ f (l.getD i d)), ← sortByKey_indices key l d, List.map_map]
  · rfl
  · intro i hi
    rw [mem_sortByKey, List.mem_range] at hi
    apply index_of_getElem?
    simp [hi]

/-- Indices that stay in place belong to a sorted list. -/
theorem sortByKey_of_positions (key : α → κ) (l : List α) (d : α)
    (h : (sortByKey (fun i ↦ key (l.getD i d)) (List.range l.length)).zipIdx.all
      fun p ↦ p.2 == p.1) : sortByKey key l = l := by
  have hid := eq_range_of_positions _ h
  rw [sortByKey_length, List.length_range] at hid
  rw [← sortByKey_indices key l d, hid, map_getD_range]

/-! ## Uniqueness -/

theorem mem_iff_of_classes {key : α → κ} {xs ys : List α}
    (h : ∀ k, xs.filter (fun a ↦ key a = k) = ys.filter (fun a ↦ key a = k)) (a : α) :
    a ∈ xs ↔ a ∈ ys := by
  have hclass := congrArg (a ∈ ·) (h (key a))
  simpa using hclass

/-- Two sorted lists with the same elements of every key, in the same order, are equal: their heads
carry the least key. -/
theorem eq_of_sorted_of_classes {key : α → κ} {xs ys : List α}
    (hx : xs.Pairwise fun a b ↦ key a ≤ key b) (hy : ys.Pairwise fun a b ↦ key a ≤ key b)
    (h : ∀ k, xs.filter (fun a ↦ key a = k) = ys.filter (fun a ↦ key a = k)) : xs = ys := by
  induction xs generalizing ys with
  | nil =>
      symm
      rw [List.eq_nil_iff_forall_not_mem]
      intro a ha
      simpa using (mem_iff_of_classes h a).mpr ha
  | cons a xs ih =>
      cases ys with
      | nil => simpa using (mem_iff_of_classes h a).mp List.mem_cons_self
      | cons b ys =>
          rw [List.pairwise_cons] at hx hy
          have hab : key a ≤ key b := by
            rcases List.mem_cons.mp ((mem_iff_of_classes h b).mpr List.mem_cons_self) with rfl | hb
            · exact le_rfl
            · exact hx.1 b hb
          have hba : key b ≤ key a := by
            rcases List.mem_cons.mp ((mem_iff_of_classes h a).mp List.mem_cons_self) with rfl | ha
            · exact le_rfl
            · exact hy.1 a ha
          have hkey : key b = key a := le_antisymm hba hab
          have hheads := h (key a)
          simp only [List.filter_cons, decide_true, if_true, hkey] at hheads
          obtain rfl : a = b := List.head_eq_of_cons_eq hheads
          congr 1
          apply ih hx.2 hy.2
          intro k
          have hk := h k
          by_cases hak : key a = k
          · simpa [List.filter_cons, hak] using hk
          · simpa [List.filter_cons, hak] using hk

theorem StablySorted.unique {key : α → κ} {input output output' : List α}
    (h : StablySorted key input output) (h' : StablySorted key input output') : output = output' :=
  eq_of_sorted_of_classes h.sorted h'.sorted fun k ↦ (h.stable k).trans (h'.stable k).symm

/-- The order in which rows of different keys are given does not matter. -/
theorem sortByKey_eq_of_classes {key : α → κ} {xs ys : List α}
    (h : ∀ k, xs.filter (fun a ↦ key a = k) = ys.filter (fun a ↦ key a = k)) :
    sortByKey key xs = sortByKey key ys := by
  have hx := sortByKey_stablySorted key xs
  have hy := sortByKey_stablySorted key ys
  exact eq_of_sorted_of_classes hx.sorted hy.sorted
    fun k ↦ (hx.stable k).trans ((h k).trans (hy.stable k).symm)

theorem sortByKey_idem (key : α → κ) (l : List α) :
    sortByKey key (sortByKey key l) = sortByKey key l :=
  sortByKey_eq_of_classes (sortByKey_stablySorted key l).stable

omit [LinearOrder κ] in
-- With distinct keys a class has at most one element.
theorem classes_of_perm [DecidableEq κ] {key : α → κ} {xs ys : List α} (hperm : xs.Perm ys)
    (hnodup : (xs.map key).Nodup) (k : κ) :
    xs.filter (fun a ↦ key a = k) = ys.filter (fun a ↦ key a = k) := by
  have hclass := hperm.filter fun a ↦ key a = k
  have hsub := (List.filter_sublist (p := fun a ↦ decide (key a = k)) (l := xs)).map key
  have hconst : (xs.filter fun a ↦ key a = k).map key =
      List.replicate (xs.filter fun a ↦ key a = k).length k := by
    rw [List.eq_replicate_iff]
    refine ⟨List.length_map _, ?_⟩
    intro b hb
    obtain ⟨a, ha, rfl⟩ := List.mem_map.mp hb
    simpa using (List.mem_filter.mp ha).2
  have hone : (xs.filter fun a ↦ key a = k).length ≤ 1 := by
    have hdistinct := hnodup.sublist hsub
    rw [hconst] at hdistinct
    exact List.nodup_replicate.mp hdistinct
  match hfilter : xs.filter (fun a ↦ key a = k), hone with
  | [], _ =>
      rw [hfilter] at hclass
      exact (List.nil_perm.mp hclass).symm
  | [a], _ =>
      rw [hfilter] at hclass
      exact List.singleton_perm.mp hclass

theorem sortByKey_filter (key : α → κ) (p : α → Bool) (l : List α) :
    (sortByKey key l).filter p = sortByKey key (l.filter p) := by
  have hsorted := sortByKey_stablySorted key l
  have hfiltered : StablySorted key (l.filter p) ((sortByKey key l).filter p) := by
    refine ⟨hsorted.sorted.filter p, ?_⟩
    intro k
    rw [List.filter_comm, hsorted.stable k, List.filter_comm]
  exact hfiltered.unique (sortByKey_stablySorted key (l.filter p))

end IotdbClient.Library
