import IotdbClient.Client.RedirectSpec
import IotdbClient.Library.Search

/-!
# Eviction and expiry

The eviction of the redirect cache looks at the counters and never at the clock.  The reference list
holds the hints in the order of their last put, so under a clock that does not go back it holds them
in the order of their put times, and the hint that is evicted is the one that expires first.
-/

namespace IotdbClient

open Library

/-- The instant that the call reads off the clock. -/
def CacheOp.time : CacheOp → Option Nat
  | .put _ _ now | .getAt _ now => some now
  | .clear => none

/-! ## The reference list in time -/

namespace HintList

variable {list : HintList} {clock now : Nat}

def putTimes (list : HintList) : List Nat := list.hints.map Hint.putTime

theorem without_sublist (hints : List Hint) (deviceId : String) :
    (without hints deviceId).Sublist hints := List.filter_sublist

theorem put_timeline (h : Timeline list.putTimes clock) (hle : clock ≤ now) (deviceId : String)
    (endpoint : Endpoint) : Timeline (list.put deviceId endpoint now).putTimes now := by
  unfold put
  by_cases hzero : list.maxEntries = 0
  · rw [if_pos hzero]
    exact h.sublist (List.Sublist.refl _) hle
  · rw [if_neg hzero]
    -- whatever leaves, the hints that stay keep their order
    have hkept : ∀ kept : List Hint, kept.Sublist list.hints →
        Timeline ((kept ++ [Hint.mk deviceId endpoint now]).map Hint.putTime) now := by
      intro kept hsub
      rw [List.map_append]
      have htimes : (kept.map Hint.putTime).Sublist list.putTimes := hsub.map Hint.putTime
      exact (h.sublist htimes (Nat.le_refl clock)).push hle
    apply hkept
    split
    · exact without_sublist _ _
    · split
      · exact List.tail_sublist _
      · exact List.Sublist.refl _

theorem get_timeline (h : Timeline list.putTimes clock) (hle : clock ≤ now) (deviceId : String) :
    Timeline (list.get deviceId now).2.putTimes now := by
  unfold get
  split
  · exact h.sublist (List.Sublist.refl _) hle
  · split
    · exact h.sublist ((without_sublist _ _).map Hint.putTime) hle
    · exact h.sublist (List.Sublist.refl _) hle

/-- Calls whose clock does not go back keep the hints in the order of their put times. -/
theorem after_timeline {ops : List CacheOp} (h : Timeline list.putTimes clock)
    (hclock : (clock :: (ops.filterMap CacheOp.time ++ [now])).Pairwise (· ≤ ·)) :
    Timeline (list.after ops).putTimes now := by
  induction ops generalizing list clock with
  | nil =>
      have hle : clock ≤ now := (List.pairwise_cons.mp hclock).1 now (by simp)
      exact h.sublist (List.Sublist.refl _) hle
  | cons op ops ih =>
      obtain ⟨hfirst, hrest⟩ := List.pairwise_cons.mp hclock
      cases op with
      | put deviceId endpoint time =>
          have hle : clock ≤ time := hfirst time (by simp [CacheOp.time])
          exact ih (put_timeline h hle deviceId endpoint) hrest
      | getAt deviceId time =>
          have hle : clock ≤ time := hfirst time (by simp [CacheOp.time])
          exact ih (get_timeline h hle deviceId) hrest
      | clear => exact ih (timeline_nil clock) hclock

end HintList

/-! ## Eviction -/

theorem isExpired_mono {elapsed elapsed' ttl : Nat} (hle : elapsed' ≤ elapsed)
    (h : isExpired elapsed ttl = false) : isExpired elapsed' ttl = false := by
  simp only [isExpired, ne_eq, decide_not, Bool.and_eq_false_iff, Bool.not_eq_false',
    decide_eq_true_eq, decide_eq_false_iff_not, not_lt] at h ⊢
  omega

namespace RedirectCache

variable {cache : RedirectCache} {sorted : List (String × RedirectEntry)}
  {p : String × RedirectEntry}

/-- What a put evicts is the head of the order. -/
theorem OrderedBy.evicted_head (h : OrderedBy cache sorted) (hp : p ∈ sorted) {deviceId : String}
    {endpoint : Endpoint} {now : Nat}
    (hgone : p.1 ∉ (cache.put deviceId endpoint now).entries.map Prod.fst) :
    ∃ rest, sorted = p :: rest := by
  by_cases hzero : cache.maxEntries = 0
  · rw [put_of_disabled hzero] at hgone
    exact (hgone (List.mem_map_of_mem (h.perm.mem_iff.mp hp))).elim
  · rw [put_cases hzero, List.map_append, List.mem_append, not_or] at hgone
    obtain ⟨hkept, -, -⟩ := h.kept hzero deviceId
    have hleft : p ∉ keptBy cache sorted deviceId := by
      intro hmem
      exact hgone.1 (List.mem_map_of_mem (hkept.perm.mem_iff.mp hmem))
    have hother : p.1 ≠ deviceId := by
      intro heq
      exact hgone.2 (by simp [heq])
    unfold keptBy at hleft
    split at hleft
    · -- a refresh evicts nobody
      exact (hleft (mem_eraseKey.mpr ⟨hp, hother⟩)).elim
    · split at hleft
      · cases sorted with
        | nil => cases hp
        | cons first rest =>
            rcases List.mem_cons.mp hp with rfl | htail
            · exact ⟨rest, rfl⟩
            · exact (hleft htail).elim
      · exact (hleft hp).elim

end RedirectCache

/-- As long as the counter has not wrapped, a put evicts a hint that has not expired only where no
hint has expired. -/
theorem fresh_hint_never_sacrificed {ttl maxEntries : Nat} {ops : List CacheOp}
    {answers : List (Option Endpoint × Nat)} {cache : RedirectCache}
    (hputs : ops.countP CacheOp.isPut < 2 ^ 64)
    (hrun : RedirectCache.Run (RedirectCache.new ttl maxEntries) ops answers cache) {now : Nat}
    (hclock : (ops.filterMap CacheOp.time ++ [now]).Pairwise (· ≤ ·)) {deviceId : String}
    {endpoint : Endpoint} {p : String × RedirectEntry} (hp : p ∈ cache.entries)
    (hevicted : p.1 ∉ (cache.put deviceId endpoint now).entries.map Prod.fst)
    (hfresh : isExpired (now - p.2.inserted) cache.ttl = false) :
    ∀ q ∈ cache.entries, isExpired (now - q.2.inserted) cache.ttl = false := by
  have hroom : (RedirectCache.new ttl maxEntries).seq + ops.countP CacheOp.isPut < 2 ^ 64 := by
    change 0 + _ < _
    rwa [Nat.zero_add]
  obtain ⟨-, sorted, hsorted, -, hafter⟩ := (RedirectCache.orderedBy_new ttl maxEntries).run hrun hroom
  have hstart : (0 :: (ops.filterMap CacheOp.time ++ [now])).Pairwise (· ≤ ·) :=
    List.pairwise_cons.mpr ⟨fun _ _ ↦ Nat.zero_le _, hclock⟩
  have hempty : Timeline (RedirectCache.hintList (RedirectCache.new ttl maxEntries) []).putTimes 0 :=
    timeline_nil 0
  have htimes := HintList.after_timeline hempty hstart
  rw [hafter] at htimes
  have hrising : sorted.Pairwise fun q q' ↦ q.2.inserted ≤ q'.2.inserted := by
    have hsame : (RedirectCache.hintList cache sorted).putTimes =
        sorted.map fun q ↦ q.2.inserted := by
      simp [HintList.putTimes, RedirectCache.hintList, RedirectCache.hintOf, Function.comp_def]
    have hpairwise := htimes.sorted
    rwa [hsame, List.pairwise_map] at hpairwise
  obtain ⟨rest, rfl⟩ := hsorted.evicted_head (hsorted.perm.mem_iff.mpr hp) hevicted
  intro q hq
  -- every other hint was put later than the evicted one
  have hlater : p.2.inserted ≤ q.2.inserted := by
    rcases List.mem_cons.mp (hsorted.perm.mem_iff.mpr hq) with rfl | hrest
    · exact Nat.le_refl _
    · exact (List.pairwise_cons.mp hrising).1 q hrest
  exact isExpired_mono (Nat.sub_le_sub_left hlater now) hfresh

/-- Two hints in a cache with two places and a lifetime of 100. -/
def twoHints : RedirectCache :=
  ⟨[("d1", ⟨⟨"a", 6667⟩, 0, 1⟩), ("d2", ⟨⟨"b", 6667⟩, 5, 2⟩)], 100, 2, 2⟩

def twoPuts : List CacheOp := [.put "d1" ⟨"a", 6667⟩ 0, .put "d2" ⟨"b", 6667⟩ 5]

theorem fresh_hint_never_sacrificed_two :
    ∃ answers, RedirectCache.Run (RedirectCache.new 100 2) twoPuts answers twoHints ∧
      (twoHints.put "d3" ⟨"c", 6667⟩ 50).entries.map Prod.fst = ["d2", "d3"] ∧
      ∀ q ∈ twoHints.entries, isExpired (50 - q.2.inserted) twoHints.ttl = false := by
  have hrun : RedirectCache.Run (RedirectCache.new 100 2) twoPuts _ twoHints :=
    .call (.call (.done _))
  have hevicted : "d1" ∉ (twoHints.put "d3" ⟨"c", 6667⟩ 50).entries.map Prod.fst := by
    decide +kernel
  have hmem : ("d1", (⟨⟨"a", 6667⟩, 0, 1⟩ : RedirectEntry)) ∈ twoHints.entries := by decide
  have hfresh := fresh_hint_never_sacrificed (by decide) hrun (by decide) hmem hevicted (by decide)
  exact ⟨_, hrun, by decide +kernel, hfresh⟩

/-! ## When the counter wraps -/

namespace RedirectCache

/-- One device, put `n + 1` times at the start of the clock. -/
theorem run_refreshes (n : Nat) (hn : n + 1 < 2 ^ 64) :
    ∃ ops answers, Run (new 100 2) ops answers ⟨[("d1", ⟨⟨"a", 6667⟩, 0, n + 1⟩)], 100, 2, n + 1⟩ ∧
      ∀ time ∈ ops.filterMap CacheOp.time, time = 0 := by
  induction n with
  | zero => exact ⟨[.put "d1" ⟨"a", 6667⟩ 0], _, .call (.done _), by simp [CacheOp.time]⟩
  | succ n ih =>
      obtain ⟨ops, answers, hrun, htimes⟩ := ih (by omega)
      have hput : (call ⟨[("d1", ⟨⟨"a", 6667⟩, 0, n + 1⟩)], 100, 2, n + 1⟩
          (.put "d1" ⟨"a", 6667⟩ 0)).2 =
          ⟨[("d1", ⟨⟨"a", 6667⟩, 0, n + 1 + 1⟩)], 100, 2, n + 1 + 1⟩ := by
        simp only [call]
        rw [put_cases (by simp), Nat.mod_eq_of_lt hn]
        simp [remove]
      have hnext := hrun.snoc (.put "d1" ⟨"a", 6667⟩ 0)
      rw [hput] at hnext
      refine ⟨_, _, hnext, ?_⟩
      intro time htime
      rw [List.filterMap_append, List.mem_append] at htime
      rcases htime with htime | htime
      · exact htimes time htime
      · simpa [CacheOp.time] using htime

end RedirectCache

/-- The put number `2 ^ 64` takes the counter back to zero: its hint is evicted next, while another
one has expired. -/
theorem fresh_hint_sacrificed_at_wrap :
    ∃ ops answers cache p q,
      RedirectCache.Run (RedirectCache.new 100 2) ops answers cache ∧
      (ops.filterMap CacheOp.time ++ [200]).Pairwise (· ≤ ·) ∧ p ∈ cache.entries ∧
      p.1 ∉ (cache.put "d3" ⟨"c", 6667⟩ 200).entries.map Prod.fst ∧
      isExpired (200 - p.2.inserted) cache.ttl = false ∧ q ∈ cache.entries ∧
      isExpired (200 - q.2.inserted) cache.ttl = true := by
  obtain ⟨ops, answers, hrun, htimes⟩ := RedirectCache.run_refreshes (2 ^ 64 - 3) (by decide)
  have hwrapped := (hrun.snoc (.put "d2" ⟨"b", 6667⟩ 0)).snoc (.put "d1" ⟨"a", 6667⟩ 200)
  have hcache : (RedirectCache.call (RedirectCache.call
      ⟨[("d1", ⟨⟨"a", 6667⟩, 0, 2 ^ 64 - 3 + 1⟩)], 100, 2, 2 ^ 64 - 3 + 1⟩
        (.put "d2" ⟨"b", 6667⟩ 0)).2 (.put "d1" ⟨"a", 6667⟩ 200)).2 =
      ⟨[("d2", ⟨⟨"b", 6667⟩, 0, 2 ^ 64 - 1⟩), ("d1", ⟨⟨"a", 6667⟩, 200, 0⟩)], 100, 2, 0⟩ := by
    decide +kernel
  rw [hcache] at hwrapped
  refine ⟨_, _, _, ("d1", ⟨⟨"a", 6667⟩, 200, 0⟩), ("d2", ⟨⟨"b", 6667⟩, 0, 2 ^ 64 - 1⟩), hwrapped, ?_,
    by decide +kernel, by decide +kernel, by decide +kernel, by decide +kernel, by decide +kernel⟩
  have hstart : (ops.filterMap CacheOp.time).Pairwise (· ≤ ·) := by
    rw [List.pairwise_iff_forall_sublist]
    intro time later hsub
    have htime := htimes time (hsub.subset (by simp))
    omega
  simp only [List.filterMap_append, List.append_assoc, List.pairwise_append]
  refine ⟨hstart, by simp [CacheOp.time], ?_⟩
  intro time htime later _
  rw [htimes time htime]
  exact Nat.zero_le later

end IotdbClient
