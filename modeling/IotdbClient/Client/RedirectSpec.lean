import IotdbClient.Client.Redirect
import IotdbClient.Library.Keyed

/-!
# What the redirect cache is for

A bounded list of hints ordered by last put.  The cache does not store this order: it keeps a hash
map and a counter, and finds the oldest hint by its counter value.  The two agree on every answer
and on the size, whatever order the map iterates in.
-/

namespace IotdbClient

open Library

inductive CacheOp where
  | put (deviceId : String) (endpoint : Endpoint) (now : Nat)
  | getAt (deviceId : String) (now : Nat)
  | clear
deriving Repr, DecidableEq

def CacheOp.isPut : CacheOp → Bool
  | .put _ _ _ => true
  | _ => false

/-! ## The reference -/

structure Hint where
  deviceId : String
  endpoint : Endpoint
  putTime : Nat
deriving Repr, DecidableEq

/-- The hints in the order of their last put. -/
structure HintList where
  hints : List Hint
  ttl : Nat
  maxEntries : Nat
deriving Repr, DecidableEq

namespace HintList

def new (ttl maxEntries : Nat) : HintList := ⟨[], ttl, maxEntries⟩

def without (hints : List Hint) (deviceId : String) : List Hint :=
  hints.filter fun hint ↦ hint.deviceId != deviceId

def put (list : HintList) (deviceId : String) (endpoint : Endpoint) (now : Nat) : HintList :=
  if list.maxEntries = 0 then list
  else
    let kept :=
      if list.hints.any fun hint ↦ hint.deviceId == deviceId then without list.hints deviceId
      else if list.maxEntries ≤ list.hints.length then list.hints.tail
      else list.hints
    { list with hints := kept ++ [⟨deviceId, endpoint, now⟩] }

def get (list : HintList) (deviceId : String) (now : Nat) : Option Endpoint × HintList :=
  match list.hints.find? fun hint ↦ hint.deviceId == deviceId with
  | none => (none, list)
  | some hint =>
      if list.ttl ≠ 0 ∧ list.ttl < now - hint.putTime then
        (none, { list with hints := without list.hints deviceId })
      else (some hint.endpoint, list)

def clear (list : HintList) : HintList := { list with hints := [] }

def call (list : HintList) : CacheOp → Option Endpoint × HintList
  | .put deviceId endpoint now => (none, list.put deviceId endpoint now)
  | .getAt deviceId now => list.get deviceId now
  | .clear => (none, list.clear)

/-- The list after the calls. -/
def after (list : HintList) (ops : List CacheOp) : HintList :=
  ops.foldl (fun list op ↦ (list.call op).2) list

/-- The answer to each call and the size after it. -/
def answers (list : HintList) : List CacheOp → List (Option Endpoint × Nat)
  | [] => []
  | op :: ops => ((list.call op).1, (list.call op).2.hints.length) :: (list.call op).2.answers ops

end HintList

/-! ## Runs of the cache -/

namespace RedirectCache

def call (cache : RedirectCache) : CacheOp → Option Endpoint × RedirectCache
  | .put deviceId endpoint now => (none, cache.put deviceId endpoint now)
  | .getAt deviceId now => cache.getAt deviceId now
  | .clear => (none, cache.clear)

/-- A sequence of calls with the answer to each and the size after it.  Between two calls the hash
map may come to iterate in any other order. -/
inductive Run : RedirectCache → List CacheOp → List (Option Endpoint × Nat) → RedirectCache → Prop
  | done (cache : RedirectCache) : Run cache [] [] cache
  | reorder {cache last : RedirectCache} {entries : List (String × RedirectEntry)}
      {ops : List CacheOp} {answers : List (Option Endpoint × Nat)}
      (hperm : cache.entries.Perm entries)
      (hrest : Run { cache with entries := entries } ops answers last) : Run cache ops answers last
  | call {cache last : RedirectCache} {op : CacheOp} {ops : List CacheOp}
      {answers : List (Option Endpoint × Nat)} (hrest : Run (cache.call op).2 ops answers last) :
      Run cache (op :: ops) (((cache.call op).1, (cache.call op).2.entries.length) :: answers) last

theorem Run.snoc {cache last : RedirectCache} {ops : List CacheOp}
    {answers : List (Option Endpoint × Nat)} (hrun : Run cache ops answers last) (op : CacheOp) :
    Run cache (ops ++ [op]) (answers ++ [((last.call op).1, (last.call op).2.entries.length)])
      (last.call op).2 := by
  induction hrun with
  | done cache => exact .call (.done _)
  | reorder hperm _ ih => exact .reorder hperm ih
  | call _ ih => exact .call ih

/-! ## The order behind the counters -/

def hintOf (p : String × RedirectEntry) : Hint := ⟨p.1, p.2.endpoint, p.2.inserted⟩

/-- `sorted` lists the entries of the map by rising counter, all of them up to the cache's own. -/
structure OrderedBy (cache : RedirectCache) (sorted : List (String × RedirectEntry)) : Prop where
  perm : sorted.Perm cache.entries
  rising : sorted.Pairwise fun p q ↦ p.2.seq < q.2.seq
  below : ∀ p ∈ sorted, p.2.seq ≤ cache.seq
  distinct : DistinctKeys sorted
  bounded : sorted.length ≤ cache.maxEntries

/-- The reference list that a cache in this order stands for. -/
def hintList (cache : RedirectCache) (sorted : List (String × RedirectEntry)) : HintList :=
  ⟨sorted.map hintOf, cache.ttl, cache.maxEntries⟩

theorem orderedBy_new (ttl maxEntries : Nat) : OrderedBy (new ttl maxEntries) [] :=
  ⟨.refl _, .nil, by simp, List.nodup_nil, Nat.zero_le _⟩

theorem OrderedBy.lookup {cache : RedirectCache} {sorted : List (String × RedirectEntry)}
    (h : OrderedBy cache sorted) (deviceId : String) :
    cache.entries.lookup deviceId = sorted.lookup deviceId :=
  (h.distinct.lookup_perm h.perm deviceId).symm

theorem OrderedBy.eraseKey {cache : RedirectCache} {sorted : List (String × RedirectEntry)}
    (h : OrderedBy cache sorted) (deviceId : String) :
    OrderedBy { cache with entries := remove cache.entries deviceId }
      (Library.eraseKey sorted deviceId) where
  perm := h.perm.filter _
  rising := h.rising.filter _
  below := fun p hp ↦ h.below p (mem_eraseKey.mp hp).1
  distinct := h.distinct.eraseKey deviceId
  bounded := (List.length_filter_le _ _).trans h.bounded

theorem without_map_hintOf (sorted : List (String × RedirectEntry)) (deviceId : String) :
    HintList.without (sorted.map hintOf) deviceId = (Library.eraseKey sorted deviceId).map hintOf := by
  rw [HintList.without, List.filter_map]
  rfl

theorem find_map_hintOf (sorted : List (String × RedirectEntry)) (deviceId : String) :
    (sorted.map hintOf).find? (fun hint ↦ hint.deviceId == deviceId) =
      (sorted.lookup deviceId).map fun entry ↦ hintOf (deviceId, entry) := by
  induction sorted with
  | nil => rfl
  | cons p sorted ih =>
      obtain ⟨key, entry⟩ := p
      rw [List.map_cons, List.lookup_cons]
      by_cases hkey : deviceId = key
      · subst hkey
        rw [List.find?_cons_of_pos (by simp [hintOf]), beq_self_eq_true]
        rfl
      · rw [List.find?_cons_of_neg (by simpa [hintOf] using Ne.symm hkey), ih,
          beq_eq_false_iff_ne.mpr hkey]

/-- The smallest counter belongs to the head of the order. -/
theorem OrderedBy.oldest {cache : RedirectCache} {p : String × RedirectEntry}
    {rest : List (String × RedirectEntry)} (h : OrderedBy cache (p :: rest)) :
    oldest cache.entries = some p.1 := by
  rw [RedirectCache.oldest, argmin_of_forall_lt h.perm (List.pairwise_cons.mp h.rising).1]
  rfl

/-- A new entry takes the next counter value and goes to the end of the order. -/
theorem OrderedBy.push {cache : RedirectCache} {kept : List (String × RedirectEntry)}
    {deviceId : String} (h : OrderedBy cache kept) (hnew : ∀ p ∈ kept, p.1 ≠ deviceId)
    (hroom : kept.length < cache.maxEntries) (endpoint : Endpoint) (now : Nat) :
    OrderedBy { cache with
        entries := cache.entries ++ [(deviceId, ⟨endpoint, now, cache.seq + 1⟩)]
        seq := cache.seq + 1 }
      (kept ++ [(deviceId, ⟨endpoint, now, cache.seq + 1⟩)]) where
  perm := h.perm.append_right _
  rising := by
    rw [List.pairwise_append]
    refine ⟨h.rising, List.pairwise_singleton _ _, ?_⟩
    intro p hp q hq
    obtain rfl := List.mem_singleton.mp hq
    exact Nat.lt_succ_of_le (h.below p hp)
  below := by
    intro p hp
    rcases List.mem_append.mp hp with hp | hp
    · exact Nat.le_succ_of_le (h.below p hp)
    · obtain rfl := List.mem_singleton.mp hp
      exact Nat.le_refl _
  distinct := h.distinct.append hnew
  bounded := by
    rw [List.length_append, List.length_singleton]
    exact hroom

theorem OrderedBy.getAt {cache : RedirectCache} {sorted : List (String × RedirectEntry)}
    (h : OrderedBy cache sorted) (deviceId : String) (now : Nat) :
    ∃ sorted', OrderedBy (cache.getAt deviceId now).2 sorted' ∧
      (hintList cache sorted).get deviceId now =
        ((cache.getAt deviceId now).1, hintList (cache.getAt deviceId now).2 sorted') := by
  unfold RedirectCache.getAt HintList.get
  rw [show (hintList cache sorted).hints = sorted.map hintOf from rfl, find_map_hintOf,
    h.lookup deviceId]
  cases sorted.lookup deviceId with
  | none => exact ⟨sorted, h, rfl⟩
  | some entry =>
      by_cases hexpired : cache.ttl ≠ 0 ∧ cache.ttl < now - entry.inserted
      · have hflag : isExpired (now - entry.inserted) cache.ttl = true := by
          simpa [isExpired] using hexpired
        refine ⟨Library.eraseKey sorted deviceId, ?_, ?_⟩
        · simp only [hflag, if_true]
          exact h.eraseKey deviceId
        · simp only [hflag, if_true, Option.map_some]
          change (if cache.ttl ≠ 0 ∧ cache.ttl < now - entry.inserted then _ else _) = _
          rw [if_pos hexpired, without_map_hintOf]
          rfl
      · have hflag : isExpired (now - entry.inserted) cache.ttl = false := by
          simpa [isExpired] using hexpired
        refine ⟨sorted, ?_, ?_⟩
        · simp only [hflag, Bool.false_eq_true, if_false]
          exact h
        · simp only [hflag, Bool.false_eq_true, if_false, Option.map_some]
          change (if cache.ttl ≠ 0 ∧ cache.ttl < now - entry.inserted then _ else _) = _
          rw [if_neg hexpired]
          rfl

/-- Any key that the order does not hold is not in the map either. -/
theorem OrderedBy.remove_new {cache : RedirectCache} {sorted : List (String × RedirectEntry)}
    (h : OrderedBy cache sorted) {deviceId : String} (hnew : ∀ p ∈ sorted, p.1 ≠ deviceId) :
    remove cache.entries deviceId = cache.entries :=
  eraseKey_of_not_mem fun p hp ↦ hnew p (h.perm.mem_iff.mpr hp)

theorem any_map_hintOf (sorted : List (String × RedirectEntry)) (deviceId : String) :
    ((sorted.map hintOf).any fun hint ↦ hint.deviceId == deviceId) =
      (sorted.lookup deviceId).isSome := by
  have hfind := congrArg Option.isSome (find_map_hintOf sorted deviceId)
  rwa [Option.isSome_map, List.isSome_find?] at hfind

/-- The three ways a put can go: a refresh, an eviction, a free place. -/
theorem put_cases {cache : RedirectCache} (hzero : cache.maxEntries ≠ 0) (deviceId : String)
    (endpoint : Endpoint) (now : Nat) :
    cache.put deviceId endpoint now = { cache with
      entries := remove
        (if cache.maxEntries ≤ cache.entries.length ∧ cache.entries.lookup deviceId = none then
          match oldest cache.entries with
          | some key => remove cache.entries key
          | none => cache.entries
        else cache.entries) deviceId ++ [(deviceId, ⟨endpoint, now, (cache.seq + 1) % 2 ^ 64⟩)]
      seq := (cache.seq + 1) % 2 ^ 64 } := by
  unfold RedirectCache.put
  rw [if_neg hzero]
  by_cases hfull : cache.maxEntries ≤ cache.entries.length ∧ cache.entries.lookup deviceId = none
  · have hflag : (decide (cache.maxEntries ≤ cache.entries.length) &&
        (cache.entries.lookup deviceId).isNone) = true := by simpa using hfull
    rw [hflag, if_pos hfull]
    cases oldest cache.entries <;> rfl
  · have hflag : (decide (cache.maxEntries ≤ cache.entries.length) &&
        (cache.entries.lookup deviceId).isNone) = false := by simpa using hfull
    rw [hflag, if_neg hfull]

/-- What a put keeps of the order: all but the device itself, or all but the head of a full list. -/
def keptBy (cache : RedirectCache) (sorted : List (String × RedirectEntry)) (deviceId : String) :
    List (String × RedirectEntry) :=
  if (sorted.lookup deviceId).isSome then Library.eraseKey sorted deviceId
  else if cache.maxEntries ≤ sorted.length then sorted.tail
  else sorted

theorem hintList_put {cache : RedirectCache} (hzero : cache.maxEntries ≠ 0)
    (sorted : List (String × RedirectEntry)) (deviceId : String) (endpoint : Endpoint) (now : Nat) :
    (hintList cache sorted).put deviceId endpoint now =
      ⟨(keptBy cache sorted deviceId).map hintOf ++ [⟨deviceId, endpoint, now⟩], cache.ttl,
        cache.maxEntries⟩ := by
  have hput : (hintList cache sorted).put deviceId endpoint now =
      ⟨(if (sorted.map hintOf).any fun hint ↦ hint.deviceId == deviceId then
          HintList.without (sorted.map hintOf) deviceId
        else if cache.maxEntries ≤ (sorted.map hintOf).length then (sorted.map hintOf).tail
        else sorted.map hintOf) ++ [⟨deviceId, endpoint, now⟩], cache.ttl, cache.maxEntries⟩ :=
    if_neg hzero
  rw [hput, any_map_hintOf, without_map_hintOf, List.length_map, ← List.map_tail, keptBy]
  split
  · rfl
  · split <;> rfl

/-- The map after the eviction, without the device, is ordered by what is kept. -/
theorem OrderedBy.kept {cache : RedirectCache} {sorted : List (String × RedirectEntry)}
    (h : OrderedBy cache sorted) (hzero : cache.maxEntries ≠ 0) (deviceId : String) :
    OrderedBy { cache with
        entries := remove
          (if cache.maxEntries ≤ cache.entries.length ∧ cache.entries.lookup deviceId = none then
            match RedirectCache.oldest cache.entries with
            | some key => remove cache.entries key
            | none => cache.entries
          else cache.entries) deviceId }
        (keptBy cache sorted deviceId) ∧
      (∀ p ∈ keptBy cache sorted deviceId, p.1 ≠ deviceId) ∧
      (keptBy cache sorted deviceId).length < cache.maxEntries := by
  unfold keptBy
  rw [h.lookup deviceId, ← h.perm.length_eq]
  cases hlookup : sorted.lookup deviceId with
  | some entry =>
      -- a refresh: the device leaves its place
      rw [if_neg (by simp), Option.isSome_some, if_pos rfl]
      refine ⟨h.eraseKey deviceId, fun p hp ↦ (mem_eraseKey.mp hp).2, ?_⟩
      have hmem := h.distinct.lookup_eq_some.mp hlookup
      have hless : (Library.eraseKey sorted deviceId).length < sorted.length :=
        List.length_filter_lt_length_iff_exists.mpr ⟨_, hmem, by simp⟩
      exact hless.trans_le h.bounded
  | none =>
      have hnew := lookup_eq_none.mp hlookup
      simp only [and_true, Option.isSome_none, Bool.false_eq_true, if_false]
      by_cases hfull : cache.maxEntries ≤ sorted.length
      · rw [if_pos hfull, if_pos hfull]
        cases sorted with
        | nil => exact (hzero (Nat.le_zero.mp hfull)).elim
        | cons p rest =>
            have hrest := h.eraseKey p.1
            rw [h.distinct.eraseKey_head] at hrest
            have hnew' : ∀ q ∈ rest, q.1 ≠ deviceId := fun q hq ↦
              hnew q (List.mem_cons_of_mem p hq)
            simp only [h.oldest, hrest.remove_new hnew', List.tail_cons]
            refine ⟨hrest, hnew', ?_⟩
            have hbound := h.bounded
            rw [List.length_cons] at hbound
            omega
      · rw [if_neg hfull, if_neg hfull, h.remove_new hnew]
        exact ⟨h, hnew, by omega⟩

/-- The order after a put: what it keeps, then the new entry. -/
theorem OrderedBy.put_kept {cache : RedirectCache} {sorted : List (String × RedirectEntry)}
    (h : OrderedBy cache sorted) (hzero : cache.maxEntries ≠ 0) (hseq : cache.seq + 1 < 2 ^ 64)
    (deviceId : String) (endpoint : Endpoint) (now : Nat) :
    OrderedBy (cache.put deviceId endpoint now)
      (keptBy cache sorted deviceId ++ [(deviceId, ⟨endpoint, now, cache.seq + 1⟩)]) := by
  obtain ⟨hkept, hnew, hroom⟩ := h.kept hzero deviceId
  rw [put_cases hzero, Nat.mod_eq_of_lt hseq]
  exact hkept.push hnew hroom endpoint now

theorem put_of_disabled {cache : RedirectCache} (hzero : cache.maxEntries = 0) (deviceId : String)
    (endpoint : Endpoint) (now : Nat) : cache.put deviceId endpoint now = cache :=
  if_pos hzero

theorem OrderedBy.put {cache : RedirectCache} {sorted : List (String × RedirectEntry)}
    (h : OrderedBy cache sorted) (hseq : cache.seq + 1 < 2 ^ 64) (deviceId : String)
    (endpoint : Endpoint) (now : Nat) :
    ∃ sorted', OrderedBy (cache.put deviceId endpoint now) sorted' ∧
      (hintList cache sorted).put deviceId endpoint now =
        hintList (cache.put deviceId endpoint now) sorted' := by
  by_cases hzero : cache.maxEntries = 0
  · have href : (hintList cache sorted).put deviceId endpoint now = hintList cache sorted :=
      if_pos hzero
    rw [put_of_disabled hzero, href]
    exact ⟨sorted, h, rfl⟩
  · refine ⟨_, h.put_kept hzero hseq deviceId endpoint now, ?_⟩
    rw [put_cases hzero, Nat.mod_eq_of_lt hseq, hintList_put hzero]
    simp [hintList, hintOf]

theorem put_seq_le (cache : RedirectCache) (deviceId : String) (endpoint : Endpoint) (now : Nat) :
    (cache.put deviceId endpoint now).seq ≤ cache.seq + 1 := by
  unfold RedirectCache.put
  split
  · exact Nat.le_succ _
  · exact Nat.mod_le _ _

theorem getAt_seq (cache : RedirectCache) (deviceId : String) (now : Nat) :
    (cache.getAt deviceId now).2.seq = cache.seq := by
  unfold RedirectCache.getAt
  split
  · rfl
  · split <;> rfl

theorem call_maxEntries (cache : RedirectCache) (op : CacheOp) :
    (cache.call op).2.maxEntries = cache.maxEntries := by
  cases op with
  | put deviceId endpoint now =>
      change (cache.put deviceId endpoint now).maxEntries = _
      unfold RedirectCache.put
      split <;> rfl
  | getAt deviceId now =>
      change (cache.getAt deviceId now).2.maxEntries = _
      unfold RedirectCache.getAt
      split
      · rfl
      · split <;> rfl
  | clear => rfl

/-- One call: the answers are equal and the caches still agree.  The counter has room for as many
puts as are still to come. -/
theorem OrderedBy.call {cache : RedirectCache} {sorted : List (String × RedirectEntry)}
    (h : OrderedBy cache sorted) (op : CacheOp) (ops : List CacheOp)
    (hputs : cache.seq + (op :: ops).countP CacheOp.isPut < 2 ^ 64) :
    (cache.call op).2.seq + ops.countP CacheOp.isPut < 2 ^ 64 ∧
      ∃ sorted', OrderedBy (cache.call op).2 sorted' ∧
        (hintList cache sorted).call op = ((cache.call op).1, hintList (cache.call op).2 sorted') := by
  cases op with
  | put deviceId endpoint now =>
      rw [List.countP_cons_of_pos rfl] at hputs
      have hseq := put_seq_le cache deviceId endpoint now
      obtain ⟨sorted', hsorted', href⟩ := h.put (by omega) deviceId endpoint now
      refine ⟨?_, sorted', hsorted', ?_⟩
      · change (cache.put deviceId endpoint now).seq + _ < _
        omega
      · exact congrArg (Prod.mk none) href
  | getAt deviceId now =>
      rw [List.countP_cons_of_neg (by simp [CacheOp.isPut])] at hputs
      refine ⟨?_, h.getAt deviceId now⟩
      change (cache.getAt deviceId now).2.seq + _ < _
      rwa [getAt_seq]
  | clear =>
      rw [List.countP_cons_of_neg (by simp [CacheOp.isPut])] at hputs
      exact ⟨hputs, [], ⟨.refl _, .nil, by simp, List.nodup_nil, Nat.zero_le _⟩, rfl⟩

/-- Whole runs, by induction on the run; a change of the iteration order leaves the order of the
counters as it is. -/
theorem OrderedBy.run {cache last : RedirectCache} {sorted : List (String × RedirectEntry)}
    {ops : List CacheOp} {answers : List (Option Endpoint × Nat)} (h : OrderedBy cache sorted)
    (hrun : Run cache ops answers last) (hputs : cache.seq + ops.countP CacheOp.isPut < 2 ^ 64) :
    answers = (hintList cache sorted).answers ops ∧ ∃ sorted', OrderedBy last sorted' ∧
      last.maxEntries = cache.maxEntries ∧
      (hintList cache sorted).after ops = hintList last sorted' := by
  induction hrun generalizing sorted with
  | done cache => exact ⟨rfl, sorted, h, rfl, rfl⟩
  | reorder hperm _ ih =>
      exact ih ⟨h.perm.trans hperm, h.rising, h.below, h.distinct, h.bounded⟩ hputs
  | @call cache last op ops answers _ ih =>
      obtain ⟨hleft, sorted', hsorted', href⟩ := h.call op ops hputs
      obtain ⟨hanswers, last', hlast, hmax, hafter⟩ := ih hsorted' hleft
      have hsize : (hintList (cache.call op).2 sorted').hints.length =
          (cache.call op).2.entries.length := by
        change (sorted'.map hintOf).length = _
        rw [List.length_map, hsorted'.perm.length_eq]
      refine ⟨?_, last', hlast, hmax.trans (call_maxEntries cache op), ?_⟩
      · rw [HintList.answers, href, hsize, hanswers]
      · rw [← hafter, HintList.after, List.foldl_cons, href]
        rfl

end RedirectCache

/-- Every answer and every size of the cache is that of the reference list. -/
theorem redirectCache_refines_hintList (ttl maxEntries : Nat) (ops : List CacheOp)
    (answers : List (Option Endpoint × Nat)) (cache : RedirectCache)
    (hputs : ops.countP CacheOp.isPut < 2 ^ 64)
    (hrun : RedirectCache.Run (RedirectCache.new ttl maxEntries) ops answers cache) :
    answers = (HintList.new ttl maxEntries).answers ops ∧ cache.entries.length ≤ maxEntries ∧
      (cache.entries.map Prod.fst).Nodup := by
  have hnew := RedirectCache.orderedBy_new ttl maxEntries
  obtain ⟨hanswers, sorted, hsorted, hmax, -⟩ := hnew.run hrun (by
    change 0 + _ < _
    rwa [Nat.zero_add])
  have hbound := hsorted.bounded
  rw [hmax, hsorted.perm.length_eq] at hbound
  exact ⟨hanswers, hbound, hsorted.distinct.perm hsorted.perm⟩

def sampleOps : List CacheOp :=
  [.put "d1" ⟨"a", 6667⟩ 0, .put "d2" ⟨"b", 6667⟩ 5, .put "d1" ⟨"c", 6667⟩ 7, .getAt "d2" 50,
    .put "d3" ⟨"d", 6667⟩ 60, .getAt "d2" 61, .getAt "d1" 200]

/-- Two places, a lifetime of 100: the refresh of `d1` makes `d2` the oldest hint, so `d3` takes its
place; later `d1` has expired. -/
theorem redirectCache_refines_hintList_sample :
    ∃ answers cache, sampleOps.countP CacheOp.isPut < 2 ^ 64 ∧
      RedirectCache.Run (RedirectCache.new 100 2) sampleOps answers cache ∧
      answers = (HintList.new 100 2).answers sampleOps ∧
      answers.map Prod.fst = [none, none, none, some ⟨"b", 6667⟩, none, none, none] ∧
      cache.entries.length ≤ 2 := by
  have hrun : RedirectCache.Run (RedirectCache.new 100 2) sampleOps _ _ :=
    .call (.call (.call (.call (.call (.call (.call (.done _)))))))
  have hputs : sampleOps.countP CacheOp.isPut < 2 ^ 64 := by decide
  have h := redirectCache_refines_hintList 100 2 sampleOps _ _ hputs hrun
  refine ⟨_, _, hputs, hrun, h.1, ?_, h.2.1⟩
  rw [h.1]
  decide

end IotdbClient
