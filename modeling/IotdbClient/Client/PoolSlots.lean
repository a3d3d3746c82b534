import IotdbClient.Client.PoolSpec

/-!
# Slot accounting

Every unit of `live` is an idle session, a guard, or a slot that some operation owns.  The weights
say how many an operation owns in each phase; a step moves units around and changes `live` by what
it takes from or adds to them.
-/

namespace IotdbClient

open Library

namespace Phase

@[simp] def lock (phase : Phase) : Nat := if phase.holdsLock then 1 else 0

/-- Units of `live` that the operation answers for. -/
@[simp] def slots : Phase → Nat
  | openReadDatabase | openSession _ | handOut _ | handOutUse _ _ => 1
  | freeSlot _ | dropDead _ | releaseLock _ | releaseClosed _ => 1
  | sweep _ _ _ expired | sweepCount _ expired => expired.length
  | closeDrain drained => drained.length
  | _ => 0

@[simp] def guards : Phase → Nat
  | held _ => 1
  | _ => 0

/-- The capacity test has passed and the slot is not counted yet. -/
@[simp] def growing : Phase → Nat
  | growSlot => 1
  | _ => 0

/-- What the next step subtracts from `live`, in a `fetch_sub` or in the test of the sweep. -/
@[simp] def subtracts : Phase → Nat
  | dropDead _ | freeSlot _ | releaseClosed _ => 1
  | sweep _ _ _ expired | sweepCount _ expired => expired.length
  | closeDrain drained => drained.length
  | _ => 0

/-- Nothing of the operation is left to do but for its user to drop the guard. -/
@[simp] def atRest : Phase → Bool
  | held _ | done _ => true
  | _ => false

theorem subtracts_le_slots (phase : Phase) : phase.subtracts ≤ phase.slots := by
  cases phase <;> simp

theorem lock_le_one (phase : Phase) : phase.lock ≤ 1 := by
  unfold lock
  split <;> omega

theorem slots_wake (phase : Phase) : phase.wake.slots = phase.slots := by cases phase <;> rfl

theorem guards_wake (phase : Phase) : phase.wake.guards = phase.guards := by cases phase <;> rfl

theorem lock_wake (phase : Phase) : phase.wake.lock = phase.lock := by cases phase <;> rfl

theorem growing_wake (phase : Phase) : phase.wake.growing = phase.growing := by cases phase <;> rfl

end Phase

theorem fetchSub_of_le {live n : Nat} (hn : n ≤ live) (hlive : live < 2 ^ 64) :
    fetchSub live n = live - n := by
  unfold fetchSub
  rw [show live + 2 ^ 64 - n = live - n + 2 ^ 64 by omega, Nat.add_mod_right]
  exact Nat.mod_eq_of_lt (by omega)

theorem fetchAdd_of_lt {live n : Nat} (h : live + n < 2 ^ 64) : fetchAdd live n = live + n :=
  Nat.mod_eq_of_lt h

namespace SessionPool

variable {server : Server} {free : Bool} {pool pool' : SessionPool} {world world' : World}
  {phase phase' : Phase}

/-- A picked session leaves the queue. -/
theorem pickForDevice_length {deviceId : String} {now : Nat} {picked : Option Session}
    {idle : List IdleEntry} (h : pool.pickForDevice deviceId now = (picked, idle)) :
    idle.length + picked.toList.length = pool.idle.length := by
  obtain ⟨looked, hlooked, ⟨rfl, rfl⟩ | ⟨front, target, back, rfl, rfl, rfl⟩⟩ := pickForDevice_cases h
  · exact hlooked.length_eq.symm
  · rw [hlooked.length_eq]
    simp
    omega

theorem advances_config (h : Advances server free pool world phase phase' pool' world') :
    pool'.config = pool.config := by
  cases h <;> rfl

/-- The lock is only taken where it is free. -/
theorem advances_lock (h : Advances server free pool world phase phase' pool' world') :
    phase'.lock ≤ phase.lock ∨ free = true := by
  cases h with
  | acquireSweeps hfree | acquireEnters hfree | releaseSweeps hfree => exact .inr hfree
  | expiredClosed =>
      left
      cases ‹Sweeper› <;> simp
  | sweepDone =>
      left
      cases ‹Sweeper› <;> simp
  | _ => simp

/-- Units of `live` are moved, not made: what `live` changes by is what the queue and the operation
change by. -/
theorem advances_slots (h : Advances server free pool world phase phase' pool' world')
    (howned : pool.idle.length + phase.slots + phase.guards ≤ pool.live)
    (hbound : pool.live + phase.growing < 2 ^ 64) :
    pool'.live + (pool.idle.length + phase.slots + phase.guards) =
      pool.live + (pool'.idle.length + phase'.slots + phase'.guards) := by
  cases h with
  | devicePicked _ hpick =>
      have hlength := pickForDevice_length hpick
      simp at hlength ⊢
      omega
  | devicePassed _ hpick =>
      have hlength := pickForDevice_length hpick
      simp at hlength ⊢
      omega
  | sweepDone => cases ‹Sweeper› <;> simp
  | expiredClosed => cases ‹Sweeper› <;> simp
  | sweepTakes hentry =>
      have hlt := (List.getElem?_eq_some_iff.mp hentry).1
      simp [List.length_eraseIdx, hlt]
      omega
  | swept | deadDropped | slotFreed | releasedClosed | drained =>
      simp only [Phase.slots, Phase.guards] at howned ⊢
      rw [fetchSub_of_le (by omega) (by omega)]
      omega
  | slotGrown =>
      simp only [Phase.growing] at hbound
      simp only [Phase.slots, Phase.guards]
      rw [fetchAdd_of_lt hbound]
      omega
  | popOpen hidle | popDead hidle => simp [hidle]
  | _ => simp

/-- A slot is only grown by the operation that tested the capacity, under the lock. -/
theorem advances_growing (h : Advances server free pool world phase phase' pool' world')
    (howned : phase.slots ≤ pool.live) (hbound : pool.live + phase.growing < 2 ^ 64) :
    pool'.live + phase'.growing ≤ pool.live + phase.growing ∨
      phase.lock = 1 ∧ pool'.live + phase'.growing ≤ pool.config.maxSize := by
  cases h with
  | capacityLeft hlive => exact .inr ⟨rfl, hlive⟩
  | sweepDone => cases ‹Sweeper› <;> simp
  | expiredClosed => cases ‹Sweeper› <;> simp
  | swept | deadDropped | slotFreed | releasedClosed | drained =>
      left
      simp only [Phase.slots, Phase.growing] at howned ⊢
      rw [fetchSub_of_le (by omega) (by omega)]
      omega
  | slotGrown =>
      simp only [Phase.growing] at hbound ⊢
      rw [fetchAdd_of_lt hbound]
      omega
  | _ => simp

end SessionPool

/-! ## The invariant -/

namespace PoolSystem

variable {server : Server} {s s' : PoolSystem} {action : PoolAction}

/-- Handed-out guards. -/
def guards (s : PoolSystem) : Nat := total Phase.guards s.ops

/-- Slots owned by operations in progress. -/
def slots (s : PoolSystem) : Nat := total Phase.slots s.ops

structure Accounted (config : SessionPoolConfig) (s : PoolSystem) : Prop where
  sameConfig : s.pool.config = config
  alone : total Phase.lock s.ops ≤ 1
  live : s.pool.live = s.pool.idle.length + s.slots + s.guards
  bound : s.pool.live + total Phase.growing s.ops ≤ config.maxSize

theorem lockFree_iff : s.lockFree = true ↔ total Phase.lock s.ops = 0 := by
  rw [lockFree, List.all_eq_true, total_eq_zero_iff]
  refine forall₂_congr fun phase _ ↦ ?_
  unfold Phase.lock
  cases phase.holdsLock <;> decide

theorem total_map_wake {f : Phase → Nat} (hf : ∀ phase, f phase.wake = f phase) (ops : List Phase) :
    total f (ops.map Phase.wake) = total f ops := by
  induction ops with
  | nil => rfl
  | cons phase rest ih => simp only [List.map_cons, total_cons, hf, ih]

variable {config : SessionPoolConfig}

theorem Accounted.advances {i : Nat} {phase phase' : Phase} {pool : SessionPool} {world : World}
    (hs : s.Accounted config) (hget : s.ops[i]? = some phase)
    (h : SessionPool.Advances server s.lockFree s.pool s.world phase phase' pool world) :
    Accounted config { s with pool := pool, world := world, ops := s.ops.set i phase' } := by
  have hmem := List.mem_of_getElem? hget
  have hslots := total_set Phase.slots hget phase'
  have hguards := total_set Phase.guards hget phase'
  have hlock := total_set Phase.lock hget phase'
  have hgrowing := total_set Phase.growing hget phase'
  have hslots_le := le_total Phase.slots hmem
  have hguards_le := le_total Phase.guards hmem
  have hgrowing_le := le_total Phase.growing hmem
  have hmax := config.maxSize_lt
  have hlive := hs.live
  have hbound := hs.bound
  have halone := hs.alone
  unfold slots guards at hlive
  have hmoved := SessionPool.advances_slots h (by omega) (by omega)
  constructor
  · exact (SessionPool.advances_config h).trans hs.sameConfig
  · -- one holder of the lock: this operation had it, or nobody had
    have hone := Phase.lock_le_one phase'
    rcases SessionPool.advances_lock h with hle | hfree
    · show total Phase.lock (s.ops.set i phase') ≤ 1
      omega
    · have hzero := lockFree_iff.mp hfree
      show total Phase.lock (s.ops.set i phase') ≤ 1
      omega
  · show pool.live = pool.idle.length + total Phase.slots (s.ops.set i phase') +
      total Phase.guards (s.ops.set i phase')
    omega
  · show pool.live + total Phase.growing (s.ops.set i phase') ≤ config.maxSize
    rcases SessionPool.advances_growing h (by omega) (by omega) with hle | ⟨hholds, hle⟩
    · omega
    · -- The operation holds the lock, so nobody else is growing.
      have honly : total Phase.growing s.ops = phase.growing := by
        refine total_of_alone halone hget (by omega) fun other hother ↦ ?_
        cases other <;> simp at hother ⊢
      rw [hs.sameConfig] at hle
      omega

/-- An operation moves on without touching the queue or `live`. -/
theorem Accounted.moves {i : Nat} {phase phase' : Phase} (hs : s.Accounted config)
    (hget : s.ops[i]? = some phase) (hops : s'.ops = s.ops.set i phase')
    (hconfig : s'.pool.config = s.pool.config) (hlive : s'.pool.live = s.pool.live)
    (hidle : s'.pool.idle = s.pool.idle) (hlock : phase'.lock ≤ phase.lock)
    (hunits : phase'.slots + phase'.guards = phase.slots + phase.guards)
    (hgrowing : phase'.growing = phase.growing) : s'.Accounted config := by
  have hslots' := total_set Phase.slots hget phase'
  have hguards' := total_set Phase.guards hget phase'
  have hlock' := total_set Phase.lock hget phase'
  have hgrowing' := total_set Phase.growing hget phase'
  have hlive' := hs.live
  have hbound := hs.bound
  have halone := hs.alone
  unfold slots guards at hlive'
  refine ⟨hconfig.trans hs.sameConfig, ?_, ?_, ?_⟩
  · rw [hops]
    omega
  · unfold slots guards
    rw [hops, hlive, hidle]
    omega
  · rw [hops, hlive]
    omega

/-- An operation that owns nothing ends. -/
theorem Accounted.ends {i : Nat} {phase : Phase} (hs : s.Accounted config)
    (hget : s.ops[i]? = some phase) (outcome : Option (Fault Error))
    (hunits : 0 = phase.slots + phase.guards) (hgrowing : 0 = phase.growing) :
    Accounted config { s with ops := s.ops.set i (.done outcome) } :=
  hs.moves hget rfl rfl rfl rfl (Nat.zero_le _) hunits hgrowing

theorem Accounted.step (hs : s.Accounted config) (h : Steps server s action s') :
    s'.Accounted config := by
  cases h with
  | acquires | acquiresForDevice | closes =>
      have hlive := hs.live
      unfold slots guards at hlive
      exact ⟨hs.sameConfig, by simpa using hs.alone, by simpa [slots, guards] using hlive,
        by simpa using hs.bound⟩
  | advances hget h => exact hs.advances hget h
  | notifiesNobody hget => exact hs.ends hget _ rfl rfl
  | notifiesAll hget =>
      have hdone := hs.ends hget none rfl rfl
      have halone := hdone.alone
      have hlive := hdone.live
      have hbound := hdone.bound
      unfold slots guards at hlive
      refine ⟨hdone.sameConfig, ?_, ?_, ?_⟩
      · rwa [total_map_wake Phase.lock_wake]
      · unfold slots guards
        rwa [total_map_wake Phase.slots_wake, total_map_wake Phase.guards_wake]
      · rwa [total_map_wake Phase.growing_wake]
  | wakesOne hget hparked =>
      exact (hs.ends hget _ rfl rfl).moves hparked rfl rfl rfl rfl (le_refl 0) rfl rfl
  | wakesUp hget => exact hs.moves hget rfl rfl rfl rfl (le_refl 0) rfl rfl
  | uses hget => exact hs.moves hget rfl rfl rfl rfl (le_refl 0) rfl rfl
  | dropsOpen hget => exact hs.moves hget rfl rfl rfl rfl (le_refl 0) rfl rfl
  | dropsDead hget => exact hs.moves hget rfl rfl rfl rfl (le_refl 0) rfl rfl
  | ticks => exact ⟨hs.sameConfig, hs.alone, hs.live, hs.bound⟩

theorem new_accounted {world : World} (hops : s.ops = [])
    (hnew : SessionPool.new server config world = (.ok s.pool, s.world)) : s.Accounted config := by
  unfold SessionPool.new at hnew
  split at hnew
  · cases hnew
  · rename_i hsizes
    have hmax := config.maxSize_lt
    have hfilled := SessionPool.fill_keeps server
      (I := fun n pool ↦ pool.config = config ∧ pool.live = pool.idle.length ∧
        pool.live + n ≤ config.maxSize) ?_ hnew ⟨rfl, rfl, by simpa using hsizes⟩
    · obtain ⟨hconfig, hlive, hbound⟩ := hfilled
      refine ⟨hconfig, ?_, ?_, ?_⟩ <;> simp only [slots, guards, hops, total_nil] <;> omega
    · rintro n pool world session world' ⟨hconfig, hlive, hbound⟩ -
      refine ⟨hconfig, ?_, ?_⟩ <;> simp only [List.length_append, List.length_singleton]
      · rw [fetchAdd_of_lt (by omega)]
        omega
      · rw [fetchAdd_of_lt (by omega)]
        omega

theorem reachable_accounted (h : (machine server config).Reachable s) : s.Accounted config :=
  h.invariant (fun _ hinit ↦ new_accounted hinit.1 hinit.2.2.choose_spec)
    fun _ _ _ hs _ hstep ↦ hs.step (step_spec hstep)

theorem slots_at_rest (hrest : ∀ phase ∈ s.ops, phase.atRest = true) : s.slots = 0 := by
  refine total_eq_zero_iff.mpr fun phase hphase ↦ ?_
  have hphase' := hrest phase hphase
  cases phase <;> simp at hphase' ⊢

/-- In every state that a pool accepted by `new` can reach, `live` counts the idle sessions, the
guards and the slots owned by operations in progress, stays within `max_size`, and nothing is ever
subtracted from it that it does not have. -/
theorem live_counts_every_slot (h : (machine server config).Reachable s) :
    s.pool.live = s.pool.idle.length + s.guards + s.slots ∧ s.pool.live ≤ config.maxSize ∧
      (∀ phase ∈ s.ops, phase.subtracts ≤ s.pool.live) ∧
      ((∀ phase ∈ s.ops, phase.atRest = true) →
        s.pool.liveCount = s.pool.idleCount + s.guards) := by
  have hs := reachable_accounted h
  have hlive := hs.live
  have hbound := hs.bound
  refine ⟨by omega, by omega, fun phase hphase ↦ ?_, fun hrest ↦ ?_⟩
  · have hslots := le_total Phase.slots hphase
    have hsubtracts := phase.subtracts_le_slots
    unfold slots at hlive
    omega
  · have hzero := slots_at_rest hrest
    show s.pool.live = s.pool.idle.length + s.guards
    omega

/-- A server that accepts everything and names the database of a `USE`. -/
def echoServer : Server where
  connect _ _ _ := none
  answer
    | n, _, .openSession _ => .ok ⟨.mk 200 none none none, some (.ofNat n)⟩
    | n, _, .requestStatementId _ => .ok (.ofNat n)
    | _, _, .executeUpdate req => .ok ⟨.mk 200 none none none, none, none, none, none, none, none,
        ["db1", "db2"].find? fun db ↦ req.statement == "USE " ++ db, none⟩
    | _, _, .closeSession _ => .ok (TSStatus.mk 200 none none none)
    | _, _, _ => .error "not scripted"

/-- The default configuration, with room for `maxSize` sessions. -/
def smallConfig (maxSize : Nat) (h : maxSize < 2 ^ 64) (database : Option String) :
    SessionPoolConfig :=
  { SessionPoolConfig.default with
    session := { SessionConfig.default with database := database }
    maxSize := maxSize
    maxSize_lt := h }

/-- A new pool that opens nothing in advance. -/
def fresh (config : SessionPoolConfig) : PoolSystem :=
  ⟨⟨config, [], false, 0, 0, config.session.database⟩, ⟨0, 0, 0⟩, [], config.session.database⟩

theorem fresh_reached (server : Server) (meets : PoolSystem → PoolAction → Bool) (maxSize : Nat)
    (h : maxSize < 2 ^ 64) (database : Option String) :
    (machine server (smallConfig maxSize h database)).ReachableBy (fun s a ↦ meets s a = true)
      (fresh (smallConfig maxSize h database)) :=
  .init ⟨rfl, rfl, ⟨0, 0, 0⟩, rfl⟩

/-- An `acquire` that grows the pool, as operation `i`. -/
def growing (i : Nat) : List PoolAction := .acquire :: List.replicate 8 (.advance i)

theorem live_counts_every_slot_grown :
    ∃ s, (machine echoServer (smallConfig 1 (by decide) none)).run Machine.anyStep (growing 0)
        (fresh (smallConfig 1 (by decide) none)) = some s ∧
      s.pool.live = 1 ∧ s.guards = 1 ∧ s.pool.live = s.pool.idle.length + s.guards + s.slots := by
  have hends : ((machine echoServer (smallConfig 1 (by decide) none)).run Machine.anyStep (growing 0)
      (fresh (smallConfig 1 (by decide) none))).any
      (fun s ↦ decide (s.pool.live = 1 ∧ s.guards = 1)) = true := by
    decide +kernel
  obtain ⟨s, hrun, hs⟩ := (Option.any_eq_true _ _).mp hends
  obtain ⟨hlive, hguards⟩ := of_decide_eq_true hs
  have hreached := (fresh_reached echoServer Machine.anyStep 1 _ none).run hrun
  exact ⟨s, hrun, hlive, hguards, (live_counts_every_slot hreached.reachable).1⟩

end PoolSystem

end IotdbClient
