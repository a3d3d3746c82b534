import IotdbClient.Client.PoolSlots

/-!
# Waiters and wakeups

A waiter must not sleep while a session is idle or a slot is free.  What is available is announced:
by a notification still to come, or by an acquire that has yet to look.  The invariant compares the
two.  It breaks in one place: `live` is also decremented without the lock, and the notification that
follows can fall between the capacity test of an acquire and its park, where it wakes nobody.
-/

namespace IotdbClient

open Library

namespace Phase

/-- The acquire has found nothing: it is parked, or about to be. -/
@[simp] def waiting : Phase → Nat
  | atCapacity _ | parked _ => 1
  | _ => 0

/-- The idle queue was found empty under the lock still held. -/
@[simp] def emptied : Phase → Nat
  | testCapacity _ | atCapacity _ => 1
  | _ => 0

/-- A `notify_one` is to come. -/
@[simp] def notifies : Phase → Nat
  | sweep .release _ _ _ | sweepCount .release _ | closeExpired .release _ => 1
  | notifyOne _ | closeReleased _ => 1
  | _ => 0

/-- The acquire is yet to look for a session or a slot, or to take the slot it found. -/
@[simp] def looks : Phase → Nat
  | acquireLock _ | popIdle _ | dropDead _ | testCapacity _ | growSlot => 1
  | sweep (.acquire _) _ _ _ | sweepCount (.acquire _) _ | closeExpired (.acquire _) _ => 1
  | _ => 0

/-- Units taken from the queue that are about to become free slots, under the lock. -/
@[simp] def freeing : Phase → Nat
  | sweep _ _ _ expired | sweepCount _ expired => expired.length
  | dropDead _ => 1
  | _ => 0

/-- The `notify_all` of a `close` is to come. -/
@[simp] def closing : Phase → Nat
  | closeDrain _ | closeSessions _ | notifyAll => 1
  | _ => 0

@[simp] def isNotifyOne : Phase → Bool
  | notifyOne _ => true
  | _ => false

@[simp] def isAtCapacity : Phase → Bool
  | atCapacity _ => true
  | _ => false

/-- Parked, or nothing left to do but for the user to drop the guard. -/
@[simp] def quiet : Phase → Bool
  | parked _ | held _ | done _ => true
  | _ => false

theorem emptied_le_lock (phase : Phase) : phase.emptied ≤ phase.lock := by cases phase <;> simp

theorem lock_of_freeing (phase : Phase) (h : 0 < phase.freeing) : 0 < phase.lock := by
  cases phase <;> simp at h ⊢

theorem lock_of_emptied (phase : Phase) (h : 0 < phase.emptied) : 0 < phase.lock :=
  Nat.lt_of_lt_of_le h phase.emptied_le_lock

end Phase

namespace SessionPool

variable {server : Server} {free : Bool} {pool pool' : SessionPool} {world world' : World}
  {phase phase' : Phase}

/-- Idle sessions and free slots. -/
def available (pool : SessionPool) : Nat := pool.idle.length + (pool.config.maxSize - pool.live)

/-- Nobody enters a locked section of a closed pool, and `close` needs the lock. -/
theorem advances_closed (h : Advances server free pool world phase phase' pool' world') :
    (pool'.closed = pool.closed ∧ phase'.closing = phase.closing ∧
      (phase'.lock ≤ phase.lock ∨ pool.closed = false) ∧
      (phase'.waiting ≤ phase.waiting ∨ phase.lock = 1)) ∨
    (pool'.closed = true ∧ free = true ∧ phase'.lock = 0 ∧ phase'.closing = 1) := by
  cases h with
  | closes hfree => exact .inr ⟨rfl, hfree, rfl, rfl⟩
  | acquireEnters _ hclosed | acquireSweeps _ hclosed | releaseSweeps _ hclosed =>
      exact .inl ⟨rfl, rfl, .inr hclosed, .inl (le_refl 0)⟩
  | sweepDone | expiredClosed => cases ‹Sweeper› <;> simp
  | _ => simp

/-- The queue changes under the lock only. -/
theorem advances_emptied (h : Advances server free pool world phase phase' pool' world')
    (hphase : 0 < phase.emptied → pool.idle = []) :
    (0 < phase'.emptied → pool'.idle = []) ∧
      (pool'.idle = pool.idle ∨ free = true ∨ phase.lock = 1) := by
  cases h with
  | popEmpty hidle => exact ⟨fun _ ↦ hidle, .inl rfl⟩
  | capacityFull => exact ⟨fun _ ↦ hphase Nat.one_pos, .inl rfl⟩
  | devicePicked hfree | devicePassed hfree | released hfree | releaseSweeps hfree | closes hfree =>
      exact ⟨fun hpos ↦ absurd hpos (by simp), .inr (.inl hfree)⟩
  | sweepDone | expiredClosed => cases ‹Sweeper› <;> simp
  | _ => simp

/-- What becomes available in a step is announced in it, or the step is the capacity test. -/
theorem advances_covered (h : Advances server free pool world phase phase' pool' world')
    (hclosing : phase.closing = 0) (howned : pool.idle.length + phase.slots ≤ pool.live)
    (hbound : pool.live + phase.growing ≤ pool.config.maxSize) :
    (phase'.waiting ≤ phase.waiting ∧
      pool'.available + phase'.freeing + (phase.notifies + phase.looks) ≤
        pool.available + phase.freeing + (phase'.notifies + phase'.looks)) ∨
    (phase.emptied = 1 ∧ phase.freeing = 0 ∧ phase'.freeing = 0 ∧ pool' = pool ∧
      pool.config.maxSize ≤ pool.live) ∨
    pool'.closed = true := by
  have hmax := pool.config.maxSize_lt
  unfold available
  cases h with
  | capacityFull hlive => exact .inr (.inl ⟨rfl, rfl, rfl, rfl, hlive⟩)
  | closes => exact .inr (.inr rfl)
  | acquireClosed _ hclosed => exact .inr (.inr hclosed)
  | drained => cases hclosing
  | devicePicked _ hpick | devicePassed _ hpick =>
      left
      have hlength := pickForDevice_length hpick
      simp at hlength ⊢
      omega
  | sweepDone =>
      left
      cases ‹Sweeper› <;> simp
  | expiredClosed =>
      left
      cases ‹Sweeper› <;> simp
  | sweepTakes hentry =>
      left
      have hlt := (List.getElem?_eq_some_iff.mp hentry).1
      cases ‹Sweeper› <;> simp [List.length_eraseIdx, hlt] <;> omega
  | swept =>
      -- the sweep frees the slots it takes sessions out of, and notifies everybody later
      left
      cases ‹Sweeper› <;> simp only [Phase.slots] at howned <;> simp only [Phase.waiting,
        Phase.freeing, Phase.notifies, Phase.looks] <;>
        rw [fetchSub_of_le (by omega) (by omega)] <;> omega
  | deadDropped | slotFreed | releasedClosed =>
      left
      simp only [Phase.slots] at howned
      simp only [Phase.waiting, Phase.freeing, Phase.notifies, Phase.looks]
      rw [fetchSub_of_le (by omega) (by omega)]
      omega
  | slotGrown =>
      left
      simp only [Phase.growing] at hbound
      simp only [Phase.waiting, Phase.freeing, Phase.notifies, Phase.looks]
      rw [fetchAdd_of_lt (by omega)]
      omega
  | popOpen hidle | popDead hidle =>
      left
      simp [hidle]
  | sweepStops | sweepSkips =>
      left
      cases ‹Sweeper› <;> simp
  | released | releaseSweeps =>
      left
      simp
      omega
  | _ => simp

end SessionPool

/-! ## The invariant -/

namespace PoolSystem

variable {server : Server} {s s' : PoolSystem} {action : PoolAction} {config : SessionPoolConfig}

structure Awake (config : SessionPoolConfig) (s : PoolSystem) : Prop where
  accounted : s.Accounted config
  entered : 0 < total Phase.lock s.ops → s.pool.closed = false
  closing : 0 < total Phase.closing s.ops → s.pool.closed = true
  emptied : 0 < total Phase.emptied s.ops → s.pool.idle = []
  woken : s.pool.closed = true → 0 < total Phase.waiting s.ops → 0 < total Phase.closing s.ops
  covered : s.pool.closed = false → 0 < total Phase.waiting s.ops →
    s.pool.available + total Phase.freeing s.ops ≤ total Phase.notifies s.ops + total Phase.looks s.ops

/-- While an acquire stands between its test and its park, nothing is idle or about to be free. -/
theorem Awake.nothing_available {i : Nat} {phase : Phase} (hs : s.Awake config)
    (hget : s.ops[i]? = some phase) (hemptied : phase.emptied = 1) (hfreeing : phase.freeing = 0)
    (hfull : s.pool.config.maxSize ≤ s.pool.live) :
    s.pool.available + total Phase.freeing s.ops = 0 := by
  have hidle : s.pool.idle = [] := by
    apply hs.emptied
    have hle := le_total Phase.emptied (List.mem_of_getElem? hget)
    omega
  have hfreeing' : total Phase.freeing s.ops = phase.freeing :=
    total_of_alone hs.accounted.alone hget (phase.lock_of_emptied (by omega)) Phase.lock_of_freeing
  unfold SessionPool.available
  rw [hidle, List.length_nil]
  omega

theorem Awake.advances {i : Nat} {phase phase' : Phase} {pool : SessionPool} {world : World}
    (hs : s.Awake config) (hget : s.ops[i]? = some phase)
    (h : SessionPool.Advances server s.lockFree s.pool s.world phase phase' pool world) :
    Awake config { s with pool := pool, world := world, ops := s.ops.set i phase' } := by
  have hmem := List.mem_of_getElem? hget
  have hlock := total_set Phase.lock hget phase'
  have hclosing := total_set Phase.closing hget phase'
  have hemptied := total_set Phase.emptied hget phase'
  have hwaiting := total_set Phase.waiting hget phase'
  have hfreeing := total_set Phase.freeing hget phase'
  have hnotifies := total_set Phase.notifies hget phase'
  have hlooks := total_set Phase.looks hget phase'
  have hlock_le := le_total Phase.lock hmem
  have hclosing_le := le_total Phase.closing hmem
  have hemptied_le := le_total Phase.emptied hmem
  have hslots_le := le_total Phase.slots hmem
  have hgrowing_le := le_total Phase.growing hmem
  have hclosed := SessionPool.advances_closed h
  constructor
  · exact hs.accounted.advances hget h
  · -- whoever holds the lock entered an open pool
    intro hpos
    change 0 < total Phase.lock (s.ops.set i phase') at hpos
    rcases hclosed with ⟨hsame, -, hle | hopen, -⟩ | ⟨-, hfree, hnone, -⟩
    · exact hsame.trans (hs.entered (by omega))
    · exact hsame.trans hopen
    · have hzero := lockFree_iff.mp hfree
      omega
  · -- a close in progress has set the flag
    intro hpos
    change 0 < total Phase.closing (s.ops.set i phase') at hpos
    rcases hclosed with ⟨hsame, heq, -, -⟩ | ⟨hclosed, -, -, -⟩
    · exact hsame.trans (hs.closing (by omega))
    · exact hclosed
  · -- an acquire between its pop and its park has the queue empty
    intro hpos
    change 0 < total Phase.emptied (s.ops.set i phase') at hpos
    have hown : 0 < phase.emptied → s.pool.idle = [] := fun hp ↦ hs.emptied (by omega)
    obtain ⟨hnew, hsame | hfree | hholds⟩ := SessionPool.advances_emptied h hown
    all_goals by_cases hp : 0 < phase'.emptied
    all_goals first | exact hnew hp | skip
    · exact hsame.trans (hs.emptied (by omega))
    · -- With the lock free nobody has just emptied the queue.
      have hzero := lockFree_iff.mp hfree
      have hnone : total Phase.emptied s.ops = 0 := total_eq_zero_iff.mpr fun other hother ↦ by
        have hother' := total_eq_zero_iff.mp hzero other hother
        have hle := other.emptied_le_lock
        omega
      omega
    · have honly := total_of_alone hs.accounted.alone hget (by omega) Phase.lock_of_emptied
      omega
  · -- waiters of a closed pool have the notification of the close ahead of them
    intro hshut hpos
    change 0 < total Phase.waiting (s.ops.set i phase') at hpos
    change 0 < total Phase.closing (s.ops.set i phase')
    rcases hclosed with ⟨hsame, heq, -, hle | hholds⟩ | ⟨-, -, -, hnew⟩
    · have hold := hs.woken (hsame.symm.trans hshut) (by omega)
      omega
    · have hopen := hs.entered (by omega)
      rw [← hsame] at hopen
      change pool.closed = true at hshut
      rw [hopen] at hshut
      cases hshut
    · omega
  · -- everything available is announced, or looked for
    intro hopen hpos
    change pool.closed = false at hopen
    change 0 < total Phase.waiting (s.ops.set i phase') at hpos
    change pool.available + total Phase.freeing (s.ops.set i phase') ≤
      total Phase.notifies (s.ops.set i phase') + total Phase.looks (s.ops.set i phase')
    have hopen' : s.pool.closed = false := by
      rcases hclosed with ⟨hsame, -⟩ | ⟨hshut, -⟩
      · exact hsame.symm.trans hopen
      · rw [hopen] at hshut
        cases hshut
    -- the pool is open, so this is no step of a `close` that has set its flag
    have hunclosing : phase.closing = 0 := by
      by_contra hne
      have hshut := hs.closing (by omega)
      rw [hopen'] at hshut
      cases hshut
    have hlive := hs.accounted.live
    have hbound := hs.accounted.bound
    have hconfig := hs.accounted.sameConfig
    unfold slots at hlive
    rcases SessionPool.advances_covered h hunclosing (by omega) (by rw [hconfig]; omega) with
      ⟨hle, hcover⟩ | ⟨hfound, hnone, hnone', rfl, hfull⟩ | hshut
    · have hold := hs.covered hopen' (by omega)
      omega
    · have hzero := hs.nothing_available hget hfound hnone hfull
      omega
    · rw [hopen] at hshut
      cases hshut

/-- A step that leaves the queue and `closed` alone, and lets nobody into the lock or to sleep. -/
theorem Awake.of_totals (hs : s.Awake config) (haccounted : s'.Accounted config)
    (hclosed : s'.pool.closed = s.pool.closed) (hidle : s'.pool.idle = s.pool.idle)
    (hlock : total Phase.lock s'.ops ≤ total Phase.lock s.ops)
    (hclosing : total Phase.closing s'.ops = total Phase.closing s.ops)
    (hemptied : total Phase.emptied s'.ops ≤ total Phase.emptied s.ops)
    (hwaiting : total Phase.waiting s'.ops ≤ total Phase.waiting s.ops)
    (hcovered : s.pool.closed = false → 0 < total Phase.waiting s'.ops →
      s'.pool.available + total Phase.freeing s'.ops ≤
        total Phase.notifies s'.ops + total Phase.looks s'.ops) : s'.Awake config := by
  refine ⟨haccounted, ?_, ?_, ?_, ?_, ?_⟩
  · intro hpos
    exact hclosed.trans (hs.entered (by omega))
  · intro hpos
    exact hclosed.trans (hs.closing (by omega))
  · intro hpos
    exact hidle.trans (hs.emptied (by omega))
  · intro hshut hpos
    have hold := hs.woken (hclosed.symm.trans hshut) (by omega)
    omega
  · intro hopen hpos
    exact hcovered (hclosed.symm.trans hopen) hpos

/-- An operation moves on without touching the queue or `live`, and gives up no announcement. -/
theorem Awake.moves {i : Nat} {phase phase' : Phase} (hs : s.Awake config)
    (haccounted : s'.Accounted config) (hget : s.ops[i]? = some phase)
    (hops : s'.ops = s.ops.set i phase') (hclosed : s'.pool.closed = s.pool.closed)
    (hidle : s'.pool.idle = s.pool.idle) (havailable : s'.pool.available = s.pool.available)
    (hlock : phase'.lock = 0) (hclosing : phase'.closing = phase.closing)
    (hemptied : phase'.emptied = 0) (hwaiting : phase'.waiting = 0) (hfreeing : phase'.freeing = 0)
    (hannounced : phase.notifies + phase.looks ≤ phase'.notifies + phase'.looks) :
    s'.Awake config := by
  have hlock' := total_set Phase.lock hget phase'
  have hclosing' := total_set Phase.closing hget phase'
  have hemptied' := total_set Phase.emptied hget phase'
  have hwaiting' := total_set Phase.waiting hget phase'
  have hfreeing' := total_set Phase.freeing hget phase'
  have hnotifies' := total_set Phase.notifies hget phase'
  have hlooks' := total_set Phase.looks hget phase'
  apply hs.of_totals haccounted hclosed hidle <;> rw [hops]
  · omega
  · omega
  · omega
  · omega
  · intro hopen hpos
    have hold := hs.covered hopen (by omega)
    omega

/-- The step is a `notify_one` that finds nobody parked, while an acquire stands between its failed
capacity test and its park and a slot has become free. -/
def losesWakeup (s : PoolSystem) : PoolAction → Bool
  | .advance i => s.ops[i]?.any Phase.isNotifyOne && s.nobodyParked &&
      s.ops.any Phase.isAtCapacity && decide (s.pool.live < s.pool.config.maxSize)
  | _ => false

/-- Somebody waits and nobody is parked: an acquire is on its way from the test to the park. -/
theorem atCapacity_of_waiting (hnobody : s.nobodyParked = true)
    (hpos : 0 < total Phase.waiting s.ops) : ∃ deadline, Phase.atCapacity deadline ∈ s.ops := by
  obtain ⟨phase, hphase, hwaits⟩ := total_pos_iff.mp hpos
  have hunparked : phase.isParked = false := by
    simpa using List.all_eq_true.mp hnobody phase hphase
  have htested : ∃ deadline, phase = .atCapacity deadline := by
    cases phase <;> simp at hwaits hunparked ⊢
  obtain ⟨deadline, rfl⟩ := htested
  exact ⟨deadline, hphase⟩

theorem Awake.notifiesNobody {i : Nat} {outcome : Option (Fault Error)} (hs : s.Awake config)
    (haccounted : Accounted config { s with ops := s.ops.set i (.done outcome) })
    (hget : s.ops[i]? = some (.notifyOne outcome)) (hnobody : s.nobodyParked = true)
    (hkept : s.losesWakeup (.advance i) = false) :
    Awake config { s with ops := s.ops.set i (.done outcome) } := by
  have hlock : total Phase.lock (s.ops.set i (.done outcome)) = total Phase.lock s.ops :=
    total_set Phase.lock hget (.done outcome)
  have hclosing : total Phase.closing (s.ops.set i (.done outcome)) = total Phase.closing s.ops :=
    total_set Phase.closing hget (.done outcome)
  have hemptied : total Phase.emptied (s.ops.set i (.done outcome)) = total Phase.emptied s.ops :=
    total_set Phase.emptied hget (.done outcome)
  have hwaiting : total Phase.waiting (s.ops.set i (.done outcome)) = total Phase.waiting s.ops :=
    total_set Phase.waiting hget (.done outcome)
  have hfreeing : total Phase.freeing (s.ops.set i (.done outcome)) = total Phase.freeing s.ops :=
    total_set Phase.freeing hget (.done outcome)
  apply hs.of_totals haccounted rfl rfl hlock.le hclosing hemptied.le hwaiting.le
  intro _ hpos
  obtain ⟨deadline, htested⟩ := atCapacity_of_waiting hnobody (hwaiting ▸ hpos)
  have hfull : s.pool.config.maxSize ≤ s.pool.live := by
    by_contra hlt
    have hany : s.ops.any Phase.isAtCapacity = true := List.any_eq_true.mpr ⟨_, htested, rfl⟩
    simp [losesWakeup, hget, hnobody, hany, Nat.not_le.mp hlt] at hkept
  obtain ⟨j, hj⟩ := List.mem_iff_getElem?.mp htested
  have hzero := hs.nothing_available hj rfl rfl hfull
  show s.pool.available + total Phase.freeing (s.ops.set i (.done outcome)) ≤ _
  omega

theorem Awake.wakesOne {i j : Nat} {outcome : Option (Fault Error)} {deadline : Nat}
    (hs : s.Awake config)
    (haccounted : Accounted config
      { s with ops := (s.ops.set i (.done outcome)).set j (.acquireLock deadline) })
    (hget : s.ops[i]? = some (.notifyOne outcome))
    (hparked : (s.ops.set i (.done outcome))[j]? = some (.parked deadline)) :
    Awake config { s with ops := (s.ops.set i (.done outcome)).set j (.acquireLock deadline) } := by
  have hsum : ∀ f : Phase → Nat, total f ((s.ops.set i (.done outcome)).set j (.acquireLock deadline)) +
      f (.parked deadline) + f (.notifyOne outcome) =
        total f s.ops + f (.done outcome) + f (.acquireLock deadline) := by
    intro f
    have hdone := total_set f hget (.done outcome)
    have hwoken := total_set f hparked (.acquireLock deadline)
    omega
  have hwaiting := hsum Phase.waiting
  have hfreeing := hsum Phase.freeing
  have hnotifies := hsum Phase.notifies
  have hlooks := hsum Phase.looks
  simp only [Phase.waiting] at hwaiting
  simp only [Phase.freeing] at hfreeing
  simp only [Phase.notifies] at hnotifies
  simp only [Phase.looks] at hlooks
  apply hs.of_totals haccounted rfl rfl
  · exact (hsum Phase.lock).le
  · exact hsum Phase.closing
  · exact (hsum Phase.emptied).le
  · show total Phase.waiting ((s.ops.set i (.done outcome)).set j (.acquireLock deadline)) ≤ _
    omega
  · intro hopen hpos
    have hold := hs.covered hopen (by omega)
    show s.pool.available +
      total Phase.freeing ((s.ops.set i (.done outcome)).set j (.acquireLock deadline)) ≤
        total Phase.notifies ((s.ops.set i (.done outcome)).set j (.acquireLock deadline)) +
          total Phase.looks ((s.ops.set i (.done outcome)).set j (.acquireLock deadline))
    omega

/-- Nobody is left asleep: whoever was parked is awake, and no acquire has got past its test since
the pool was closed. -/
theorem Awake.notifiesAll {i : Nat} (hs : s.Awake config)
    (haccounted : Accounted config { s with ops := (s.ops.set i (.done none)).map Phase.wake })
    (hget : s.ops[i]? = some .notifyAll) :
    Awake config { s with ops := (s.ops.set i (.done none)).map Phase.wake } := by
  have hclosed : s.pool.closed = true := by
    apply hs.closing
    have hle := le_total Phase.closing (List.mem_of_getElem? hget)
    simp only [Phase.closing] at hle
    omega
  have hunlocked : total Phase.lock s.ops = 0 := by
    by_contra hne
    have hopen := hs.entered (Nat.pos_of_ne_zero hne)
    rw [hclosed] at hopen
    cases hopen
  have hdone : ∀ phase ∈ s.ops.set i (.done none), phase.lock = 0 :=
    forall_mem_set (total_eq_zero_iff.mp hunlocked) rfl
  have hafter : ∀ phase ∈ (s.ops.set i (.done none)).map Phase.wake,
      phase.lock = 0 ∧ phase.emptied = 0 ∧ phase.waiting = 0 := by
    intro phase hphase
    obtain ⟨before, hbefore, rfl⟩ := List.mem_map.mp hphase
    have hlock := hdone before hbefore
    cases before <;> simp at hlock ⊢
  have hlock := total_eq_zero_iff.mpr fun phase hphase ↦ (hafter phase hphase).1
  have hemptied := total_eq_zero_iff.mpr fun phase hphase ↦ (hafter phase hphase).2.1
  have hwaiting := total_eq_zero_iff.mpr fun phase hphase ↦ (hafter phase hphase).2.2
  refine ⟨haccounted, ?_, fun _ ↦ hclosed, ?_, ?_, ?_⟩
  · intro hpos
    exact absurd hlock (Nat.ne_of_gt hpos)
  · intro hpos
    exact absurd hemptied (Nat.ne_of_gt hpos)
  · intro _ hpos
    exact absurd hwaiting (Nat.ne_of_gt hpos)
  · intro _ hpos
    exact absurd hwaiting (Nat.ne_of_gt hpos)

theorem Awake.step (hs : s.Awake config) (h : Steps server s action s')
    (hkept : s.losesWakeup action = false) : s'.Awake config := by
  have haccounted := hs.accounted.step h
  cases h with
  | acquires | acquiresForDevice | closes =>
      apply hs.of_totals haccounted rfl rfl
      · simp
      · simp
      · simp
      · simp
      · intro hopen hpos
        have hold := hs.covered hopen (by simpa using hpos)
        simp
        omega
  | advances hget h => exact hs.advances hget h
  | notifiesNobody hget hnobody => exact hs.notifiesNobody haccounted hget hnobody hkept
  | notifiesAll hget => exact hs.notifiesAll haccounted hget
  | wakesOne hget hparked => exact hs.wakesOne haccounted hget hparked
  | wakesUp hget =>
      exact hs.moves haccounted hget rfl rfl rfl rfl rfl rfl rfl rfl rfl (Nat.zero_le 1)
  | uses hget => exact hs.moves haccounted hget rfl rfl rfl rfl rfl rfl rfl rfl rfl (le_refl 0)
  | dropsOpen hget => exact hs.moves haccounted hget rfl rfl rfl rfl rfl rfl rfl rfl rfl (le_refl 0)
  | dropsDead hget => exact hs.moves haccounted hget rfl rfl rfl rfl rfl rfl rfl rfl rfl (le_refl 0)
  | ticks => exact ⟨haccounted, hs.entered, hs.closing, hs.emptied, hs.woken, hs.covered⟩

/-- In every run in which no notification is lost between a capacity test and the park that follows,
whenever only parked acquires are left, the pool is open and has neither an idle session nor a free
slot. -/
theorem no_waiter_sleeps_beside_a_slot
    (h : (machine server config).ReachableBy (fun s a ↦ s.losesWakeup a = false) s)
    (hquiet : ∀ phase ∈ s.ops, phase.quiet = true) (hparked : ∃ phase ∈ s.ops, phase.isParked = true) :
    s.pool.closed = false ∧ s.pool.idle = [] ∧ config.maxSize ≤ s.pool.live := by
  have hs : s.Awake config := by
    refine h.invariant (fun s hinit ↦ ?_) fun s a t hs hkept hstep ↦ hs.step (step_spec hstep) hkept
    have hops : s.ops = [] := hinit.1
    refine ⟨new_accounted hops hinit.2.2.choose_spec, ?_, ?_, ?_, ?_, ?_⟩ <;> rw [hops] <;> simp
  -- At rest nothing is announced any more, so nothing can be available.
  have hnone : ∀ f : Phase → Nat, (∀ phase : Phase, phase.quiet = true → f phase = 0) →
      total f s.ops = 0 := fun f hf ↦
    total_eq_zero_iff.mpr fun phase hphase ↦ hf phase (hquiet phase hphase)
  have hclosing := hnone Phase.closing fun phase hphase ↦ by cases phase <;> simp at hphase ⊢
  have hnotifies := hnone Phase.notifies fun phase hphase ↦ by cases phase <;> simp at hphase ⊢
  have hlooks := hnone Phase.looks fun phase hphase ↦ by cases phase <;> simp at hphase ⊢
  have hwaiting : 0 < total Phase.waiting s.ops := by
    obtain ⟨phase, hphase, hpark⟩ := hparked
    refine total_pos_iff.mpr ⟨phase, hphase, ?_⟩
    cases phase <;> simp at hpark ⊢
  have hopen : s.pool.closed = false := by
    by_contra hshut
    have hpos := hs.woken (by simpa using hshut) hwaiting
    omega
  have hcovered := hs.covered hopen hwaiting
  have hconfig := hs.accounted.sameConfig
  unfold SessionPool.available at hcovered
  rw [hconfig] at hcovered
  refine ⟨hopen, ?_, by omega⟩
  exact List.eq_nil_of_length_eq_zero (by omega)

/-- One guard is out and a second acquire waits for it. -/
def waitingRun : List PoolAction := growing 0 ++ .acquire :: List.replicate 4 (.advance 1)

theorem no_waiter_sleeps_beside_a_slot_full :
    ∃ s, (machine echoServer (smallConfig 1 (by decide) none)).run (fun s a ↦ !s.losesWakeup a)
        waitingRun (fresh (smallConfig 1 (by decide) none)) = some s ∧
      s.ops.any Phase.isParked = true ∧ s.pool.idle = [] ∧ 1 ≤ s.pool.live := by
  have hends : ((machine echoServer (smallConfig 1 (by decide) none)).run
      (fun s a ↦ !s.losesWakeup a) waitingRun (fresh (smallConfig 1 (by decide) none))).any
      (fun s ↦ s.ops.all Phase.quiet && s.ops.any Phase.isParked) = true := by decide +kernel
  obtain ⟨s, hrun, hs⟩ := (Option.any_eq_true _ _).mp hends
  obtain ⟨hquiet, hparked⟩ := Bool.and_eq_true_iff.mp hs
  have hreached := (fresh_reached echoServer (fun s a ↦ !s.losesWakeup a) 1 _ none).run hrun
  have hkept := hreached.mono fun s a h ↦ show s.losesWakeup a = false by simpa using h
  have hresult := no_waiter_sleeps_beside_a_slot hkept (List.all_eq_true.mp hquiet)
    (List.any_eq_true.mp hparked)
  exact ⟨s, hrun, hparked, hresult.2⟩

/-- The session of the only guard dies while a second acquire is between its test and its park: the
slot is freed and announced before the acquire can hear it. -/
def lostRun : List PoolAction :=
  growing 0 ++ .acquire :: List.replicate 3 (.advance 1) ++
    [.use 0 (.call .close), .dropGuard 0, .advance 0, .advance 0, .advance 1]

theorem waiter_sleeps_beside_a_slot :
    ∃ s, (machine echoServer (smallConfig 1 (by decide) none)).Reachable s ∧
      (∀ phase ∈ s.ops, phase.quiet = true) ∧ (∃ phase ∈ s.ops, phase.isParked = true) ∧
      s.pool.live < s.pool.config.maxSize := by
  have hends : ((machine echoServer (smallConfig 1 (by decide) none)).run Machine.anyStep lostRun
      (fresh (smallConfig 1 (by decide) none))).any (fun s ↦ s.ops.all Phase.quiet &&
        (s.ops.any Phase.isParked && decide (s.pool.live < s.pool.config.maxSize))) = true := by
    decide +kernel
  obtain ⟨s, hrun, hs⟩ := (Option.any_eq_true _ _).mp hends
  obtain ⟨hquiet, hs⟩ := Bool.and_eq_true_iff.mp hs
  obtain ⟨hparked, hlive⟩ := Bool.and_eq_true_iff.mp hs
  have hreached := (fresh_reached echoServer Machine.anyStep 1 _ none).run hrun
  exact ⟨s, hreached.reachable, List.all_eq_true.mp hquiet, List.any_eq_true.mp hparked,
    of_decide_eq_true hlive⟩

end PoolSystem

end IotdbClient
