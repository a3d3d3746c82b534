import IotdbClient.Client.PoolQueue
import IotdbClient.Library.Search

/-!
# The idle sweep

The sweep scans the queue from the front and stops at the floor.  The queue is ordered by the time
its entries went idle, so the overdue entries are its first ones, and what the scan takes is a prefix
of the queue.
-/

namespace IotdbClient

open Library SessionPool

/-- In the loop of `sweep_idle`, or about to count what the loop took. -/
@[simp] def Phase.sweeping : Phase → Bool
  | sweep .. | sweepCount .. => true
  | _ => false

/-- A sweep as it starts, with the queue and the counter that it finds. -/
structure SweepCall where
  sweeper : Sweeper
  queue : List IdleEntry
  live : Nat
  now : Nat
  config : SessionPoolConfig

namespace SweepCall

variable (c : SweepCall)

/-- Idle for longer than the limit. -/
def overdue (entry : IdleEntry) : Bool := c.config.maxIdleTime < c.now - entry.since

/-- As many as are overdue and as the floor allows. -/
def evictions : Nat := min (c.queue.countP c.overdue) (c.live - c.config.minSize)

def evicted : List Session := (c.queue.take c.evictions).map IdleEntry.session

/-- Where the operation goes on after the sweep. -/
def after : Phase := if c.evictions = 0 then c.sweeper.goOn else .closeExpired c.sweeper c.evicted

/-- The sweep has recorded its time. -/
structure Recorded (pool : SessionPool) : Prop where
  time : pool.lastSweep = c.now
  config : pool.config = c.config

/-- How far the sweep has got: it has taken the first entries, as many as it may at most, and once
it has skipped an entry no overdue one is left. -/
inductive Progress : Phase → SessionPool → Prop where
  | scanning {i taken : Nat} {pool : SessionPool} (hle : taken ≤ c.evictions)
      (hskipped : i = 0 ∨ c.queue.countP c.overdue ≤ taken) (hidle : pool.idle = c.queue.drop taken)
      (hlive : pool.live = c.live) (hrecorded : c.Recorded pool) :
      Progress (.sweep c.sweeper c.now i ((c.queue.take taken).map IdleEntry.session)) pool
  | counting {pool : SessionPool} (hsome : 0 < c.evictions)
      (hidle : pool.idle = c.queue.drop c.evictions) (hlive : pool.live = c.live)
      (hrecorded : c.Recorded pool) : Progress (.sweepCount c.sweeper c.evicted) pool
  | finished {pool : SessionPool} (hidle : pool.idle = c.queue.drop c.evictions)
      (hlive : pool.live = c.live - c.evictions) (hrecorded : c.Recorded pool) :
      Progress c.after pool

variable {c}

theorem evictions_le_length : c.evictions ≤ c.queue.length :=
  (Nat.min_le_left _ _).trans List.countP_le_length

theorem length_taken {taken : Nat} (h : taken ≤ c.evictions) :
    ((c.queue.take taken).map IdleEntry.session).length = taken := by
  rw [List.length_map, List.length_take, Nat.min_eq_left (h.trans evictions_le_length)]

theorem sweeping_after : c.after.sweeping = false := by
  unfold after
  split
  · cases c.sweeper <;> rfl
  · rfl

/-- Whoever changes neither queue nor counter does not disturb the sweep. -/
theorem Progress.congr {phase : Phase} {pool pool' : SessionPool} (h : c.Progress phase pool)
    (hidle : pool'.idle = pool.idle) (hlive : pool'.live = pool.live)
    (hsweep : pool'.lastSweep = pool.lastSweep) (hconfig : pool'.config = pool.config) :
    c.Progress phase pool' := by
  have hrecorded : c.Recorded pool → c.Recorded pool' := fun hpool ↦
    ⟨hsweep.trans hpool.time, hconfig.trans hpool.config⟩
  cases h with
  | scanning hle hskipped hidle' hlive' hpool =>
      exact .scanning hle hskipped (hidle.trans hidle') (hlive.trans hlive') (hrecorded hpool)
  | counting hsome hidle' hlive' hpool =>
      exact .counting hsome (hidle.trans hidle') (hlive.trans hlive') (hrecorded hpool)
  | finished hidle' hlive' hpool =>
      exact .finished (hidle.trans hidle') (hlive.trans hlive') (hrecorded hpool)

/-- All is taken that may be taken. -/
theorem Progress.stops {pool : SessionPool} (hidle : pool.idle = c.queue.drop c.evictions)
    (hlive : pool.live = c.live) (hrecorded : c.Recorded pool) :
    c.Progress (endSweep c.sweeper c.evicted) pool := by
  have hlength : c.evicted.length = c.evictions := length_taken (Nat.le_refl _)
  unfold endSweep
  by_cases hnone : c.evictions = 0
  · have hempty : c.evicted = [] := List.length_eq_zero_iff.mp (hlength.trans hnone)
    have hafter : c.after = c.sweeper.goOn := if_pos hnone
    rw [hempty, List.isEmpty_nil, if_pos rfl, ← hafter]
    exact .finished hidle (by rw [hlive, hnone, Nat.sub_zero]) hrecorded
  · have hsome : ¬c.evicted.isEmpty = true := by
      rw [List.isEmpty_iff]
      intro hempty
      rw [hempty] at hlength
      exact hnone hlength.symm
    rw [if_neg hsome]
    exact .counting (Nat.pos_of_ne_zero hnone) hidle hlive hrecorded

/-- Who has been idle longer is overdue before. -/
theorem overdue_front (hqueue : (sinces c.queue).Pairwise (· ≤ ·)) :
    c.queue.Pairwise fun entry entry' ↦ c.overdue entry' = true → c.overdue entry = true := by
  rw [sinces, List.pairwise_map] at hqueue
  refine hqueue.imp ?_
  intro entry entry' hle hoverdue
  unfold overdue at hoverdue ⊢
  have hlate := of_decide_eq_true hoverdue
  exact decide_eq_true (by omega)

/-- One turn of the loop. -/
theorem Progress.turn (hqueue : (sinces c.queue).Pairwise (· ≤ ·)) (hbound : c.live < 2 ^ 64)
    {i taken : Nat} {pool : SessionPool} (hle : taken ≤ c.evictions)
    (hskipped : i = 0 ∨ c.queue.countP c.overdue ≤ taken) (hidle : pool.idle = c.queue.drop taken)
    (hlive : pool.live = c.live) (hrecorded : c.Recorded pool) :
    let next := pool.sweepTurn c.sweeper c.now i ((c.queue.take taken).map IdleEntry.session)
    c.Progress next.1 next.2 := by
  intro next
  have hcount : c.evictions ≤ c.queue.countP c.overdue := Nat.min_le_left _ _
  have hfloor : c.evictions ≤ c.live - c.config.minSize := Nat.min_le_right _ _
  have hlast : taken = c.evictions → c.Progress
      (endSweep c.sweeper ((c.queue.take taken).map IdleEntry.session)) pool := by
    rintro rfl
    exact .stops hidle hlive hrecorded
  change c.Progress (pool.sweepTurn _ _ _ _).1 (pool.sweepTurn _ _ _ _).2
  unfold sweepTurn
  cases hentry : pool.idle[i]? with
  | none =>
      -- the end of the queue
      have hlength : (c.queue.drop taken).length ≤ i := by
        rw [← hidle]
        exact List.getElem?_eq_none_iff.mp hentry
      rw [List.length_drop] at hlength
      apply hlast
      have hall := evictions_le_length (c := c)
      omega
  | some entry =>
      have hget : c.queue[taken + i]? = some entry := by
        rw [← List.getElem?_drop, ← hidle]
        exact hentry
      have hoverdue := lt_countP_iff (overdue_front hqueue) hget
      have htest : fetchSub pool.live ((c.queue.take taken).map IdleEntry.session).length =
          c.live - taken := by
        rw [length_taken hle, hlive]
        exact fetchSub_of_le (by omega) hbound
      have hmin : pool.config.minSize = c.config.minSize := by rw [hrecorded.config]
      have hmax : pool.config.maxIdleTime = c.config.maxIdleTime := by rw [hrecorded.config]
      simp only [htest, hmin, hmax]
      by_cases hstop : c.live - taken ≤ c.config.minSize
      · -- the floor
        rw [if_pos hstop]
        exact hlast (by omega)
      · rw [if_neg hstop]
        by_cases hlate : c.config.maxIdleTime < c.now - entry.since
        · -- taken: the entry is the first one left
          rw [if_pos hlate]
          have hnext := hoverdue.mpr (decide_eq_true hlate)
          obtain rfl : i = 0 := by omega
          rw [Nat.add_zero] at hget hnext
          have htaken : (c.queue.take taken).map IdleEntry.session ++ [entry.session] =
              (c.queue.take (taken + 1)).map IdleEntry.session := by
            rw [List.take_add_one, hget, Option.toList_some, List.map_append, List.map_singleton]
          rw [htaken]
          refine .scanning ?_ (.inl rfl) ?_ hlive ⟨hrecorded.time, hrecorded.config⟩
          · exact Nat.le_min.mpr ⟨hnext, by omega⟩
          · change pool.idle.eraseIdx 0 = _
            rw [hidle, List.eraseIdx_zero, List.tail_drop]
        · -- skipped: nothing behind it is overdue
          rw [if_neg hlate]
          refine .scanning hle (.inr ?_) hidle hlive hrecorded
          have hnot : ¬taken + i < c.queue.countP c.overdue := by
            rw [hoverdue]
            exact fun h ↦ hlate (of_decide_eq_true h)
          omega

end SweepCall

/-! ## Other operations -/

/-- Without the lock an operation leaves the queue and the time of the last sweep alone. -/
theorem SessionPool.advances_unlocked {server : Server} {pool pool' : SessionPool}
    {world world' : World} {phase phase' : Phase}
    (h : Advances server false pool world phase phase' pool' world')
    (hlock : phase.holdsLock = false) :
    pool'.idle = pool.idle ∧ pool'.lastSweep = pool.lastSweep ∧ pool'.config = pool.config := by
  cases h with
  | devicePicked hfree | devicePassed hfree | acquireSweeps hfree | released hfree
  | releaseSweeps hfree | closes hfree => cases hfree
  | sweepTakes | popOpen | popDead => cases hlock
  | _ => exact ⟨rfl, rfl, rfl⟩

namespace PoolSystem

variable {server : Server} {s s' : PoolSystem} {action : PoolAction} {config : SessionPoolConfig}
  {i j : Nat} {phase other : Phase}

theorem holdsLock_of_sweeping (h : phase.sweeping = true) : phase.holdsLock = true := by
  cases phase with
  | sweep | sweepCount => rfl
  | _ => cases h

theorem lock_of_holdsLock (h : phase.holdsLock = true) : phase.lock = 1 := if_pos h

theorem not_lockFree (hget : s.ops[i]? = some phase) (hlock : phase.holdsLock = true) :
    s.lockFree = false := by
  rw [← Bool.not_eq_true, lockFree_iff]
  have hone := le_total Phase.lock (List.mem_of_getElem? hget)
  have hphase := lock_of_holdsLock hlock
  omega

/-- The lock is held once. -/
theorem Accounted.others_unlocked (hs : s.Accounted config) (hget : s.ops[i]? = some phase)
    (hlock : phase.holdsLock = true) (hne : i ≠ j) (hother : s.ops[j]? = some other) :
    other.holdsLock = false := by
  have hrest := total_set Phase.lock hget .notifyAll
  have hphase := lock_of_holdsLock hlock
  have halone := hs.alone
  have hnone : total Phase.lock (s.ops.set i .notifyAll) = 0 := by
    have hzero : Phase.lock .notifyAll = 0 := rfl
    omega
  have hmem : other ∈ s.ops.set i .notifyAll := by
    apply List.mem_of_getElem?
    rw [List.getElem?_set_ne hne]
    exact hother
  have hweight := total_eq_zero_iff.mp hnone other hmem
  cases hholds : other.holdsLock with
  | false => rfl
  | true =>
      rw [lock_of_holdsLock hholds] at hweight
      cases hweight

/-- While operation `i` sweeps, the steps of the others leave it, the queue and the time of the sweep
alone. -/
theorem Steps.spares_sweep (h : Steps server s action s') (hs : s.Accounted config)
    (hget : s.ops[i]? = some phase) (hsweeping : phase.sweeping = true)
    (haction : action ≠ .advance i) :
    s'.ops[i]? = some phase ∧ s'.pool.idle = s.pool.idle ∧
      s'.pool.lastSweep = s.pool.lastSweep ∧ s'.pool.config = s.pool.config := by
  have hlock := holdsLock_of_sweeping hsweeping
  -- an operation in another phase is another operation
  have hkept : ∀ {j : Nat} {other next : Phase}, s.ops[j]? = some other → other.sweeping = false →
      (s.ops.set j next)[i]? = some phase := by
    intro j other next hother hidle
    have hne : j ≠ i := by
      rintro rfl
      cases hget.symm.trans hother
      cases hsweeping.symm.trans hidle
    rwa [List.getElem?_set_ne hne]
  have hpushed : ∀ next : Phase, (s.ops ++ [next])[i]? = some phase := by
    intro next
    rwa [List.getElem?_append_left (List.getElem?_eq_some_iff.mp hget).1]
  cases h with
  | acquires | acquiresForDevice | closes => exact ⟨hpushed _, rfl, rfl, rfl⟩
  | @advances j other next pool world hother hadvance =>
      have hne : i ≠ j := fun heq ↦ haction (by rw [heq])
      rw [not_lockFree hget hlock] at hadvance
      have hsame := advances_unlocked hadvance (hs.others_unlocked hget hlock hne hother)
      refine ⟨?_, hsame⟩
      rwa [List.getElem?_set_ne (Ne.symm hne)]
  | notifiesNobody hother => exact ⟨hkept hother rfl, rfl, rfl, rfl⟩
  | notifiesAll hother =>
      refine ⟨?_, rfl, rfl, rfl⟩
      rw [List.getElem?_map, hkept hother rfl]
      cases phase with
      | sweep | sweepCount => rfl
      | _ => cases hsweeping
  | @wakesOne j k outcome deadline hother hparked =>
      have hdone : (s.ops.set j (.done outcome))[i]? = some phase := hkept hother rfl
      refine ⟨?_, rfl, rfl, rfl⟩
      have hne : k ≠ i := by
        rintro rfl
        cases hdone.symm.trans hparked
        cases hsweeping
      rwa [List.getElem?_set_ne hne]
  | wakesUp hother => exact ⟨hkept hother rfl, rfl, rfl, rfl⟩
  | uses hother => exact ⟨hkept hother rfl, rfl, rfl, rfl⟩
  | dropsOpen hother => exact ⟨hkept hother rfl, rfl, rfl, rfl⟩
  | dropsDead hother => exact ⟨hkept hother rfl, rfl, rfl, rfl⟩
  | ticks => exact ⟨hget, rfl, rfl, rfl⟩

/-! ## The sweep of one operation -/

/-- The operations that sweep, with the queue they find: `release` has put its session in. -/
inductive EntersSweep (s : PoolSystem) : Phase → Sweeper → List IdleEntry → Prop where
  | acquire {deadline : Nat} : EntersSweep s (.acquireLock deadline) (.acquire deadline) s.pool.idle
  | release {session : Session} :
      EntersSweep s (.releaseLock session) .release (s.pool.idle ++ [⟨session, s.world.clock⟩])

/-- Operation `i` is in its sweep, and the step is its own or one that leaves `live` alone. -/
def DuringSweep (server : Server) (i : Nat) (s : PoolSystem) (action : PoolAction) : Prop :=
  (∃ phase, s.ops[i]? = some phase ∧ phase.sweeping = true) ∧
    (action = .advance i ∨ ∀ s', step server s action = some s' → s'.pool.live = s.pool.live)

theorem enters_step {sweeper : Sweeper} {queue : List IdleEntry} (hget : s.ops[i]? = some phase)
    (henters : EntersSweep s phase sweeper queue) (hfree : s.lockFree = true)
    (hopen : s.pool.closed = false) :
    let next := beginSweep { s.pool with idle := queue } sweeper s.world.clock
    step server s (.advance i) = some { s with pool := next.2, ops := s.ops.set i next.1 } := by
  have hnot : ¬s.pool.closed = true := by simp [hopen]
  cases henters with
  | acquire =>
      simp only [step, hget, SessionPool.advance, hfree, if_true, if_neg hnot, Option.map_some]
  | release =>
      simp only [step, hget, SessionPool.advance, hfree, if_true, if_neg hnot, Option.map_some]

theorem sweep_step {sweeper : Sweeper} {now k : Nat} {expired : List Session}
    (hget : s.ops[i]? = some (.sweep sweeper now k expired)) :
    let next := s.pool.sweepTurn sweeper now k expired
    step server s (.advance i) = some { s with pool := next.2, ops := s.ops.set i next.1 } := by
  simp [step, hget, SessionPool.advance]

theorem sweepCount_step {sweeper : Sweeper} {expired : List Session}
    (hget : s.ops[i]? = some (.sweepCount sweeper expired)) :
    step server s (.advance i) = some { s with
      pool := { s.pool with live := fetchSub s.pool.live expired.length }
      ops := s.ops.set i (.closeExpired sweeper expired) } := by
  simp [step, hget, SessionPool.advance]

/-- Operation `i` is somewhere in the sweep `c`, or at its end. -/
structure Sweeping (config : SessionPoolConfig) (c : SweepCall) (i : Nat) (s : PoolSystem) : Prop where
  accounted : s.Accounted config
  progress : ∃ phase, s.ops[i]? = some phase ∧ c.Progress phase s.pool

variable {c : SweepCall}

theorem Sweeping.step (hqueue : (sinces c.queue).Pairwise (· ≤ ·)) (hbound : c.live < 2 ^ 64)
    (hs : s.Sweeping config c i) (hmeets : DuringSweep server i s action)
    (hstep : step server s action = some s') : s'.Sweeping config c i := by
  have haccounted := hs.accounted.step (step_spec hstep)
  obtain ⟨phase, hget, hprogress⟩ := hs.progress
  obtain ⟨⟨phase', hget', hsweeping⟩, hlive⟩ := hmeets
  cases hget.symm.trans hget'
  have hlt := (List.getElem?_eq_some_iff.mp hget).1
  by_cases haction : action = .advance i
  · subst haction
    refine ⟨haccounted, ?_⟩
    cases hprogress with
    | scanning hle hskipped hidle hlive' hrecorded =>
        rw [sweep_step hget] at hstep
        cases hstep
        exact ⟨_, List.getElem?_set_self hlt,
          .turn hqueue hbound hle hskipped hidle hlive' hrecorded⟩
    | counting hsome hidle hlive' hrecorded =>
        rw [sweepCount_step hget] at hstep
        cases hstep
        have hafter : c.after = .closeExpired c.sweeper c.evicted := if_neg (by omega)
        have hcount : fetchSub s.pool.live c.evicted.length = c.live - c.evictions := by
          have hfloor : c.evictions ≤ c.live - c.config.minSize := Nat.min_le_right _ _
          rw [SweepCall.evicted, SweepCall.length_taken (Nat.le_refl _), hlive']
          exact fetchSub_of_le (by omega) hbound
        have hfinished : c.Progress c.after
            { s.pool with live := fetchSub s.pool.live c.evicted.length } :=
          .finished hidle hcount ⟨hrecorded.time, hrecorded.config⟩
        rw [hafter] at hfinished
        exact ⟨_, List.getElem?_set_self hlt, hfinished⟩
    | finished => cases hsweeping.symm.trans SweepCall.sweeping_after
  · have hsame := (step_spec hstep).spares_sweep hs.accounted hget hsweeping haction
    have hlive' : s'.pool.live = s.pool.live := (hlive.resolve_left haction) s' hstep
    exact ⟨haccounted, phase, hsame.1,
      hprogress.congr hsame.2.1 hlive' hsame.2.2.1 hsame.2.2.2⟩

/-- What is left of a sweep. -/
def sweepWork (pool : SessionPool) : Phase → Nat
  | .sweep _ _ i _ => pool.idle.length - i + 2
  | .sweepCount _ _ => 1
  | _ => 0

theorem sweepTurn_work (pool : SessionPool) (sweeper : Sweeper) (now i : Nat)
    (expired : List Session) :
    let next := pool.sweepTurn sweeper now i expired
    sweepWork next.2 next.1 < sweepWork pool (.sweep sweeper now i expired) := by
  have hend : sweepWork pool (endSweep sweeper expired) ≤ 1 := by
    unfold endSweep
    split
    · cases sweeper <;> exact Nat.zero_le 1
    · exact Nat.le_refl 1
  change sweepWork (pool.sweepTurn _ _ _ _).2 (pool.sweepTurn _ _ _ _).1 < pool.idle.length - i + 2
  unfold sweepTurn
  split
  · change sweepWork pool (endSweep sweeper expired) < _
    omega
  · rename_i entry hentry
    have hlt := (List.getElem?_eq_some_iff.mp hentry).1
    split
    · change sweepWork pool (endSweep sweeper expired) < _
      omega
    · split
      · change (pool.idle.eraseIdx i).length - i + 2 < _
        rw [List.length_eraseIdx_of_lt hlt]
        omega
      · change pool.idle.length - (i + 1) + 2 < _
        omega

/-- Left to itself, a sweep ends. -/
theorem Sweeping.ends (hqueue : (sinces c.queue).Pairwise (· ≤ ·)) (hbound : c.live < 2 ^ 64)
    {work : Nat} (hs : s.Sweeping config c i) (hget : s.ops[i]? = some phase)
    (hwork : sweepWork s.pool phase = work) {start : PoolSystem}
    (hreached : ((machine server config).startedAt start).ReachableBy (DuringSweep server i) s) :
    ∃ s', ((machine server config).startedAt start).ReachableBy (DuringSweep server i) s' ∧
      ∃ phase', s'.ops[i]? = some phase' ∧ phase'.sweeping = false := by
  induction work using Nat.strong_induction_on generalizing s phase with
  | _ work ih =>
      obtain ⟨phase', hget', hprogress⟩ := hs.progress
      cases hget'.symm.trans hget
      have hlt := (List.getElem?_eq_some_iff.mp hget).1
      cases hprogress with
      | @scanning k taken pool _ _ _ _ _ =>
          have hmeets : DuringSweep server i s (.advance i) := ⟨⟨_, hget, rfl⟩, .inl rfl⟩
          have hstep := @sweep_step server _ _ _ _ _ _ hget
          have hless := sweepTurn_work s.pool c.sweeper c.now k
            ((c.queue.take taken).map IdleEntry.session)
          exact ih _ (hwork ▸ hless) (hs.step hqueue hbound hmeets hstep)
            (List.getElem?_set_self hlt) rfl (hreached.step hmeets hstep)
      | counting =>
          have hmeets : DuringSweep server i s (.advance i) := ⟨⟨_, hget, rfl⟩, .inl rfl⟩
          exact ⟨_, hreached.step hmeets (sweepCount_step hget), _, List.getElem?_set_self hlt, rfl⟩
      | finished => exact ⟨s, hreached, _, hget, SweepCall.sweeping_after⟩

theorem EntersSweep.queued {sweeper : Sweeper} {queue : List IdleEntry}
    (h : EntersSweep s phase sweeper queue) (hs : Queued s.pool.idle s.world.clock) :
    Queued queue s.world.clock := by
  cases h with
  | acquire => exact hs
  | release => exact hs.push _

/-- The queue is ordered by the time its entries went idle.  A sweep that is due takes the longest
idle overdue entries off its front, as many as the floor allows; one that is not due does nothing. -/
theorem sweep_evicts_longest_idle (h : (machine server config).Reachable s) :
    (sinces s.pool.idle).Pairwise (· ≤ ·) ∧
    ∀ i phase sweeper queue, s.ops[i]? = some phase → EntersSweep s phase sweeper queue →
      s.lockFree = true → s.pool.closed = false →
      let c : SweepCall := ⟨sweeper, queue, s.pool.live, s.world.clock, config⟩
      ∃ t, step server s (.advance i) = some t ∧
        (s.world.clock - s.pool.lastSweep < config.idleSweepInterval →
          t = { s with pool := { s.pool with idle := queue }, ops := s.ops.set i sweeper.goOn }) ∧
        (config.idleSweepInterval ≤ s.world.clock - s.pool.lastSweep →
          (∀ u phase',
            ((machine server config).startedAt t).ReachableBy (DuringSweep server i) u →
            u.ops[i]? = some phase' → phase'.sweeping = false →
            phase' = c.after ∧ u.pool.idle = queue.drop c.evictions ∧
              u.pool.live = s.pool.live - c.evictions ∧ u.pool.lastSweep = s.world.clock) ∧
          (∃ u phase',
            ((machine server config).startedAt t).ReachableBy (DuringSweep server i) u ∧
            u.ops[i]? = some phase' ∧ phase'.sweeping = false) ∧
          (∀ entry ∈ queue.take c.evictions, config.maxIdleTime < s.world.clock - entry.since) ∧
          min s.pool.live config.minSize ≤ s.pool.live - c.evictions) := by
  have hqueued := reachable_queued h
  have haccounted := reachable_accounted h
  refine ⟨hqueued.sorted, ?_⟩
  intro i phase sweeper queue hget henters hfree hopen c
  have hstep := @enters_step server _ _ _ _ _ hget henters hfree hopen
  have hlt := (List.getElem?_eq_some_iff.mp hget).1
  have hsorted := (henters.queued hqueued).sorted
  have hlive := haccounted.live
  have hmax := haccounted.bound
  have hbound : c.live < 2 ^ 64 := by
    have hsize := config.maxSize_lt
    change s.pool.live < 2 ^ 64
    omega
  refine ⟨_, hstep, ?_, ?_⟩
  · -- not due
    intro hearly
    have hgate : s.world.clock - s.pool.lastSweep < s.pool.config.idleSweepInterval := by
      rwa [haccounted.sameConfig]
    simp only [beginSweep, if_pos hgate]
  · intro hdue
    have hgate : ¬s.world.clock - s.pool.lastSweep < s.pool.config.idleSweepInterval := by
      rw [haccounted.sameConfig]
      omega
    have hbegun : (beginSweep { s.pool with idle := queue } sweeper s.world.clock) =
        (.sweep sweeper s.world.clock 0 [],
          { s.pool with idle := queue, lastSweep := s.world.clock }) := if_neg hgate
    rw [hbegun] at hstep ⊢
    have hprogress : c.Progress (.sweep sweeper s.world.clock 0 [])
        { s.pool with idle := queue, lastSweep := s.world.clock } :=
      @SweepCall.Progress.scanning c 0 0 _ (Nat.zero_le _) (.inl rfl) rfl rfl
        ⟨rfl, haccounted.sameConfig⟩
    have hsweeping : Sweeping config c i { s with
        pool := { s.pool with idle := queue, lastSweep := s.world.clock }
        ops := s.ops.set i (.sweep sweeper s.world.clock 0 []) } :=
      ⟨haccounted.step (step_spec hstep), _, List.getElem?_set_self hlt, hprogress⟩
    refine ⟨?_, ?_, ?_, ?_⟩
    · -- the invariant of the loop, read at its end
      intro u phase' hu hget' hend
      have hends : u.Sweeping config c i := by
        apply hu.invariant
        · rintro _ rfl
          exact hsweeping
        · intro s action s' hs hmeets hstep
          exact hs.step hsorted hbound hmeets hstep
      obtain ⟨phase'', hget'', hprogress'⟩ := hends.progress
      cases hget''.symm.trans hget'
      cases hprogress' with
      | scanning => cases hend
      | counting => cases hend
      | finished hidle hlive hrecorded => exact ⟨rfl, hidle, hlive, hrecorded.time⟩
    · -- the loop comes to its end by itself
      obtain ⟨u, hu, phase', hget', hend⟩ :=
        hsweeping.ends hsorted hbound (List.getElem?_set_self hlt) rfl (.init rfl)
      exact ⟨u, phase', hu, hget', hend⟩
    · -- in an ordered queue the overdue entries stand in front
      intro entry hentry
      obtain ⟨k, hk⟩ := List.mem_iff_getElem?.mp hentry
      rw [List.getElem?_take] at hk
      split at hk
      · rename_i hfirst
        have hcount : c.evictions ≤ c.queue.countP c.overdue := Nat.min_le_left _ _
        have hfront := SweepCall.overdue_front (c := c) hsorted
        have hoverdue := (lt_countP_iff hfront hk).mp (hfirst.trans_le hcount)
        exact of_decide_eq_true hoverdue
      · cases hk
    · have hfloor : c.evictions ≤ s.pool.live - config.minSize := Nat.min_le_right _ _
      omega

/-- Two sessions come back ten seconds apart; when the next caller comes, only the first has been
idle for more than a minute. -/
def sweptRun : List PoolAction :=
  growing 0 ++ growing 1 ++
    [.dropGuard 0, .advance 0, .advance 0, .tick 10000, .dropGuard 1, .advance 1, .advance 1,
      .tick 55000, .acquire]

theorem sweep_evicts_longest_idle_one :
    ∃ s t u, (machine echoServer (smallConfig 2 (by decide) none)).run Machine.anyStep sweptRun
        (fresh (smallConfig 2 (by decide) none)) = some s ∧
      sinces s.pool.idle = [0, 10000] ∧ step echoServer s (.advance 2) = some t ∧
      ((machine echoServer (smallConfig 2 (by decide) none)).startedAt t).ReachableBy
        (DuringSweep echoServer 2) u ∧
      sinces u.pool.idle = [10000] ∧ u.pool.live = 1 := by
  have hends : ((machine echoServer (smallConfig 2 (by decide) none)).run Machine.anyStep sweptRun
      (fresh (smallConfig 2 (by decide) none))).any (fun s ↦
        decide (s.lockFree = true ∧ s.pool.closed = false ∧ s.pool.live = 2 ∧
          sinces s.pool.idle = [0, 10000] ∧ s.world.clock = 65000 ∧ s.pool.lastSweep = 0) &&
        s.ops[2]?.any fun | .acquireLock _ => true | _ => false) = true := by
    decide +kernel
  obtain ⟨s, hrun, hs⟩ := (Option.any_eq_true _ _).mp hends
  rw [Bool.and_eq_true] at hs
  obtain ⟨hfree, hopen, hlive, hsinces, hclock, hswept⟩ := of_decide_eq_true hs.1
  obtain ⟨phase, hget, hphase⟩ := (Option.any_eq_true _ _).mp hs.2
  cases phase with
  | acquireLock deadline =>
      have hreached := (fresh_reached echoServer Machine.anyStep 2 _ none).run hrun
      obtain ⟨t, hstep, -, hdue⟩ := (sweep_evicts_longest_idle hreached.reachable).2 2 _ _ _ hget
        .acquire hfree hopen
      obtain ⟨hends, ⟨u, phase', hu, hget', hend⟩, -⟩ := hdue (by
        rw [hclock, hswept]
        decide)
      obtain ⟨-, hidle, hlive', -⟩ := hends u phase' hu hget' hend
      have hcount : SweepCall.evictions ⟨.acquire deadline, s.pool.idle, s.pool.live, s.world.clock,
          smallConfig 2 (by decide) none⟩ = 1 := by
        have hoverdue : s.pool.idle.countP (SweepCall.overdue ⟨.acquire deadline, s.pool.idle,
            s.pool.live, s.world.clock, smallConfig 2 (by decide) none⟩) =
            (sinces s.pool.idle).countP fun time ↦ decide (60000 < s.world.clock - time) := by
          rw [sinces, List.countP_map]
          rfl
        rw [SweepCall.evictions, hoverdue, hsinces, hclock, hlive]
        rfl
      rw [hcount] at hidle hlive'
      refine ⟨s, t, u, hrun, hsinces, hstep, hu, ?_, by rw [hlive', hlive]⟩
      rw [hidle, sinces, List.map_drop]
      change (sinces s.pool.idle).drop 1 = _
      rw [hsinces]
      rfl
  | _ => cases hphase

end PoolSystem

end IotdbClient
