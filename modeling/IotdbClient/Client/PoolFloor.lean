import IotdbClient.Client.PoolSweep

/-!
# The floor of the sweep

The floor test of the sweep reads `live`, which is to keep the pool at `min_size` sessions or more.
`live` also counts slots that hold no session: those for which a session is being opened, and those
of sessions that are gone and have not been uncounted yet.
-/

namespace IotdbClient

open Library SessionPool

namespace Phase

/-- A session that the operation has handed out, is about to hand out, or has not put back yet. -/
@[simp] def alive : Phase → Nat
  | handOut _ | handOutUse _ _ | held _ => 1
  | releaseLock _ | releaseClosed _ | closeReleased _ => 1
  | _ => 0

/-- The slots of the operation that `live` counts and that hold no session. -/
@[simp] def emptySlots : Phase → Nat
  | openReadDatabase | openSession _ => 1
  | freeSlot _ | dropDead _ => 1
  | closeDrain drained => drained.length
  | _ => 0

/-- The sessions that a sweep has taken and not uncounted yet. -/
@[simp] def taken : Phase → Nat
  | sweep _ _ _ expired | sweepCount _ expired => expired.length
  | _ => 0

/-- A session that is uncounted and not closed yet. -/
@[simp] def uncounted : Phase → Nat
  | closeReleased _ => 1
  | _ => 0

/-- The phase goes with the flag: the sweep runs in open pools, `release` closes sessions in closed
ones. -/
@[simp] def fits (closed : Bool) : Phase → Bool
  | sweep .. | sweepCount .. => !closed
  | releaseClosed _ | closeReleased _ => closed
  | _ => true

-- every slot and every guard is a session, an empty slot or one that the sweep has taken
theorem slots_split (phase : Phase) :
    phase.slots + phase.guards + phase.uncounted = phase.alive + phase.emptySlots + phase.taken := by
  cases phase <;> simp

theorem fits_wake (closed : Bool) (phase : Phase) : phase.wake.fits closed = phase.fits closed := by
  cases phase <;> rfl

theorem fits_closed_of_unlocked {closed : Bool} {phase : Phase} (h : phase.fits closed = true)
    (hlock : phase.holdsLock = false) : phase.fits true = true := by
  cases phase with
  | sweep | sweepCount => cases hlock
  | releaseClosed | closeReleased => rfl
  | _ => exact h

end Phase

/-- The sweep takes its entry `i`: the floor is not reached and the entry is overdue. -/
def SessionPool.sweepTakes (pool : SessionPool) (now i : Nat) (expired : List Session) : Bool :=
  match pool.idle[i]? with
  | none => false
  | some entry =>
      decide (pool.config.minSize < fetchSub pool.live expired.length) &&
        decide (pool.config.maxIdleTime < now - entry.since)

namespace PoolSystem

variable {server : Server} {s s' : PoolSystem} {action : PoolAction} {config : SessionPoolConfig}
  {i : Nat}

/-- The sessions that exist: idle, handed out, on the way to a guard, or on the way back. -/
def alive (s : PoolSystem) : Nat := s.pool.idle.length + total Phase.alive s.ops

/-- The slots that `live` counts and that hold no session. -/
def emptySlots (s : PoolSystem) : Nat := total Phase.emptySlots s.ops

/-- The action is a step of a sweep. -/
def sweepStep (s : PoolSystem) : PoolAction → Bool
  | .advance i => s.ops[i]?.any Phase.sweeping
  | _ => false

/-- As a step of a sweep, it does not bring the sessions that exist below `min_size`. -/
def KeepsFloor (s : PoolSystem) (action : PoolAction) (s' : PoolSystem) : Prop :=
  s.sweepStep action = true → s.pool.config.minSize ≤ s.alive → s.pool.config.minSize ≤ s'.alive

/-- Where a sweep takes an entry, what `live` has left above `min_size` are not just the slots that
hold no session. -/
def aboveFloor (s : PoolSystem) : PoolAction → Bool
  | .advance i =>
      match s.ops[i]? with
      | some (.sweep _ now k expired) =>
          !s.pool.sweepTakes now k expired ||
            s.pool.live - expired.length != s.pool.config.minSize + s.emptySlots
      | _ => true
  | _ => true

/-! ## The flag -/

theorem advances_fits {free : Bool} {pool pool' : SessionPool} {world world' : World}
    {phase phase' : Phase} (h : Advances server free pool world phase phase' pool' world')
    (hphase : phase.fits pool.closed = true) :
    phase'.fits pool'.closed = true ∧
      (pool'.closed = pool.closed ∨ pool'.closed = true ∧ free = true) := by
  cases h with
  | acquireSweeps _ hopen | releaseSweeps _ hopen => simp [hopen]
  | releaseFindsClosed _ hclosed => simp [hclosed]
  | closes hfree => simp [hfree]
  | sweepDone | expiredClosed => cases ‹Sweeper› <;> simp
  | sweepStops | sweepTakes | sweepSkips | releasedClosed => exact ⟨hphase, .inl rfl⟩
  | _ => simp

/-- Each operation stands where it can with this flag. -/
def Fits (s : PoolSystem) : Prop := ∀ phase ∈ s.ops, phase.fits s.pool.closed = true

theorem Fits.step (hs : s.Fits) (h : Steps server s action s') : s'.Fits := by
  have hset : ∀ {i : Nat} {phase : Phase}, phase.fits s.pool.closed = true →
      ∀ other ∈ s.ops.set i phase, other.fits s.pool.closed = true :=
    fun hphase ↦ forall_mem_set hs hphase
  cases h with
  | acquires | acquiresForDevice | closes =>
      exact List.forall_mem_append.mpr ⟨hs, List.forall_mem_singleton.mpr rfl⟩
  | advances hget h =>
      obtain ⟨hphase, hsame | ⟨hclosed, hfree⟩⟩ := advances_fits h (hs _ (List.mem_of_getElem? hget))
      · refine forall_mem_set ?_ hphase
        rw [hsame]
        exact hs
      · -- the lock was free, so nobody was in a sweep
        refine forall_mem_set ?_ hphase
        intro other hother
        rw [hclosed]
        have hunlocked := List.all_eq_true.mp hfree other hother
        exact Phase.fits_closed_of_unlocked (hs other hother) (by simpa using hunlocked)
  | notifiesAll hget =>
      intro phase hphase
      obtain ⟨before, hbefore, rfl⟩ := List.mem_map.mp hphase
      rw [Phase.fits_wake]
      exact hset rfl before hbefore
  | wakesOne => exact forall_mem_set (hset rfl) rfl
  | notifiesNobody | wakesUp | uses | dropsOpen | dropsDead => exact hset rfl
  | ticks => exact hs

theorem reachable_fits (h : (machine server config).Reachable s) : s.Fits := by
  apply h.invariant
  · intro s hinit phase hphase
    rw [hinit.1] at hphase
    cases hphase
  · intro s action s' hs _ hstep
    exact hs.step (step_spec hstep)

/-! ## What `live` counts during a sweep -/

theorem live_during_sweep {sweeper : Sweeper} {now k : Nat} {expired : List Session}
    (hs : s.Accounted config) (hfits : s.Fits)
    (hget : s.ops[i]? = some (.sweep sweeper now k expired)) :
    s.pool.live = s.alive + s.emptySlots + expired.length := by
  have hsplit : total Phase.slots s.ops + total Phase.guards s.ops + total Phase.uncounted s.ops =
      total Phase.alive s.ops + total Phase.emptySlots s.ops + total Phase.taken s.ops := by
    simp only [← total_add, Phase.slots_split]
  -- the lock is held once, so this sweep is the only one
  have htaken : total Phase.taken s.ops = expired.length := by
    refine total_of_alone hs.alone hget Nat.one_pos ?_
    intro phase hphase
    cases phase with
    | sweep | sweepCount => exact Nat.one_pos
    | _ => cases hphase
  -- the pool is open, so no released session is being closed
  have hopen : s.pool.closed = false := by
    have hsweep := hfits _ (List.mem_of_getElem? hget)
    simpa using hsweep
  have huncounted : total Phase.uncounted s.ops = 0 := by
    rw [total_eq_zero_iff]
    intro phase hphase
    have hphase' := hfits phase hphase
    rw [hopen] at hphase'
    cases phase with
    | closeReleased => cases hphase'
    | _ => rfl
  have hlive := hs.live
  unfold slots guards at hlive
  unfold alive emptySlots
  omega

theorem sweepTurn_alive {pool pool' : SessionPool} {phase' : Phase} {sweeper : Sweeper}
    {now k : Nat} {expired : List Session}
    (h : pool.sweepTurn sweeper now k expired = (phase', pool')) :
    phase'.alive = 0 ∧
      pool'.idle.length + (pool.sweepTakes now k expired).toNat = pool.idle.length := by
  have hend : (endSweep sweeper expired).alive = 0 := by
    unfold endSweep
    split
    · cases sweeper <;> rfl
    · rfl
  unfold sweepTurn at h
  cases hentry : pool.idle[k]? with
  | none =>
      rw [hentry] at h
      cases h
      have htakes : pool.sweepTakes now k expired = false := by simp only [sweepTakes, hentry]
      rw [htakes]
      exact ⟨hend, rfl⟩
  | some entry =>
      have hlt := (List.getElem?_eq_some_iff.mp hentry).1
      have htakes : pool.sweepTakes now k expired =
          (decide (pool.config.minSize < fetchSub pool.live expired.length) &&
            decide (pool.config.maxIdleTime < now - entry.since)) := by
        simp only [sweepTakes, hentry]
      simp only [hentry] at h
      rw [htakes]
      by_cases hfloor : fetchSub pool.live expired.length ≤ pool.config.minSize
      · -- the floor
        rw [if_pos hfloor] at h
        cases h
        rw [decide_eq_false (Nat.not_lt.mpr hfloor)]
        exact ⟨hend, rfl⟩
      · rw [if_neg hfloor] at h
        rw [decide_eq_true (Nat.not_le.mp hfloor)]
        by_cases hlate : pool.config.maxIdleTime < now - entry.since
        · -- taken
          rw [if_pos hlate] at h
          cases h
          rw [decide_eq_true hlate]
          refine ⟨rfl, ?_⟩
          change (pool.idle.eraseIdx k).length + 1 = _
          rw [List.length_eraseIdx_of_lt hlt]
          omega
        · -- skipped
          rw [if_neg hlate] at h
          cases h
          rw [decide_eq_false hlate]
          exact ⟨rfl, rfl⟩

theorem sweep_alive {sweeper : Sweeper} {now k : Nat} {expired : List Session}
    (hget : s.ops[i]? = some (.sweep sweeper now k expired))
    (hstep : step server s (.advance i) = some s') :
    s'.alive + (s.pool.sweepTakes now k expired).toNat = s.alive := by
  rw [sweep_step hget] at hstep
  rcases hturn : s.pool.sweepTurn sweeper now k expired with ⟨phase', pool'⟩
  rw [hturn] at hstep
  cases hstep
  obtain ⟨hnone, hlength⟩ := sweepTurn_alive hturn
  have hmoved := total_set Phase.alive hget phase'
  have hsweep : Phase.alive (.sweep sweeper now k expired) = 0 := rfl
  generalize (s.pool.sweepTakes now k expired).toNat = takes at hlength ⊢
  dsimp only [alive]
  omega

/-- An operation moves on without touching the queue. -/
theorem alive_moves {phase phase' : Phase} (hget : s.ops[i]? = some phase)
    (hops : s'.ops = s.ops.set i phase') (hidle : s'.pool.idle = s.pool.idle)
    (hsame : phase'.alive = phase.alive) : s'.alive = s.alive := by
  have hmoved := total_set Phase.alive hget phase'
  unfold alive
  rw [hops, hidle]
  omega

theorem sweepCount_alive {sweeper : Sweeper} {expired : List Session}
    (hget : s.ops[i]? = some (.sweepCount sweeper expired))
    (hstep : step server s (.advance i) = some s') : s'.alive = s.alive := by
  rw [sweepCount_step hget] at hstep
  cases hstep
  have hidle : { s.pool with live := fetchSub s.pool.live expired.length }.idle = s.pool.idle := by
    dsimp only
  exact @alive_moves _ _ _ _ (.closeExpired sweeper expired) hget rfl hidle rfl

/-! ## The floor -/

theorem keepsFloor_of_not_sweeping (h : s.sweepStep action = false) : s.KeepsFloor action s' := by
  intro hsweep
  rw [h] at hsweep
  cases hsweep

theorem keepsFloor_iff_sweep {sweeper : Sweeper} {now k : Nat} {expired : List Session}
    (hs : s.Accounted config) (hfits : s.Fits)
    (hget : s.ops[i]? = some (.sweep sweeper now k expired))
    (hstep : step server s (.advance i) = some s') :
    s.KeepsFloor (.advance i) s' ↔ s.aboveFloor (.advance i) = true := by
  have halive := sweep_alive hget hstep
  have hlive := live_during_sweep hs hfits hget
  have hsweep : s.sweepStep (.advance i) = true := by
    simp [sweepStep, hget]
  have habove : s.aboveFloor (.advance i) = (!s.pool.sweepTakes now k expired ||
      s.pool.live - expired.length != s.pool.config.minSize + s.emptySlots) := by
    simp only [aboveFloor, hget]
  have hleft : s.pool.live - expired.length = s.alive + s.emptySlots := by omega
  rw [habove, hleft, KeepsFloor]
  cases htakes : s.pool.sweepTakes now k expired with
  | false =>
      rw [htakes, Bool.toNat_false, Nat.add_zero] at halive
      simp [halive]
  | true =>
      rw [htakes, Bool.toNat_true] at halive
      simp only [hsweep, Bool.not_true, Bool.false_or, bne_iff_ne]
      constructor
      · intro hkept heq
        have hbelow := hkept trivial (by omega)
        omega
      · intro hne _ hfloor
        omega

theorem keepsFloor_iff (hs : s.Accounted config) (hfits : s.Fits)
    (hstep : step server s action = some s') :
    s.KeepsFloor action s' ↔ s.aboveFloor action = true := by
  have hother : s.sweepStep action = false → s.aboveFloor action = true →
      (s.KeepsFloor action s' ↔ s.aboveFloor action = true) := by
    intro hsweep habove
    exact iff_of_true (keepsFloor_of_not_sweeping hsweep) habove
  cases action with
  | advance i =>
      cases hget : s.ops[i]? with
      | none =>
          simp only [step, hget] at hstep
          cases hstep
      | some phase =>
          cases phase with
          | sweep => exact keepsFloor_iff_sweep hs hfits hget hstep
          | sweepCount =>
              have hsame := sweepCount_alive hget hstep
              have habove : s.aboveFloor (.advance i) = true := by simp only [aboveFloor, hget]
              refine iff_of_true ?_ habove
              intro _ hfloor
              rwa [hsame]
          | _ => exact hother (by simp [sweepStep, hget]) (by simp only [aboveFloor, hget])
  | _ => exact hother rfl rfl

/-- In a run of the pool each step of a sweep leaves `min_size` sessions where there were as many, if
and only if no sweep takes an entry when what is left of `live` is just `min_size` and the slots that
hold no session. -/
theorem sweep_floor_counts_sessions {actions : List PoolAction}
    (hinit : (machine server config).init s)
    (hrun : (machine server config).run Machine.anyStep actions s = some s') :
    (machine server config).EveryStep KeepsFloor actions s ↔
      (machine server config).run aboveFloor actions s = some s' := by
  have hreached : (machine server config).Reachable s := .init hinit
  apply Machine.everyStep_iff_run (I := fun s ↦ s.Accounted config ∧ s.Fits)
  · intro s action s' hs hstep
    exact ⟨hs.1.step (step_spec hstep), hs.2.step (step_spec hstep)⟩
  · intro s action s' hs hstep
    exact keepsFloor_iff hs.1 hs.2 hstep
  · exact ⟨reachable_accounted hreached, reachable_fits hreached⟩
  · exact hrun

/-- A configuration that opens one session in advance. -/
def eagerConfig : SessionPoolConfig :=
  { SessionPoolConfig.default with
    maxSize := 2
    minSize := 1
    maxIdleTime := 5000
    idleSweepInterval := 5000
    maxSize_lt := by decide
    minSize_lt := by decide }

/-- A new pool, if it can be filled. -/
def filled (server : Server) (config : SessionPoolConfig) : Option PoolSystem :=
  match SessionPool.new server config ⟨0, 0, 0⟩ with
  | (.ok pool, world) => some ⟨pool, world, [], config.session.database⟩
  | (.error _, _) => none

theorem filled_init (h : filled server config = some s) : (machine server config).init s := by
  unfold filled at h
  split at h
  · rename_i pool world hnew
    cases h
    exact ⟨rfl, rfl, ⟨0, 0, 0⟩, hnew⟩
  · cases h

/-- The session opened in advance and a second one come back; six seconds later a caller sweeps. -/
def flooredRun : List PoolAction :=
  .acquire :: List.replicate 4 (.advance 0) ++ growing 1 ++
    [.dropGuard 0, .advance 0, .advance 0, .dropGuard 1, .advance 1, .advance 1, .tick 6000,
      .acquire] ++ List.replicate 5 (.advance 2)

theorem sweep_floor_counts_sessions_two :
    ∃ start s, (machine echoServer eagerConfig).init start ∧
      (machine echoServer eagerConfig).run Machine.anyStep flooredRun start = some s ∧
      (machine echoServer eagerConfig).EveryStep KeepsFloor flooredRun start ∧
      s.pool.lastSweep = 6000 ∧ s.alive = 1 := by
  have hends : (filled echoServer eagerConfig).any (fun start ↦
      ((machine echoServer eagerConfig).run Machine.anyStep flooredRun start).any (fun s ↦
        decide (s.pool.lastSweep = 6000 ∧ s.alive = 1)) &&
      ((machine echoServer eagerConfig).run aboveFloor flooredRun start).isSome) = true := by
    decide +kernel
  obtain ⟨start, hstart, hruns⟩ := (Option.any_eq_true _ _).mp hends
  rw [Bool.and_eq_true] at hruns
  obtain ⟨s, hrun, hs⟩ := (Option.any_eq_true _ _).mp hruns.1
  obtain ⟨later, habove⟩ := Option.isSome_iff_exists.mp hruns.2
  obtain ⟨hswept, halive⟩ := of_decide_eq_true hs
  -- the run that is held to the condition is the same run
  have hsame : later = s := Option.some.inj ((Machine.run_any habove).symm.trans hrun)
  rw [hsame] at habove
  have hkept := (sweep_floor_counts_sessions (filled_init hstart) hrun).mpr habove
  exact ⟨start, s, filled_init hstart, hrun, hkept, hswept, halive⟩

/-- A server that is gone after the first connection. -/
def leavingServer : Server :=
  { echoServer with
    connect := fun n _ _ ↦ if n = 0 then none else some (.client "connection refused") }

/-- A second session is being opened while the first one comes back; six seconds later a caller
sweeps. -/
def openingRun : List PoolAction :=
  .acquire :: List.replicate 4 (.advance 0) ++ .acquire :: List.replicate 4 (.advance 1) ++
    [.dropGuard 0, .advance 0, .advance 0, .tick 6000, .acquire, .advance 2]

/-- The second session cannot be opened, nor can one for the caller. -/
def failingRun : List PoolAction :=
  List.replicate 3 (.advance 2) ++ List.replicate 4 (.advance 1) ++ List.replicate 8 (.advance 2)

/-- The only session of the pool is evicted, although `min_size` is one. -/
theorem sweep_evicts_below_floor :
    ∃ start s t later, (machine leavingServer eagerConfig).init start ∧
      (machine leavingServer eagerConfig).run Machine.anyStep openingRun start = some s ∧
      step leavingServer s (.advance 2) = some t ∧ ¬s.KeepsFloor (.advance 2) t ∧
      (machine leavingServer eagerConfig).run Machine.anyStep failingRun t = some later ∧
      s.alive = 1 ∧ t.alive = 0 ∧ later.pool.live = 0 ∧
      ∀ phase ∈ later.ops, phase.atRest = true := by
  have hends : (filled leavingServer eagerConfig).any (fun start ↦
      ((machine leavingServer eagerConfig).run Machine.anyStep openingRun start).any (fun s ↦
        decide (s.sweepStep (.advance 2) = true ∧ s.pool.config.minSize = 1 ∧ s.alive = 1) &&
        (step leavingServer s (.advance 2)).any (fun t ↦ decide (t.alive = 0) &&
          ((machine leavingServer eagerConfig).run Machine.anyStep failingRun t).any fun later ↦
            decide (later.pool.live = 0) && later.ops.all Phase.atRest))) = true := by
    decide +kernel
  obtain ⟨start, hstart, hopening⟩ := (Option.any_eq_true _ _).mp hends
  obtain ⟨s, hrun, hs⟩ := (Option.any_eq_true _ _).mp hopening
  rw [Bool.and_eq_true] at hs
  obtain ⟨hsweep, hmin, halive⟩ := of_decide_eq_true hs.1
  obtain ⟨t, hstep, ht⟩ := (Option.any_eq_true _ _).mp hs.2
  rw [Bool.and_eq_true] at ht
  have hgone := of_decide_eq_true ht.1
  obtain ⟨later, hfailing, hlater⟩ := (Option.any_eq_true _ _).mp ht.2
  rw [Bool.and_eq_true] at hlater
  refine ⟨start, s, t, later, filled_init hstart, hrun, hstep, ?_, hfailing, halive, hgone,
    of_decide_eq_true hlater.1, List.all_eq_true.mp hlater.2⟩
  intro hkept
  have hfloor := hkept hsweep (by omega)
  omega

end PoolSystem

end IotdbClient
