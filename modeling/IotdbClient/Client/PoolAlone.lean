import IotdbClient.Client.PoolQueue
import Mathlib.Computability.StateTransition

/-!
# An operation by itself

While no other operation takes a step, the steps of one are those of a function.  An `acquire` of an
open pool sweeps the idle queue first, if that is due, and takes the first open session that is left.
-/

namespace IotdbClient

open Library StateTransition

namespace SessionPool

variable (server : Server)

/-- The next step of an operation while nobody else has the lock. -/
def alone (st : Phase × SessionPool × World) : Option (Phase × SessionPool × World) :=
  (advance server true st.1 st.2.1 st.2.2).map fun next ↦ (next.1, next.2.1, next.2.2.1)

/-- By itself the operation takes the session out of the idle queue, to hand it out. -/
def TakesIdle (start : Phase × SessionPool × World) (session : Session) (pool : SessionPool)
    (world : World) : Prop :=
  ∃ phase before, Reaches (alone server) start (phase, before, world) ∧
    alone server (phase, before, world) = some (.handOut session, pool, world) ∧
    before.idle.length = pool.idle.length + 1

/-! ## What the sweep leaves -/

def idleTooLong (config : SessionPoolConfig) (now : Nat) (entry : IdleEntry) : Bool :=
  config.maxIdleTime < now - entry.since

/-- The queue after a sweep: a due sweep evicts the first sessions that are idle for too long, as
many as the floor allows. -/
def sweptIdle (pool : SessionPool) (now : Nat) : List IdleEntry :=
  if now - pool.lastSweep < pool.config.idleSweepInterval then pool.idle
  else (List.eraseP (idleTooLong pool.config now))^[pool.live - pool.config.minSize] pool.idle

/-- The session that an `acquire` finds. -/
def nextOpen (pool : SessionPool) (now : Nat) : Option IdleEntry :=
  (pool.sweptIdle now).find? fun entry ↦ entry.session.isOpen

theorem sweptIdle_sublist (pool : SessionPool) (now : Nat) :
    (pool.sweptIdle now).Sublist pool.idle := by
  unfold sweptIdle
  split
  · exact List.Sublist.refl _
  · exact iterate_eraseP_sublist _

variable {server} {pool : SessionPool} {world : World} {deadline : Nat}

theorem step_reaches {st next last : Phase × SessionPool × World}
    (hstep : alone server st = some next) (h : Reaches (alone server) next last) :
    Reaches (alone server) st last := Relation.ReflTransGen.head hstep h

/-- The loop of the sweep, from an entry on in front of which nothing is idle for too long. -/
theorem sweep_reaches {sweeper : Sweeper} {now : Nat} {front back : List IdleEntry}
    {expired : List Session} (hbound : pool.live < 2 ^ 64) (hidle : pool.idle = front ++ back)
    (hfront : ∀ entry ∈ front, idleTooLong pool.config now entry = false)
    (hexpired : expired.length ≤ pool.live) :
    ∃ taken left, left = (List.eraseP (idleTooLong pool.config now))^[
        pool.live - expired.length - pool.config.minSize] pool.idle ∧
      Reaches (alone server) (.sweep sweeper now front.length expired, pool, world)
        (endSweep sweeper taken, { pool with idle := left }, world) ∧
      taken.length ≤ pool.live ∧
      taken.length + left.length = expired.length + pool.idle.length ∧
      (pool.live - taken.length ≤ pool.config.minSize ∨
        ∀ entry ∈ left, idleTooLong pool.config now entry = false) := by
  have hcount : fetchSub pool.live expired.length = pool.live - expired.length :=
    fetchSub_of_le hexpired hbound
  -- by induction on the entries that the loop has not looked at
  induction back generalizing pool front expired with
  | nil =>
      rw [List.append_nil] at hidle
      have hend : pool.idle[front.length]? = none := by
        rw [hidle]
        exact List.getElem?_eq_none (Nat.le_refl _)
      have hstep : alone server (.sweep sweeper now front.length expired, pool, world) =
          some (endSweep sweeper expired, pool, world) := by
        simp only [alone, advance, sweepTurn, hend, Option.map_some]
      have hkept : ∀ entry ∈ pool.idle, idleTooLong pool.config now entry = false := by
        rwa [hidle]
      exact ⟨expired, pool.idle, (iterate_eraseP_of_forall_not hkept _).symm,
        step_reaches hstep .refl, hexpired, rfl, .inr hkept⟩
  | cons entry back ih =>
      have hentry : pool.idle[front.length]? = some entry := by
        rw [hidle, List.getElem?_append_right (Nat.le_refl _), Nat.sub_self]
        rfl
      by_cases hfloor : pool.live - expired.length ≤ pool.config.minSize
      · -- the floor
        have hstep : alone server (.sweep sweeper now front.length expired, pool, world) =
            some (endSweep sweeper expired, pool, world) := by
          simp only [alone, advance, sweepTurn, hentry, hcount, if_pos hfloor, Option.map_some]
        refine ⟨expired, pool.idle, ?_, step_reaches hstep .refl, hexpired, rfl, .inl hfloor⟩
        rw [Nat.sub_eq_zero_of_le hfloor]
        rfl
      · by_cases hlate : pool.config.maxIdleTime < now - entry.since
        · -- evicted
          have hstep : alone server (.sweep sweeper now front.length expired, pool, world) =
              some (.sweep sweeper now front.length (expired ++ [entry.session]),
                { pool with idle := front ++ back }, world) := by
            have herased : pool.idle.eraseIdx front.length = front ++ back := by
              rw [hidle, List.eraseIdx_append_of_length_le (Nat.le_refl _), Nat.sub_self]
              rfl
            simp only [alone, advance, sweepTurn, hentry, hcount, if_neg hfloor, if_pos hlate,
              herased, Option.map_some]
          have hlength : (expired ++ [entry.session]).length = expired.length + 1 := by
            rw [List.length_append, List.length_singleton]
          have hmore : (expired ++ [entry.session]).length ≤ pool.live := by omega
          obtain ⟨taken, left, hleft, hreach, htaken, htotal, hnone⟩ :=
            @ih { pool with idle := front ++ back } front (expired ++ [entry.session]) hbound rfl
              hfront hmore (fetchSub_of_le hmore hbound)
          refine ⟨taken, left, ?_, step_reaches hstep hreach, htaken, ?_, hnone⟩
          · have hone : pool.live - expired.length - pool.config.minSize =
                pool.live - (expired ++ [entry.session]).length - pool.config.minSize + 1 := by omega
            have hfirst : idleTooLong pool.config now entry = true := decide_eq_true hlate
            rw [hleft, hone, hidle, iterate_eraseP_append hfront, iterate_eraseP_append hfront,
              iterate_eraseP_cons hfirst]
          · have hboth : pool.idle.length = (front ++ back).length + 1 := by
              rw [hidle, List.length_append, List.length_append, List.length_cons]
              omega
            change taken.length + left.length = _ + (front ++ back).length at htotal
            omega
        · -- kept
          have hsplit : pool.idle = (front ++ [entry]) ++ back := by
            rw [hidle, List.append_assoc, List.singleton_append]
          have hkept : ∀ other ∈ front ++ [entry], idleTooLong pool.config now other = false := by
            rw [List.forall_mem_append, List.forall_mem_singleton]
            exact ⟨hfront, decide_eq_false hlate⟩
          have hstep : alone server (.sweep sweeper now front.length expired, pool, world) =
              some (.sweep sweeper now (front ++ [entry]).length expired, pool, world) := by
            simp only [alone, advance, sweepTurn, hentry, hcount, if_neg hfloor, if_neg hlate,
              Option.map_some, List.length_append, List.length_singleton]
          obtain ⟨taken, left, hleft, hreach, hrest⟩ := ih hbound hsplit hkept hexpired hcount
          exact ⟨taken, left, hleft, step_reaches hstep hreach, hrest⟩

/-! ## An acquire -/

/-- Where no sweep has anything to evict, the queue stays as it is. -/
theorem acquire_reaches_of_kept (hopen : pool.closed = false) (hbound : pool.live < 2 ^ 64)
    (hkept : pool.live ≤ pool.config.minSize ∨
      ∀ entry ∈ pool.idle, idleTooLong pool.config world.clock entry = false) :
    ∃ pool', Reaches (alone server) (.acquireLock deadline, pool, world)
      (.popIdle deadline, pool', world) ∧ pool'.idle = pool.idle := by
  have hnot : ¬pool.closed = true := by simp [hopen]
  by_cases hearly : world.clock - pool.lastSweep < pool.config.idleSweepInterval
  · have hstep : alone server (.acquireLock deadline, pool, world) =
        some (.popIdle deadline, pool, world) := by
      simp only [alone, advance, if_true, if_neg hnot, beginSweep, if_pos hearly, Sweeper.goOn,
        Option.map_some]
    exact ⟨pool, step_reaches hstep .refl, rfl⟩
  · have hstep : alone server (.acquireLock deadline, pool, world) =
        some (.sweep (.acquire deadline) world.clock 0 [], { pool with lastSweep := world.clock },
          world) := by
      simp only [alone, advance, if_true, if_neg hnot, beginSweep, if_neg hearly, Option.map_some]
    obtain ⟨taken, left, hleft, hreach, -, htotal, -⟩ :=
      @sweep_reaches server { pool with lastSweep := world.clock } world (.acquire deadline)
        world.clock [] pool.idle [] hbound rfl (List.forall_mem_nil _) (Nat.zero_le _)
    have hsame : left = pool.idle := by
      rw [hleft]
      rcases hkept with hfloor | hrecent
      · change (List.eraseP _)^[pool.live - 0 - pool.config.minSize] _ = _
        rw [Nat.sub_zero, Nat.sub_eq_zero_of_le hfloor]
        rfl
      · exact iterate_eraseP_of_forall_not hrecent _
    have hnone : taken = [] := by
      rw [hsame] at htotal
      rw [← List.length_eq_zero_iff]
      change taken.length + _ = 0 + pool.idle.length at htotal
      omega
    rw [hnone] at hreach
    exact ⟨_, step_reaches hstep hreach, hsame⟩

/-- An acquire of an open pool comes to the front of the queue that its sweep leaves. -/
theorem acquire_reaches (hopen : pool.closed = false) (hbound : pool.live < 2 ^ 64) :
    ∃ pool' world', Reaches (alone server) (.acquireLock deadline, pool, world)
      (.popIdle deadline, pool', world') ∧ pool'.idle = pool.sweptIdle world.clock := by
  have hnot : ¬pool.closed = true := by simp [hopen]
  by_cases hearly : world.clock - pool.lastSweep < pool.config.idleSweepInterval
  · have hstep : alone server (.acquireLock deadline, pool, world) =
        some (.popIdle deadline, pool, world) := by
      simp only [alone, advance, if_true, if_neg hnot, beginSweep, if_pos hearly, Sweeper.goOn,
        Option.map_some]
    exact ⟨pool, world, step_reaches hstep .refl, (if_pos hearly).symm⟩
  · have hstep : alone server (.acquireLock deadline, pool, world) =
        some (.sweep (.acquire deadline) world.clock 0 [], { pool with lastSweep := world.clock },
          world) := by
      simp only [alone, advance, if_true, if_neg hnot, beginSweep, if_neg hearly, Option.map_some]
    obtain ⟨taken, left, hleft, hreach, htaken, -, hkept⟩ :=
      @sweep_reaches server { pool with lastSweep := world.clock } world (.acquire deadline)
        world.clock [] pool.idle [] hbound rfl (List.forall_mem_nil _) (Nat.zero_le _)
    have hswept : left = pool.sweptIdle world.clock := by
      rw [hleft, sweptIdle, if_neg hearly]
      rfl
    cases taken with
    | nil => exact ⟨_, world, step_reaches hstep hreach, hswept⟩
    | cons session rest =>
        -- the evicted sessions are counted and closed, and the acquire looks again
        let swept : SessionPool := { pool with
          idle := left, lastSweep := world.clock, live := fetchSub pool.live (rest.length + 1) }
        let later := (closeAll server (session :: rest) world).2
        have hcount : swept.live = pool.live - (rest.length + 1) := fetchSub_of_le htaken hbound
        have hclock : later.clock = world.clock := closeAll_clock _ world
        have hcounted : alone server (.sweepCount (.acquire deadline) (session :: rest),
            { pool with lastSweep := world.clock, idle := left }, world) =
            some (.closeExpired (.acquire deadline) (session :: rest), swept, world) := rfl
        have hclosed : alone server (.closeExpired (.acquire deadline) (session :: rest), swept,
            world) = some (.acquireLock deadline, swept, later) := rfl
        have hagain : swept.live ≤ swept.config.minSize ∨
            ∀ entry ∈ swept.idle, idleTooLong swept.config later.clock entry = false := by
          rw [hcount, hclock]
          exact hkept
        have hless : swept.live < 2 ^ 64 := by omega
        obtain ⟨last, hlast, hidle⟩ :=
          @acquire_reaches_of_kept server swept later deadline hopen hless hagain
        exact ⟨last, later, step_reaches hstep (hreach.trans
          (step_reaches hcounted (step_reaches hclosed hlast))), hidle.trans hswept⟩

/-- A dead session goes. -/
theorem popIdle_drops {entry : IdleEntry} {rest : List IdleEntry} (hidle : pool.idle = entry :: rest)
    (hdead : entry.session.isOpen = false) :
    Reaches (alone server) (.popIdle deadline, pool, world)
      (.popIdle deadline, { pool with idle := rest, live := fetchSub pool.live 1 }, world) := by
  have hpopped : alone server (.popIdle deadline, pool, world) =
      some (.dropDead deadline, { pool with idle := rest }, world) := by
    simp only [alone, advance, hidle, hdead, Bool.false_eq_true, if_false, Option.map_some]
  exact step_reaches hpopped (step_reaches rfl .refl)

theorem popIdle_finds {entry : IdleEntry}
    (h : pool.idle.find? (fun entry ↦ entry.session.isOpen) = some entry) :
    ∃ before rest, Reaches (alone server) (.popIdle deadline, pool, world)
        (.popIdle deadline, before, world) ∧ before.idle = entry :: rest := by
  generalize hidle : pool.idle = idle at h
  induction idle generalizing pool with
  | nil => cases h
  | cons head rest ih =>
      rw [List.find?_cons] at h
      split at h
      · cases h
        exact ⟨pool, rest, .refl, hidle⟩
      · rename_i hdead
        obtain ⟨before, last, hreach, hfront⟩ := @ih { pool with
          idle := rest, live := fetchSub pool.live 1 } rfl h
        exact ⟨before, last, (popIdle_drops hidle hdead).trans hreach, hfront⟩

/-- Where no session is open, all go. -/
theorem popIdle_runs_out (h : pool.idle.find? (fun entry ↦ entry.session.isOpen) = none) :
    ∃ pool', Reaches (alone server) (.popIdle deadline, pool, world)
        (.testCapacity deadline, pool', world) ∧ pool'.idle = [] := by
  generalize hidle : pool.idle = idle at h
  induction idle generalizing pool with
  | nil =>
      have hempty : alone server (.popIdle deadline, pool, world) =
          some (.testCapacity deadline, pool, world) := by
        simp only [alone, advance, hidle, Option.map_some]
      exact ⟨pool, step_reaches hempty .refl, hidle⟩
  | cons head rest ih =>
      rw [List.find?_cons] at h
      split at h
      · cases h
      · rename_i hdead
        obtain ⟨pool', hreach, hfront⟩ := @ih { pool with
          idle := rest, live := fetchSub pool.live 1 } rfl h
        exact ⟨pool', (popIdle_drops hidle hdead).trans hreach, hfront⟩

/-! ## One session for one operation -/

/-- The phases after a session was chosen. -/
@[simp] def Phase.chosen : Phase → Bool
  | .handOutUse .. | .held _ | .freeSlot _ | .notifyOne _ => true
  | _ => false

theorem alone_advances {st next : Phase × SessionPool × World} (h : alone server st = some next) :
    Advances server true st.2.1 st.2.2 st.1 next.1 next.2.1 next.2.2 := by
  obtain ⟨⟨phase, pool, world, dropped⟩, hadvance, rfl⟩ := Option.map_eq_some_iff.mp h
  exact advance_spec hadvance

/-- After its choice an operation chooses no more. -/
theorem reaches_of_chosen {st last : Phase × SessionPool × World}
    (h : Reaches (alone server) st last) (hst : Phase.chosen st.1 = true) :
    Phase.chosen last.1 = true := by
  induction h with
  | refl => exact hst
  | @tail mid last _ hstep ih =>
      obtain ⟨phase, pool, world⟩ := mid
      obtain ⟨phase', pool', world'⟩ := last
      cases alone_advances hstep with
      | handedOut | handedOutUsed | useFailed | slotFreed => rfl
      | _ => cases ih

theorem reaches_of_handOut {session : Session} {last : Phase × SessionPool × World}
    (h : Reaches (alone server) (.handOut session, pool, world) last) :
    last = (.handOut session, pool, world) ∨ Phase.chosen last.1 = true := by
  rcases h.cases_head with heq | ⟨next, hstep, hnext⟩
  · exact .inl heq.symm
  · cases hstep
    exact .inr (reaches_of_chosen hnext rfl)

/-- An operation does not choose twice. -/
theorem TakesIdle.unique {start : Phase × SessionPool × World} {session other : Session}
    {pool' : SessionPool} {world' : World} (h : TakesIdle server start session pool world)
    (hother : Reaches (alone server) start (.handOut other, pool', world')) : session = other := by
  obtain ⟨phase, before, hbefore, hstep, -⟩ := h
  have hchosen : Reaches (alone server) start (.handOut session, pool, world) := hbefore.tail hstep
  -- one of the two runs goes on where the other one ends
  rcases reaches_total hchosen hother with hlater | hlater
  · rcases reaches_of_handOut hlater with heq | hpast
    · cases heq
      rfl
    · cases hpast
  · rcases reaches_of_handOut hlater with heq | hpast
    · cases heq
      rfl
    · cases hpast

/-- Only a release fills an empty queue. -/
theorem advances_empty {free : Bool} {pool' : SessionPool} {world' : World} {phase phase' : Phase}
    (h : Advances server free pool world phase phase' pool' world') (hempty : pool.idle = [])
    (hphase : ∀ session, phase ≠ .releaseLock session) :
    pool'.idle = [] ∧ ∀ session, phase' ≠ .releaseLock session := by
  cases h with
  | devicePicked _ hpick =>
      have hlength := pickForDevice_length hpick
      simp [hempty] at hlength
  | devicePassed _ hpick =>
      have hlength := pickForDevice_length hpick
      rw [hempty] at hlength
      exact ⟨by simpa using hlength, by simp⟩
  | sweepTakes hentry => simp [hempty] at hentry
  | popOpen hidle | popDead hidle => simp [hempty] at hidle
  | released | releaseSweeps => exact absurd rfl (hphase _)
  | sweepDone | expiredClosed => exact ⟨hempty, by cases ‹Sweeper› <;> simp⟩
  | closes => exact ⟨rfl, by simp⟩
  | _ => exact ⟨hempty, by simp⟩

theorem reaches_of_empty {st last : Phase × SessionPool × World}
    (h : Reaches (alone server) st last) (hempty : st.2.1.idle = [])
    (hphase : ∀ session, st.1 ≠ .releaseLock session) :
    last.2.1.idle = [] ∧ ∀ session, last.1 ≠ .releaseLock session := by
  induction h with
  | refl => exact ⟨hempty, hphase⟩
  | tail _ hstep ih => exact advances_empty (alone_advances hstep) ih.1 ih.2

theorem not_takesIdle {start : Phase × SessionPool × World} {session : Session}
    {pool' : SessionPool} {world' : World}
    (h : Reaches (alone server) start (.testCapacity deadline, pool', world'))
    (hempty : pool'.idle = []) : ¬TakesIdle server start session pool world := by
  intro htakes
  obtain ⟨phase, before, hbefore, hstep, htaken⟩ := htakes
  rcases reaches_total h hbefore with hlater | hlater
  · -- the queue is empty from there on, so nothing can be taken out of it
    have hnone := (reaches_of_empty hlater hempty (by simp)).1
    change before.idle = [] at hnone
    rw [hnone] at htaken
    cases htaken
  · rcases hlater.cases_head with heq | ⟨next, hnext, hlast⟩
    · cases heq
      -- the capacity test chooses no session
      cases alone_advances hstep
    · obtain rfl : next = (.handOut session, pool, world) :=
        Option.mem_unique hnext hstep
      rcases reaches_of_handOut hlast with heq | hpast
      · cases heq
      · cases hpast

theorem takesIdle_step {start next : Phase × SessionPool × World} {session : Session}
    (hstep : alone server start = some next) (hnot : ∀ session, next.1 ≠ .handOut session) :
    TakesIdle server start session pool world ↔ TakesIdle server next session pool world := by
  constructor
  · intro h
    obtain ⟨phase, before, hbefore, htaken, hlength⟩ := h
    rcases hbefore.cases_head with heq | ⟨mid, hmid, hlater⟩
    · rw [heq, htaken] at hstep
      cases hstep
      exact absurd rfl (hnot session)
    · obtain rfl : mid = next := Option.mem_unique hmid hstep
      exact ⟨phase, before, hlater, htaken, hlength⟩
  · intro h
    obtain ⟨phase, before, hbefore, htaken⟩ := h
    exact ⟨phase, before, step_reaches hstep hbefore, htaken⟩

/-- An acquire of an open pool takes the first open session that the sweep leaves, and none if there
is none. -/
theorem acquire_takesIdle_iff (hopen : pool.closed = false) (hbound : pool.live < 2 ^ 64)
    {session : Session} :
    (∃ pool' world', TakesIdle server (.acquireLock deadline, pool, world) session pool' world') ↔
      (pool.nextOpen world.clock).map IdleEntry.session = some session := by
  obtain ⟨front, world', hfront, hidle⟩ :=
    @acquire_reaches server pool world deadline hopen hbound
  unfold nextOpen
  rw [← hidle]
  cases hfind : front.idle.find? (fun entry ↦ entry.session.isOpen) with
  | none =>
      obtain ⟨last, hlast, hempty⟩ := @popIdle_runs_out server front world' deadline hfind
      refine ⟨fun h ↦ ?_, nofun⟩
      obtain ⟨pool', world'', htakes⟩ := h
      exact absurd htakes (not_takesIdle (hfront.trans hlast) hempty)
  | some entry =>
      obtain ⟨before, rest, hbefore, hqueue⟩ :=
        @popIdle_finds server front world' deadline entry hfind
      have hopened : entry.session.isOpen = true := by simpa using List.find?_some hfind
      have hstep : alone server (.popIdle deadline, before, world') =
          some (.handOut entry.session, { before with idle := rest }, world') := by
        simp only [alone, advance, hqueue, hopened, if_true, Option.map_some]
      have hreach := hfront.trans hbefore
      have htakes : TakesIdle server (.acquireLock deadline, pool, world) entry.session
          { before with idle := rest } world' := by
        refine ⟨_, before, hreach, hstep, ?_⟩
        rw [hqueue]
        rfl
      constructor
      · intro h
        obtain ⟨pool', world'', hother⟩ := h
        have hsame := hother.unique (hreach.tail hstep)
        rw [hsame]
        rfl
      · intro h
        cases h
        exact ⟨_, world', htakes⟩

end SessionPool

end IotdbClient
