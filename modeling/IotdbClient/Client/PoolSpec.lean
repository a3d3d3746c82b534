import IotdbClient.Client.Pool

/-!
# What one step of the pool can do

`Advances` lists the steps of a single operation and `Steps` those of the system, each with what is
known where it is taken.  Every invariant of the pool is a case analysis of these two.
-/

namespace IotdbClient

open Library Program

namespace SessionPool

/-- A step of an operation, from its phase, the pool and the world to the next ones. -/
inductive Advances (server : Server) (free : Bool) (pool : SessionPool) (world : World) :
    Phase → Phase → SessionPool → World → Prop where
  | devicePicked {deviceId : String} {session : Session} {idle : List IdleEntry}
      (hfree : free = true)
      (hpick : pool.pickForDevice deviceId world.clock = (some session, idle)) :
      Advances server free pool world (.deviceLock deviceId) (.handOut session)
        { pool with idle := idle } world
  | devicePassed {deviceId : String} {idle : List IdleEntry} (hfree : free = true)
      (hpick : pool.pickForDevice deviceId world.clock = (none, idle)) :
      Advances server free pool world (.deviceLock deviceId) (.acquireLock (pool.deadline world))
        { pool with idle := idle } world
  | acquireClosed {deadline : Nat} (hfree : free = true) (hclosed : pool.closed = true) :
      Advances server free pool world (.acquireLock deadline)
        (.done (some (.error (.client "session pool is closed")))) pool world
  | acquireEnters {deadline : Nat} (hfree : free = true) (hclosed : pool.closed = false) :
      Advances server free pool world (.acquireLock deadline) (.popIdle deadline) pool world
  | acquireSweeps {deadline : Nat} (hfree : free = true) (hclosed : pool.closed = false) :
      Advances server free pool world (.acquireLock deadline)
        (.sweep (.acquire deadline) world.clock 0 []) { pool with lastSweep := world.clock } world
  | sweepDone {sweeper : Sweeper} {now i : Nat} :
      Advances server free pool world (.sweep sweeper now i []) sweeper.goOn pool world
  | sweepStops {sweeper : Sweeper} {now i : Nat} {expired : List Session} :
      Advances server free pool world (.sweep sweeper now i expired) (.sweepCount sweeper expired)
        pool world
  | sweepTakes {sweeper : Sweeper} {now i : Nat} {expired : List Session} {entry : IdleEntry}
      (hentry : pool.idle[i]? = some entry) :
      Advances server free pool world (.sweep sweeper now i expired)
        (.sweep sweeper now i (expired ++ [entry.session])) { pool with idle := pool.idle.eraseIdx i }
        world
  | sweepSkips {sweeper : Sweeper} {now i : Nat} {expired : List Session} :
      Advances server free pool world (.sweep sweeper now i expired)
        (.sweep sweeper now (i + 1) expired) pool world
  | swept {sweeper : Sweeper} {expired : List Session} :
      Advances server free pool world (.sweepCount sweeper expired) (.closeExpired sweeper expired)
        { pool with live := fetchSub pool.live expired.length } world
  | expiredClosed {sweeper : Sweeper} {expired : List Session} :
      Advances server free pool world (.closeExpired sweeper expired) sweeper.goBack pool
        (closeAll server expired world).2
  | popEmpty {deadline : Nat} (hidle : pool.idle = []) :
      Advances server free pool world (.popIdle deadline) (.testCapacity deadline) pool world
  | popOpen {deadline : Nat} {entry : IdleEntry} {rest : List IdleEntry}
      (hidle : pool.idle = entry :: rest) (hopen : entry.session.isOpen = true) :
      Advances server free pool world (.popIdle deadline) (.handOut entry.session)
        { pool with idle := rest } world
  | popDead {deadline : Nat} {entry : IdleEntry} {rest : List IdleEntry}
      (hidle : pool.idle = entry :: rest) (hdead : entry.session.isOpen = false) :
      Advances server free pool world (.popIdle deadline) (.dropDead deadline)
        { pool with idle := rest } world
  | deadDropped {deadline : Nat} :
      Advances server free pool world (.dropDead deadline) (.popIdle deadline)
        { pool with live := fetchSub pool.live 1 } world
  | capacityLeft {deadline : Nat} (hlive : pool.live < pool.config.maxSize) :
      Advances server free pool world (.testCapacity deadline) .growSlot pool world
  | capacityFull {deadline : Nat} (hlive : pool.config.maxSize ≤ pool.live) :
      Advances server free pool world (.testCapacity deadline) (.atCapacity deadline) pool world
  | slotGrown :
      Advances server free pool world .growSlot .openReadDatabase
        { pool with live := fetchAdd pool.live 1 } world
  | databaseRead :
      Advances server free pool world .openReadDatabase (.openSession pool.database) pool world
  | opened {database : Option String} {session : Session} {world' : World}
      (hopen : pool.openSession server database world = (.ok (), session, world')) :
      Advances server free pool world (.openSession database) (.handOut session) pool world'
  | openFailed {database : Option String} {e : Fault Error} {session : Session} {world' : World}
      (hopen : pool.openSession server database world = (.error e, session, world')) :
      Advances server free pool world (.openSession database) (.freeSlot (some e)) pool world'
  | timedOut {deadline : Nat} :
      Advances server free pool world (.atCapacity deadline) (.done (some (.error pool.exhausted)))
        pool world
  | parks {deadline : Nat} :
      Advances server free pool world (.atCapacity deadline) (.parked deadline) pool world
  | handOutRead {session : Session} :
      Advances server free pool world (.handOut session) (.handOutUse session pool.database) pool
        world
  | handedOut {session : Session} {poolDb : Option String}
      (hin : ∀ db, poolDb = some db → session.database = some db) :
      Advances server free pool world (.handOutUse session poolDb)
        (.held ⟨⟨session, none⟩, session⟩) pool world
  | handedOutUsed {session session' : Session} {db : String} {world' : World}
      (huse : Session.executeNonQuery server s!"USE {db}" (session, world) =
        (.ok (), session', world')) :
      Advances server free pool world (.handOutUse session (some db))
        (.held ⟨⟨session', none⟩, session'⟩) pool world'
  | useFailed {session : Session} {db : String} {e : Fault Error} {st : Session × World}
      (hother : session.database ≠ some db)
      (huse : Session.executeNonQuery server s!"USE {db}" (session, world) = (.error e, st)) :
      Advances server free pool world (.handOutUse session (some db)) (.freeSlot (some e)) pool
        (Session.close server st).2.2
  | slotFreed {outcome : Option (Fault Error)} :
      Advances server free pool world (.freeSlot outcome) (.notifyOne outcome)
        { pool with live := fetchSub pool.live 1 } world
  | releaseFindsClosed {session : Session} (hfree : free = true) (hclosed : pool.closed = true) :
      Advances server free pool world (.releaseLock session) (.releaseClosed session) pool world
  | released {session : Session} (hfree : free = true) (hclosed : pool.closed = false) :
      Advances server free pool world (.releaseLock session) (.notifyOne none)
        { pool with idle := pool.idle ++ [⟨session, world.clock⟩] } world
  | releaseSweeps {session : Session} (hfree : free = true) (hclosed : pool.closed = false) :
      Advances server free pool world (.releaseLock session) (.sweep .release world.clock 0 [])
        { pool with idle := pool.idle ++ [⟨session, world.clock⟩], lastSweep := world.clock } world
  | releasedClosed {session : Session} :
      Advances server free pool world (.releaseClosed session) (.closeReleased session)
        { pool with live := fetchSub pool.live 1 } world
  | releasedShut {session : Session} :
      Advances server free pool world (.closeReleased session) (.notifyOne none) pool
        (closeAll server [session] world).2
  | closes (hfree : free = true) :
      Advances server free pool world .closeLock (.closeDrain (pool.idle.map (·.session)))
        { pool with closed := true, idle := [] } world
  | drained {drained : List Session} :
      Advances server free pool world (.closeDrain drained) (.closeSessions drained)
        { pool with live := fetchSub pool.live drained.length } world
  | drainedShut {drained : List Session} :
      Advances server free pool world (.closeSessions drained) .notifyAll pool
        (closeAll server drained world).2

variable {server : Server} {free : Bool} {pool pool' : SessionPool} {world world' : World}
  {phase phase' : Phase}

/-! ## Device-affine acquire -/

/-- The same entry, up to the hints of its session. -/
def Looked (entry entry' : IdleEntry) : Prop :=
  ∃ cache, entry' = { entry with session := { entry.session with redirectCache := cache } }

theorem looked_refl (idle : List IdleEntry) : List.Forall₂ Looked idle idle := by
  rw [List.forall₂_same]
  exact fun entry _ ↦ ⟨entry.session.redirectCache, rfl⟩

theorem findHint_looked (deviceId : String) (now : Nat) (idle : List IdleEntry) :
    List.Forall₂ Looked idle (findHint deviceId now idle).2 := by
  induction idle with
  | nil => exact .nil
  | cons entry rest ih =>
      have hentry : Looked entry
          { entry with session := (entry.session.redirectHint deviceId now).2 } := ⟨_, rfl⟩
      simp only [findHint]
      split
      · rename_i heq
        rw [heq] at hentry
        exact .cons hentry (looked_refl rest)
      · rename_i heq
        rw [heq] at hentry
        exact .cons hentry ih

theorem takeConnected_split {endpoint : Endpoint} {idle rest : List IdleEntry} {session : Session}
    (h : takeConnected endpoint idle = some (session, rest)) :
    ∃ front target back, idle = front ++ target :: back ∧ session = target.session ∧
      rest = front ++ back := by
  induction idle generalizing session rest with
  | nil => cases h
  | cons entry tail ih =>
      simp only [takeConnected] at h
      split at h
      · cases h
        exact ⟨[], entry, tail, rfl, rfl, rfl⟩
      · obtain ⟨⟨found, left⟩, hfound, heq⟩ := Option.map_eq_some_iff.mp h
        cases heq
        obtain ⟨front, target, back, rfl, hsession, rfl⟩ := ih hfound
        exact ⟨entry :: front, target, back, rfl, hsession, rfl⟩

/-- The queue is looked through, and one entry may be taken out of it. -/
theorem pickForDevice_cases {deviceId : String} {now : Nat} {picked : Option Session}
    {idle : List IdleEntry} (h : pool.pickForDevice deviceId now = (picked, idle)) :
    ∃ looked, List.Forall₂ Looked pool.idle looked ∧
      ((picked = none ∧ idle = looked) ∨ ∃ front target back, looked = front ++ target :: back ∧
        picked = some target.session ∧ idle = front ++ back) := by
  have hlooked := findHint_looked deviceId now pool.idle
  unfold pickForDevice at h
  split at h
  · cases h
    exact ⟨pool.idle, looked_refl _, .inl ⟨rfl, rfl⟩⟩
  · dsimp only at h
    split at h
    · rename_i session rest hbind
      obtain ⟨endpoint, -, htaken⟩ := Option.bind_eq_some_iff.mp hbind
      obtain ⟨front, target, back, hsplit, rfl, rfl⟩ := takeConnected_split htaken
      cases h
      exact ⟨_, hlooked, .inr ⟨front, target, back, hsplit, rfl, rfl⟩⟩
    · cases h
      exact ⟨_, hlooked, .inl ⟨rfl, rfl⟩⟩

/-! ## One step -/

theorem sweepTurn_spec (sweeper : Sweeper) (now i : Nat) (expired : List Session) :
    Advances server free pool world (.sweep sweeper now i expired)
      (pool.sweepTurn sweeper now i expired).1 (pool.sweepTurn sweeper now i expired).2 world := by
  have hend : Advances server free pool world (.sweep sweeper now i expired)
      (endSweep sweeper expired) pool world := by
    cases expired with
    | nil => exact .sweepDone
    | cons session rest => exact .sweepStops
  unfold sweepTurn
  split
  · exact hend
  · rename_i entry hentry
    split
    · exact hend
    · split
      · exact .sweepTakes hentry
      · exact .sweepSkips

theorem useDatabase_spec (session : Session) (poolDb : Option String) :
    Advances server free pool world (.handOutUse session poolDb)
      (useDatabase server session poolDb world).1 pool
      (useDatabase server session poolDb world).2.1 := by
  cases poolDb with
  | none => exact .handedOut nofun
  | some db =>
      simp only [useDatabase]
      split
      · rename_i hsame
        exact .handedOut fun _ heq ↦ hsame.trans heq
      · rename_i hother
        rcases huse : Session.executeNonQuery server s!"USE {db}" (session, world) with
          ⟨e | _, session', world'⟩
        · exact .useFailed hother huse
        · exact .handedOutUsed huse

theorem advance_spec {dropped : List Session}
    (h : advance server free phase pool world = some (phase', pool', world', dropped)) :
    Advances server free pool world phase phase' pool' world' := by
  cases phase with
  | deviceLock deviceId =>
      simp only [advance] at h
      split at h
      · rename_i hfree
        rcases hpick : pool.pickForDevice deviceId world.clock with ⟨_ | session, idle⟩ <;>
          rw [hpick] at h <;> cases h
        · exact .devicePassed hfree hpick
        · exact .devicePicked hfree hpick
      · cases h
  | acquireLock deadline =>
      simp only [advance, beginSweep] at h
      split at h
      · rename_i hfree
        split at h
        · rename_i hclosed
          cases h
          exact .acquireClosed hfree hclosed
        · rename_i hclosed
          have hopen : pool.closed = false := by simpa using hclosed
          split at h <;> cases h
          · exact .acquireEnters hfree hopen
          · exact .acquireSweeps hfree hopen
      · cases h
  | sweep sweeper now i expired =>
      cases h
      exact sweepTurn_spec sweeper now i expired
  | sweepCount sweeper expired =>
      cases h
      exact .swept
  | closeExpired sweeper expired =>
      cases h
      exact .expiredClosed
  | popIdle deadline =>
      simp only [advance] at h
      split at h
      · rename_i hidle
        cases h
        exact .popEmpty hidle
      · rename_i entry rest hidle
        split at h <;> cases h
        · rename_i hopen
          exact .popOpen hidle hopen
        · rename_i hdead
          exact .popDead hidle (by simpa using hdead)
  | dropDead deadline =>
      cases h
      exact .deadDropped
  | testCapacity deadline =>
      simp only [advance] at h
      split at h <;> cases h
      · rename_i hlive
        exact .capacityLeft hlive
      · rename_i hlive
        exact .capacityFull (Nat.not_lt.mp hlive)
  | growSlot =>
      cases h
      exact .slotGrown
  | openReadDatabase =>
      cases h
      exact .databaseRead
  | openSession database =>
      simp only [advance] at h
      rcases hopen : pool.openSession server database world with ⟨e | _, session, world'⟩ <;>
        rw [hopen] at h <;> cases h
      · exact .openFailed hopen
      · exact .opened hopen
  | atCapacity deadline =>
      simp only [advance] at h
      split at h <;> cases h
      · exact .timedOut
      · exact .parks
  | handOut session =>
      cases h
      exact .handOutRead
  | handOutUse session poolDb =>
      have hspec := @useDatabase_spec server free pool world session poolDb
      simp only [advance, Option.some.injEq, Prod.mk.injEq] at h
      obtain ⟨rfl, rfl, hnext⟩ := h
      rw [hnext] at hspec
      exact hspec
  | freeSlot outcome =>
      cases h
      exact .slotFreed
  | releaseLock session =>
      simp only [advance, beginSweep] at h
      split at h
      · rename_i hfree
        split at h
        · rename_i hclosed
          cases h
          exact .releaseFindsClosed hfree hclosed
        · rename_i hclosed
          have hopen : pool.closed = false := by simpa using hclosed
          split at h <;> cases h
          · exact .released hfree hopen
          · exact .releaseSweeps hfree hopen
      · cases h
  | releaseClosed session =>
      cases h
      exact .releasedClosed
  | closeReleased session =>
      cases h
      exact .releasedShut
  | closeLock =>
      simp only [advance] at h
      split at h
      · rename_i hfree
        cases h
        exact .closes hfree
      · cases h
  | closeDrain drained =>
      cases h
      exact .drained
  | closeSessions drained =>
      cases h
      exact .drainedShut
  | parked | notifyOne | held | notifyAll | done => cases h

/-! ## New pools -/

variable (server) in
/-- A pool with one more idle session. -/
theorem fill_keeps {I : Nat → SessionPool → Prop} {n : Nat}
    (hopened : ∀ n pool world session world', I (n + 1) pool →
      pool.openSession server pool.database world = (.ok (), session, world') →
      I n { pool with
        idle := pool.idle ++ [⟨session, world'.clock⟩], live := fetchAdd pool.live 1 })
    (h : fill server n pool world = (.ok pool', world')) (hpool : I n pool) : I 0 pool' := by
  induction n generalizing pool world with
  | zero =>
      cases h
      exact hpool
  | succ n ih =>
      simp only [fill] at h
      rcases hopen : pool.openSession server pool.database world with ⟨e | _, session, later⟩ <;>
        rw [hopen] at h
      · cases h
      · exact ih h (hopened n pool world session later hpool hopen)

end SessionPool

/-! ## The system -/

namespace PoolSystem

/-- A step of the system. -/
inductive Steps (server : Server) (s : PoolSystem) : PoolAction → PoolSystem → Prop where
  | acquires :
      Steps server s .acquire { s with ops := s.ops ++ [.acquireLock (s.pool.deadline s.world)] }
  | acquiresForDevice {deviceId : String} :
      Steps server s (.acquireForDevice deviceId) { s with ops := s.ops ++ [.deviceLock deviceId] }
  | closes : Steps server s .close { s with ops := s.ops ++ [.closeLock] }
  | advances {i : Nat} {phase phase' : Phase} {pool : SessionPool} {world : World}
      (hget : s.ops[i]? = some phase)
      (h : SessionPool.Advances server s.lockFree s.pool s.world phase phase' pool world) :
      Steps server s (.advance i) { s with pool := pool, world := world, ops := s.ops.set i phase' }
  | notifiesNobody {i : Nat} {outcome : Option (Fault Error)}
      (hget : s.ops[i]? = some (.notifyOne outcome)) (hnobody : s.nobodyParked = true) :
      Steps server s (.advance i) { s with ops := s.ops.set i (.done outcome) }
  | notifiesAll {i : Nat} (hget : s.ops[i]? = some .notifyAll) :
      Steps server s (.advance i) { s with ops := (s.ops.set i (.done none)).map Phase.wake }
  | wakesOne {i j : Nat} {outcome : Option (Fault Error)} {deadline : Nat}
      (hget : s.ops[i]? = some (.notifyOne outcome))
      (hparked : (s.ops.set i (.done outcome))[j]? = some (.parked deadline)) :
      Steps server s (.wakeOne i j)
        { s with ops := (s.ops.set i (.done outcome)).set j (.acquireLock deadline) }
  | wakesUp {i : Nat} {deadline : Nat} (hget : s.ops[i]? = some (.parked deadline)) :
      Steps server s (.wakeUp i) { s with ops := s.ops.set i (.acquireLock deadline) }
  | uses {i : Nat} {guard : Guard} {action : OwnerAction} {owner : Owner} {world : World}
      (hget : s.ops[i]? = some (.held guard))
      (hact : Owner.act server action (guard.owner, s.world) = some (owner, world)) :
      Steps server s (.use i action)
        { s with world := world, ops := s.ops.set i (.held { guard with owner := owner }) }
  | dropsOpen {i : Nat} {guard : Guard} (hget : s.ops[i]? = some (.held guard))
      (hopen : guard.owner.session.isOpen = true) :
      Steps server s (.dropGuard i)
        { s with
          pool := { s.pool with database := guard.owner.session.database.or s.pool.database }
          ops := s.ops.set i (.releaseLock guard.owner.session)
          selected := guard.used.or s.selected }
  | dropsDead {i : Nat} {guard : Guard} (hget : s.ops[i]? = some (.held guard))
      (hdead : guard.owner.session.isOpen = false) :
      Steps server s (.dropGuard i)
        { s with ops := s.ops.set i (.freeSlot none), selected := guard.used.or s.selected }
  | ticks {duration : Nat} :
      Steps server s (.tick duration)
        { s with world := { s.world with clock := s.world.clock + duration } }

variable {server : Server} {s s' : PoolSystem} {action : PoolAction}

theorem step_spec (h : step server s action = some s') : Steps server s action s' := by
  cases action with
  | acquire =>
      cases h
      exact .acquires
  | acquireForDevice deviceId =>
      cases h
      exact .acquiresForDevice
  | close =>
      cases h
      exact .closes
  | advance i =>
      simp only [step] at h
      split at h
      · rename_i outcome hget
        split at h <;> cases h
        rename_i hnobody
        exact .notifiesNobody hget hnobody
      · rename_i hget
        cases h
        exact .notifiesAll hget
      · rename_i phase _ _ hget
        obtain ⟨⟨phase', pool, world, dropped⟩, hadvance, rfl⟩ := Option.map_eq_some_iff.mp h
        exact .advances hget (SessionPool.advance_spec hadvance)
      · cases h
  | wakeOne i j =>
      simp only [step] at h
      split at h <;> cases h
      rename_i outcome deadline hget hparked
      refine .wakesOne hget ?_
      -- The two operations stand in different phases, so they are two.
      have hne : i ≠ j := by
        rintro rfl
        rw [hget] at hparked
        cases hparked
      rw [List.getElem?_set_ne hne]
      exact hparked
  | wakeUp i =>
      simp only [step] at h
      split at h <;> cases h
      rename_i deadline hget
      exact .wakesUp hget
  | use i action =>
      simp only [step] at h
      split at h
      · rename_i guard hget
        obtain ⟨⟨owner, world⟩, hact, rfl⟩ := Option.map_eq_some_iff.mp h
        exact .uses hget hact
      · cases h
  | dropGuard i =>
      simp only [step, SessionPool.release] at h
      split at h
      · rename_i guard hget
        split at h
        · cases h
        · cases hopen : guard.owner.session.isOpen <;> rw [hopen] at h <;> cases h
          · exact .dropsDead hget hopen
          · exact .dropsOpen hget hopen
      · cases h
  | tick duration =>
      cases h
      exact .ticks

end PoolSystem

end IotdbClient
