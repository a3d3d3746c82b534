import IotdbClient.Client.Owner
import IotdbClient.Library.Machine
import IotdbClient.Library.Tally

/-!
# The session pool

Any number of operations run at once.  An operation is the `Phase` it stands in, and one step takes
it to the next: a step reads or writes `live` at most once, and what it does to the idle queue it
does with the state lock held.  The methods of a session are one step each, since nobody else can
see the session meanwhile.

An operation holds the state lock exactly in the phases that `holdsLock` names.  The lock is taken in
one step with the first thing done under it, and given back in one step with the last.
-/

namespace IotdbClient

open Library Program

structure SessionPoolConfig where
  session : SessionConfig
  maxSize : Nat
  minSize : Nat
  acquireTimeout : Nat
  maxIdleTime : Nat
  idleSweepInterval : Nat
  /-- The sizes are `usize`. -/
  maxSize_lt : maxSize < 2 ^ 64
  minSize_lt : minSize < 2 ^ 64

namespace SessionPoolConfig

def default : SessionPoolConfig where
  session := .default
  maxSize := 8
  minSize := 0
  acquireTimeout := 60000
  maxIdleTime := 60000
  idleSweepInterval := 30000
  maxSize_lt := by decide
  minSize_lt := by decide

end SessionPoolConfig

structure IdleEntry where
  session : Session
  since : Nat

structure SessionPool where
  config : SessionPoolConfig
  idle : List IdleEntry
  closed : Bool
  lastSweep : Nat
  live : Nat
  database : Option String

/-- `PooledSession`. -/
structure Guard where
  owner : Owner
  /-- The session as it was handed out. -/
  handedOut : Session

/-- Who runs the idle sweep. -/
inductive Sweeper where
  | acquire (deadline : Nat)
  | release

/-- Where an operation stands. -/
inductive Phase where
  /-- `acquire_for_device`, at its lock. -/
  | deviceLock (deviceId : String)
  /-- `acquire`, at its lock: on entry, after closing expired sessions, or after a wait. -/
  | acquireLock (deadline : Nat)
  /-- The loop of `sweep_idle`. -/
  | sweep (sweeper : Sweeper) (now i : Nat) (expired : List Session)
  | sweepCount (sweeper : Sweeper) (expired : List Session)
  | closeExpired (sweeper : Sweeper) (expired : List Session)
  | popIdle (deadline : Nat)
  | dropDead (deadline : Nat)
  | testCapacity (deadline : Nat)
  | growSlot
  | openReadDatabase
  | openSession (database : Option String)
  /-- The capacity test has failed. -/
  | atCapacity (deadline : Nat)
  /-- Inside `wait_timeout`. -/
  | parked (deadline : Nat)
  | handOut (session : Session)
  | handOutUse (session : Session) (poolDb : Option String)
  /-- A slot is given back: `live` is to be decremented, without the lock. -/
  | freeSlot (outcome : Option (Fault Error))
  | notifyOne (outcome : Option (Fault Error))
  | held (guard : Guard)
  /-- `release` of a live session, at the state lock. -/
  | releaseLock (session : Session)
  | releaseClosed (session : Session)
  | closeReleased (session : Session)
  | closeLock
  | closeDrain (drained : List Session)
  | closeSessions (drained : List Session)
  | notifyAll
  | done (outcome : Option (Fault Error))

namespace Phase

@[simp] def holdsLock : Phase → Bool
  | sweep .. | sweepCount .. | popIdle _ | dropDead _ | testCapacity _ | growSlot | atCapacity _ => true
  | _ => false

@[simp] def isParked : Phase → Bool
  | parked _ => true
  | _ => false

/-- What `notify_all` does to an operation. -/
@[simp] def wake : Phase → Phase
  | parked deadline => acquireLock deadline
  | phase => phase

end Phase

/-- The phase after a sweep that found nothing. -/
@[simp] def Sweeper.goOn : Sweeper → Phase
  | acquire deadline => .popIdle deadline
  | release => .notifyOne none

/-- The phase after the expired sessions are closed. -/
@[simp] def Sweeper.goBack : Sweeper → Phase
  | acquire deadline => .acquireLock deadline
  | release => .notifyOne none

/-- `AtomicUsize::fetch_add`. -/
def fetchAdd (live n : Nat) : Nat := (live + n) % 2 ^ 64

/-- `AtomicUsize::fetch_sub`, and `-` on `usize` where overflow is not checked. -/
def fetchSub (live n : Nat) : Nat := (live + 2 ^ 64 - n) % 2 ^ 64

/-- `{:?}` of a `Duration` of whole milliseconds. -/
def durationDebug (millis : Nat) : String :=
  let digits := (toString (millis % 1000 + 1000)).toList.drop 1
  let fraction := String.ofList (digits.reverse.dropWhile (· = '0')).reverse
  if 1000 ≤ millis then
    if fraction = "" then s!"{millis / 1000}s" else s!"{millis / 1000}.{fraction}s"
  else if 0 < millis then s!"{millis}ms" else "0ns"

namespace SessionPool

def liveCount (pool : SessionPool) : Nat := pool.live

def idleCount (pool : SessionPool) : Nat := pool.idle.length

variable (server : Server)

/-! ## The parts of the operations -/

/-- `let _ = session.close();` for each.  The sessions go out of scope as this leaves them. -/
def closeAll : List Session → World → List Session × World
  | [], world => ([], world)
  | session :: rest, world =>
      let st := (Session.close server (session, world)).2
      let others := closeAll rest st.2
      (st.1 :: others.1, others.2)

/-- `open_session`, once the database has been read. -/
def openSession (pool : SessionPool) (database : Option String) (world : World) :
    Result Unit × Session × World :=
  Session.open server (Session.new { pool.config.session with database := database }, world)

/-- The head of `sweep_idle`. -/
def beginSweep (pool : SessionPool) (sweeper : Sweeper) (now : Nat) : Phase × SessionPool :=
  if now - pool.lastSweep < pool.config.idleSweepInterval then (sweeper.goOn, pool)
  else (.sweep sweeper now 0 [], { pool with lastSweep := now })

/-- The tail of `sweep_idle`. -/
def endSweep (sweeper : Sweeper) (expired : List Session) : Phase :=
  if expired.isEmpty then sweeper.goOn else .sweepCount sweeper expired

/-- One turn of the loop of `sweep_idle`. -/
def sweepTurn (pool : SessionPool) (sweeper : Sweeper) (now i : Nat) (expired : List Session) :
    Phase × SessionPool :=
  match pool.idle[i]? with
  | none => (endSweep sweeper expired, pool)
  | some entry =>
      if fetchSub pool.live expired.length ≤ pool.config.minSize then (endSweep sweeper expired, pool)
      else if pool.config.maxIdleTime < now - entry.since then
        (.sweep sweeper now i (expired ++ [entry.session]), { pool with idle := pool.idle.eraseIdx i })
      else (.sweep sweeper now (i + 1) expired, pool)

/-- `idle.iter_mut().find_map(|e| e.session.redirect_hint(device_id))`. -/
def findHint (deviceId : String) (now : Nat) : List IdleEntry → Option Endpoint × List IdleEntry
  | [] => (none, [])
  | entry :: rest =>
      match entry.session.redirectHint deviceId now with
      | (some endpoint, session) => (some endpoint, { entry with session := session } :: rest)
      | (none, session) =>
          let found := findHint deviceId now rest
          (found.1, { entry with session := session } :: found.2)

/-- `position` of a session connected to `endpoint`, and `remove`. -/
def takeConnected (endpoint : Endpoint) : List IdleEntry → Option (Session × List IdleEntry)
  | [] => none
  | entry :: rest =>
      if entry.session.isOpen && entry.session.currentEndpoint == some endpoint then
        some (entry.session, rest)
      else (takeConnected endpoint rest).map fun found ↦ (found.1, entry :: found.2)

/-- The locked block of `acquire_for_device`: the session it picks, and the idle queue after it. -/
def pickForDevice (pool : SessionPool) (deviceId : String) (now : Nat) :
    Option Session × List IdleEntry :=
  if pool.closed then (none, pool.idle)
  else
    let (hint, idle) := findHint deviceId now pool.idle
    match hint.bind fun endpoint ↦ takeConnected endpoint idle with
    | some (session, rest) => (some session, rest)
    | none => (none, idle)

def deadline (pool : SessionPool) (world : World) : Nat := world.clock + pool.config.acquireTimeout

def exhausted (pool : SessionPool) : Error :=
  .client <| s!"pool exhausted: no session available within " ++
    durationDebug pool.config.acquireTimeout ++ s!" ({pool.live} live, max {pool.config.maxSize})"

/-- The end of `hand_out`: the session catches up with the pool's database.  One that cannot goes out
of scope. -/
def useDatabase (session : Session) (poolDb : Option String) (world : World) :
    Phase × World × List Session :=
  match poolDb with
  | none => (.held ⟨⟨session, none⟩, session⟩, world, [])
  | some db =>
      if session.database = some db then (.held ⟨⟨session, none⟩, session⟩, world, [])
      else
        match Session.executeNonQuery server s!"USE {db}" (session, world) with
        | (.ok (), session', world') => (.held ⟨⟨session', none⟩, session'⟩, world', [])
        | (.error e, st) =>
            let shut := (Session.close server st).2
            (.freeSlot (some e), shut.2, [shut.1])

/-! ## Steps -/

/-- The next step of an operation that concerns no other, and the sessions that go out of scope in it,
as they are then; `free`: the state lock is free. -/
def advance (free : Bool) (phase : Phase) (pool : SessionPool) (world : World) :
    Option (Phase × SessionPool × World × List Session) :=
  match phase with
  | .deviceLock deviceId =>
      if free then
        match pool.pickForDevice deviceId world.clock with
        | (some session, idle) => some (.handOut session, { pool with idle := idle }, world, [])
        | (none, idle) =>
            some (.acquireLock (pool.deadline world), { pool with idle := idle }, world, [])
      else none
  | .acquireLock deadline =>
      if free then
        if pool.closed then
          some (.done (some (.error (.client "session pool is closed"))), pool, world, [])
        else
          let next := pool.beginSweep (.acquire deadline) world.clock
          some (next.1, next.2, world, [])
      else none
  | .sweep sweeper now i expired =>
      let next := pool.sweepTurn sweeper now i expired
      some (next.1, next.2, world, [])
  | .sweepCount sweeper expired =>
      some (.closeExpired sweeper expired,
        { pool with live := fetchSub pool.live expired.length }, world, [])
  | .closeExpired sweeper expired =>
      let shut := closeAll server expired world
      some (sweeper.goBack, pool, shut.2, shut.1)
  | .popIdle deadline =>
      match pool.idle with
      | [] => some (.testCapacity deadline, pool, world, [])
      | entry :: rest =>
          if entry.session.isOpen then
            some (.handOut entry.session, { pool with idle := rest }, world, [])
          else some (.dropDead deadline, { pool with idle := rest }, world, [entry.session])
  | .dropDead deadline =>
      some (.popIdle deadline, { pool with live := fetchSub pool.live 1 }, world, [])
  | .testCapacity deadline =>
      if pool.live < pool.config.maxSize then some (.growSlot, pool, world, [])
      else some (.atCapacity deadline, pool, world, [])
  | .growSlot => some (.openReadDatabase, { pool with live := fetchAdd pool.live 1 }, world, [])
  | .openReadDatabase => some (.openSession pool.database, pool, world, [])
  | .openSession database =>
      match pool.openSession server database world with
      | (.ok (), session, world) => some (.handOut session, pool, world, [])
      | (.error e, _, world) => some (.freeSlot (some e), pool, world, [])
  | .atCapacity deadline =>
      if deadline ≤ world.clock then some (.done (some (.error pool.exhausted)), pool, world, [])
      else some (.parked deadline, pool, world, [])
  | .handOut session => some (.handOutUse session pool.database, pool, world, [])
  | .handOutUse session poolDb =>
      let next := useDatabase server session poolDb world
      some (next.1, pool, next.2)
  | .freeSlot outcome =>
      some (.notifyOne outcome, { pool with live := fetchSub pool.live 1 }, world, [])
  | .releaseLock session =>
      if free then
        if pool.closed then some (.releaseClosed session, pool, world, [])
        else
          let pushed := { pool with idle := pool.idle ++ [IdleEntry.mk session world.clock] }
          let next := pushed.beginSweep .release world.clock
          some (next.1, next.2, world, [])
      else none
  | .releaseClosed session =>
      some (.closeReleased session, { pool with live := fetchSub pool.live 1 }, world, [])
  | .closeReleased session =>
      let shut := closeAll server [session] world
      some (.notifyOne none, pool, shut.2, shut.1)
  | .closeLock =>
      if free then
        some (.closeDrain (pool.idle.map (·.session)), { pool with closed := true, idle := [] },
          world, [])
      else none
  | .closeDrain drained =>
      some (.closeSessions drained,
        { pool with live := fetchSub pool.live drained.length }, world, [])
  | .closeSessions drained =>
      let shut := closeAll server drained world
      some (.notifyAll, pool, shut.2, shut.1)
  | .parked _ | .notifyOne _ | .held _ | .notifyAll | .done _ => none

/-- `release` up to the state lock: a dead session is discarded, a live one publishes its database. -/
def release (pool : SessionPool) (session : Session) : Phase × SessionPool :=
  if session.isOpen then
    (.releaseLock session, { pool with database := session.database.or pool.database })
  else (.freeSlot none, pool)

/-! ## New pools -/

/-- The eager loop of `new`; a pool that cannot be filled is dropped, which closes it. -/
def fill : Nat → SessionPool → World → Result SessionPool × World
  | 0, pool, world => (.ok pool, world)
  | n + 1, pool, world =>
      match pool.openSession server pool.database world with
      | (.ok (), session, world) =>
          fill n { pool with
            idle := pool.idle ++ [IdleEntry.mk session world.clock]
            live := fetchAdd pool.live 1 } world
      | (.error e, _, world) => (.error e, (closeAll server (pool.idle.map (·.session)) world).2)

def new (config : SessionPoolConfig) (world : World) : Result SessionPool × World :=
  if config.maxSize < config.minSize then
    (fail (.client s!"pool min_size ({config.minSize}) > max_size ({config.maxSize})"), world)
  else fill server config.minSize
    { config := config, idle := [], closed := false, lastSweep := world.clock, live := 0,
      database := config.session.database } world

end SessionPool

/-! ## The system -/

/-- The database that the call selected: a `USE` is an update whose response names one. -/
def Call.use : Call → Option String
  | ⟨_, _, .executeUpdate _, .ok resp⟩ => Session.usedDatabase (.ok resp)
  | _ => none

/-- The database of the last successful `USE` in a list of calls, newest first. -/
def lastUse (calls : List Call) : Option String := calls.findSome? Call.use

namespace Guard

/-- The calls made since the hand-out. -/
def calls (guard : Guard) : List Call :=
  guard.owner.session.trace.take (guard.owner.session.trace.length - guard.handedOut.trace.length)

/-- The database that the user of the guard selected. -/
def used (guard : Guard) : Option String := lastUse guard.calls

end Guard

/-- A pool and the operations on it. -/
structure PoolSystem where
  pool : SessionPool
  world : World
  ops : List Phase
  /-- The database of the last release that followed a `USE`.  No step reads it. -/
  selected : Option String

inductive PoolAction where
  | acquire
  | acquireForDevice (deviceId : String)
  | close
  /-- Operation `i` takes its next step. -/
  | advance (i : Nat)
  /-- The `notify_one` of operation `i` wakes operation `j`. -/
  | wakeOne (i j : Nat)
  /-- The wait of operation `i` ends by itself: its deadline, or a spurious wakeup. -/
  | wakeUp (i : Nat)
  /-- The user of guard `i` acts on its session. -/
  | use (i : Nat) (action : OwnerAction)
  | dropGuard (i : Nat)
  | tick (duration : Nat)

namespace PoolSystem

variable (server : Server)

def lockFree (s : PoolSystem) : Bool := s.ops.all fun phase ↦ !phase.holdsLock

def nobodyParked (s : PoolSystem) : Bool := s.ops.all fun phase ↦ !phase.isParked

def step (s : PoolSystem) : PoolAction → Option PoolSystem
  | .acquire => some { s with ops := s.ops ++ [.acquireLock (s.pool.deadline s.world)] }
  | .acquireForDevice deviceId => some { s with ops := s.ops ++ [.deviceLock deviceId] }
  | .close => some { s with ops := s.ops ++ [.closeLock] }
  | .advance i =>
      match s.ops[i]? with
      | some (.notifyOne outcome) =>
          if s.nobodyParked then some { s with ops := s.ops.set i (.done outcome) } else none
      | some .notifyAll => some { s with ops := (s.ops.set i (.done none)).map Phase.wake }
      | some phase =>
          (SessionPool.advance server s.lockFree phase s.pool s.world).map fun next ↦
            { s with pool := next.2.1, world := next.2.2.1, ops := s.ops.set i next.1 }
      | none => none
  | .wakeOne i j =>
      match s.ops[i]?, s.ops[j]? with
      | some (.notifyOne outcome), some (.parked deadline) =>
          some { s with ops := (s.ops.set i (.done outcome)).set j (.acquireLock deadline) }
      | _, _ => none
  | .wakeUp i =>
      match s.ops[i]? with
      | some (.parked deadline) => some { s with ops := s.ops.set i (.acquireLock deadline) }
      | _ => none
  | .use i action =>
      match s.ops[i]? with
      | some (.held guard) =>
          (Owner.act server action (guard.owner, s.world)).map fun next ↦
            { s with world := next.2, ops := s.ops.set i (.held { guard with owner := next.1 }) }
      | _ => none
  | .dropGuard i =>
      match s.ops[i]? with
      | some (.held guard) =>
          -- A result set borrows the guard, so it is gone by now.
          if guard.owner.dataSet.isSome then none
          else
            let next := s.pool.release guard.owner.session
            some { s with
              pool := next.2, ops := s.ops.set i next.1, selected := guard.used.or s.selected }
      | _ => none
  | .tick duration => some { s with world := { s.world with clock := s.world.clock + duration } }

/-- A pool from its creation on. -/
def machine (config : SessionPoolConfig) : Machine PoolSystem PoolAction where
  init s := s.ops = [] ∧ s.selected = config.session.database ∧
    ∃ world, SessionPool.new server config world = (.ok s.pool, s.world)
  step := step server

end PoolSystem

end IotdbClient
