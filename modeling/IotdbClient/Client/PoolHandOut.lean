import IotdbClient.Client.PoolDatabase

/-!
# Catching up on hand-out

A session that comes out of the idle queue may be in another database than the pool.  `hand_out` reads
the pool's database and runs a `USE` where the two differ.  A session in a database while the pool is
in none would be handed out as it is; there is no such session, because nobody releases one without
telling the pool.
-/

namespace IotdbClient

open Library Program

namespace Session

variable {server : Server} {st after : Session × World}

end Session

/-- The pool has a database wherever the session does. -/
def Session.Known (poolDb : Option String) (session : Session) : Prop :=
  session.database.isSome = true → poolDb.isSome = true

/-- The sessions that may go back to the queue, or are on their way out of it, are known. -/
def Phase.Known (poolDb : Option String) : Phase → Prop
  | handOut session | releaseLock session => session.Known poolDb
  | openSession database => database.isSome = true → poolDb.isSome = true
  | handOutUse session readDb => session.Known readDb
  | _ => True

theorem Phase.Known.mono {poolDb poolDb' : Option String} {phase : Phase}
    (hdb : poolDb.isSome = true → poolDb'.isSome = true) (h : phase.Known poolDb) :
    phase.Known poolDb' := by
  cases phase with
  | handOut session | releaseLock session | openSession session => exact fun hsome ↦ hdb (h hsome)
  | handOutUse session readDb => exact h
  | _ => trivial

theorem Phase.Known.wake {poolDb : Option String} {phase : Phase} (h : phase.Known poolDb) :
    phase.wake.Known poolDb := by
  cases phase <;> exact h

namespace SessionPool

variable {server : Server} {free : Bool} {pool pool' : SessionPool} {world world' : World}
  {phase phase' : Phase}

theorem openSession_database {database : Option String} {session : Session}
    (h : pool.openSession server database world = (.ok (), session, world')) :
    session.database = database := by
  have hnew : (Session.new { pool.config.session with database := database }).connection = none := rfl
  have hopen := Session.open_spec server hnew (Session.new { pool.config.session with
    database := database }, world) rfl
  rw [show Session.open server (Session.new { pool.config.session with database := database }, world) =
    (.ok (), session, world') from h] at hopen
  obtain ⟨_, -, _, hhandshaking, -⟩ := hopen
  exact hhandshaking.database

/-- The sessions of the queue are known. -/
def Known (pool : SessionPool) : Prop := ∀ entry ∈ pool.idle, entry.session.Known pool.database

theorem looked_known {poolDb : Option String} {idle looked : List IdleEntry}
    (h : List.Forall₂ Looked idle looked) (hidle : ∀ entry ∈ idle, entry.session.Known poolDb) :
    ∀ entry ∈ looked, entry.session.Known poolDb := by
  induction h with
  | nil => exact List.forall_mem_nil _
  | cons hentry _ ih =>
      rw [List.forall_mem_cons] at hidle ⊢
      obtain ⟨cache, rfl⟩ := hentry
      exact ⟨hidle.1, ih hidle.2⟩

/-- Only the hand-out puts a session into another database, and it asks the pool first. -/
theorem advances_known (h : Advances server free pool world phase phase' pool' world')
    (hpool : pool.Known) (hphase : phase.Known pool.database) :
    pool'.Known ∧ phase'.Known pool'.database := by
  cases h with
  | devicePicked _ hpick =>
      obtain ⟨looked, hlooked, ⟨hnone, -⟩ | ⟨front, target, back, rfl, hsome, rfl⟩⟩ :=
        pickForDevice_cases hpick
      · cases hnone
      · cases hsome
        have hknown := looked_known hlooked hpool
        simp only [List.forall_mem_append, List.forall_mem_cons] at hknown
        exact ⟨List.forall_mem_append.mpr ⟨hknown.1, hknown.2.2⟩, hknown.2.1⟩
  | devicePassed _ hpick =>
      obtain ⟨looked, hlooked, ⟨-, rfl⟩ | ⟨_, _, _, -, hsome, -⟩⟩ := pickForDevice_cases hpick
      · exact ⟨looked_known hlooked hpool, trivial⟩
      · cases hsome
  | sweepDone | expiredClosed => cases ‹Sweeper› <;> exact ⟨hpool, trivial⟩
  | sweepTakes =>
      exact ⟨fun entry hentry ↦ hpool entry (List.mem_of_mem_eraseIdx hentry), trivial⟩
  | popOpen hidle =>
      have hknown := hpool
      rw [Known, hidle, List.forall_mem_cons] at hknown
      exact ⟨hknown.2, hknown.1⟩
  | popDead hidle =>
      have hknown := hpool
      rw [Known, hidle, List.forall_mem_cons] at hknown
      exact ⟨hknown.2, trivial⟩
  | databaseRead => exact ⟨hpool, id⟩
  | opened hopen =>
      refine ⟨hpool, fun hsome ↦ hphase ?_⟩
      rwa [openSession_database hopen] at hsome
  | handOutRead => exact ⟨hpool, hphase⟩
  | released | releaseSweeps =>
      exact ⟨List.forall_mem_append.mpr ⟨hpool, List.forall_mem_singleton.mpr hphase⟩, trivial⟩
  | closes => exact ⟨List.forall_mem_nil _, trivial⟩
  | _ => exact ⟨fun entry hentry ↦ hpool entry hentry, trivial⟩

end SessionPool

namespace PoolSystem

variable {server : Server} {s s' : PoolSystem} {action : PoolAction} {config : SessionPoolConfig}

/-- Every session that the pool has or is about to have is known. -/
structure Tracked (s : PoolSystem) : Prop where
  pool : s.pool.Known
  ops : ∀ phase ∈ s.ops, phase.Known s.pool.database

theorem Tracked.moves {i : Nat} {phase' : Phase} (hs : s.Tracked)
    (hphase : phase'.Known s.pool.database) : ∀ phase ∈ s.ops.set i phase', phase.Known s.pool.database :=
  forall_mem_set hs.ops hphase

theorem Tracked.step (hs : s.Tracked) (h : Steps server s action s') : s'.Tracked := by
  cases h with
  | acquires | acquiresForDevice | closes =>
      exact ⟨hs.pool, List.forall_mem_append.mpr ⟨hs.ops, List.forall_mem_singleton.mpr trivial⟩⟩
  | advances hget h =>
      have hknown := SessionPool.advances_known h hs.pool (hs.ops _ (List.mem_of_getElem? hget))
      refine ⟨hknown.1, forall_mem_set (fun phase hphase ↦ ?_) hknown.2⟩
      rw [SessionPool.advances_database h]
      exact hs.ops phase hphase
  | notifiesNobody => exact ⟨hs.pool, hs.moves trivial⟩
  | @notifiesAll i =>
      have hdone : ∀ phase ∈ s.ops.set i (.done none), phase.Known s.pool.database :=
        hs.moves trivial
      refine ⟨hs.pool, fun phase hphase ↦ ?_⟩
      obtain ⟨before, hbefore, rfl⟩ := List.mem_map.mp hphase
      exact (hdone before hbefore).wake
  | @wakesOne i j outcome =>
      have hdone : ∀ phase ∈ s.ops.set i (.done outcome), phase.Known s.pool.database :=
        hs.moves trivial
      exact ⟨hs.pool, forall_mem_set hdone trivial⟩
  | wakesUp | uses | dropsDead => exact ⟨hs.pool, hs.moves trivial⟩
  | @dropsOpen i guard hget hopen =>
      -- the session's database becomes the pool's
      have hdb : s.pool.database.isSome = true →
          (guard.owner.session.database.or s.pool.database).isSome = true := by
        intro hsome
        rw [Option.isSome_or, hsome, Bool.or_true]
      have hreleased : guard.owner.session.Known
          (guard.owner.session.database.or s.pool.database) := by
        intro hsome
        rw [Option.isSome_or, hsome, Bool.true_or]
      exact ⟨fun entry hentry hsome ↦ hdb (hs.pool entry hentry hsome),
        forall_mem_set (fun phase hphase ↦ (hs.ops phase hphase).mono hdb) hreleased⟩
  | ticks => exact ⟨hs.pool, hs.ops⟩

end PoolSystem

end IotdbClient
