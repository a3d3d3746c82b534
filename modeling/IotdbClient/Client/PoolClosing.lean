import IotdbClient.Client.PoolDatabase
import IotdbClient.Library.Ledger

/-!
# Closing the pool

Once `close` has set its flag nothing enters the idle queue, and nobody who comes later is handed a
session.  The sessions that were in other hands at that moment are followed with a ledger beside the
system: it lists the sessions that `open_session` returned and those that went out of scope, as the
step that dropped them left them.
-/

namespace IotdbClient

open Library Program

/-! ## Sessions over time -/

namespace Session

variable {server : Server} {site : CallSite}

/-- The same session, some calls later. -/
def Continues (before after : Session) : Prop := before.trace <:+ after.trace

instance : Std.Refl Continues := ⟨fun _ ↦ List.suffix_rfl⟩

instance : IsTrans Session Continues := ⟨fun _ _ _ ↦ List.IsSuffix.trans⟩

theorem step_continues {st after : Session × World} (h : Step server site st after) :
    Continues st.1 after.1 := by
  obtain ⟨new, htrace, -⟩ := step_selected h
  exact ⟨new, htrace.symm⟩

variable (server) in
theorem close_continues (session : Session) (world : World) :
    Continues session (Session.close server (session, world)).2.1 := by
  have hstep : Step server .single (session, world) (Session.close server (session, world)).2 :=
    close_step (session, world)
  exact step_continues hstep

theorem close_isOpen (st : Session × World) : (Session.close server st).2.1.isOpen = false := by
  simp only [Session.close, bind_apply, self_apply]
  cases hconn : st.1.connection with
  | none => simp [isOpen, hconn]
  | some connection =>
      simp only [update_apply, bind_apply, attempt_apply, call_state]
      rfl

/-- Each session of one list goes on as one of the other. -/
def Moved (before after : List Session) : Prop :=
  Multiset.Rel Continues (before : Multiset Session) (after : Multiset Session)

theorem Moved.of_perm {before after : List Session} (h : before.Perm after) : Moved before after := by
  unfold Moved
  rw [Multiset.coe_eq_coe.mpr h]
  exact Multiset.rel_refl_of_refl_on fun session _ ↦ Std.Refl.refl session

theorem Moved.cons {before after : List Session} {session later : Session}
    (hsession : Continues session later) (h : Moved before after) :
    Moved (session :: before) (later :: after) := Multiset.Rel.cons hsession h

theorem Moved.append {before before' after after' : List Session} (h : Moved before before')
    (h' : Moved after after') : Moved (before ++ after) (before' ++ after') := by
  unfold Moved at h h' ⊢
  rw [← Multiset.coe_add, ← Multiset.coe_add]
  exact h.add h'

theorem Moved.trans {first second third : List Session} (h : Moved first second)
    (h' : Moved second third) : Moved first third := Multiset.Rel.trans Continues h h'

end Session

open Session

/-- The sessions in the hands of an operation. -/
@[simp] def Phase.sessions : Phase → List Session
  | handOut session | handOutUse session _ => [session]
  | releaseLock session | releaseClosed session | closeReleased session => [session]
  | held guard => [guard.owner.session]
  | sweep _ _ _ sessions | sweepCount _ sessions | closeExpired _ sessions => sessions
  | closeDrain sessions | closeSessions sessions => sessions
  | _ => []

namespace SessionPool

variable (server : Server)

def sessions (pool : SessionPool) : List Session := pool.idle.map (·.session)

/-- The session that the next step of an operation opens. -/
def opening (phase : Phase) (pool : SessionPool) (world : World) : List Session :=
  match phase with
  | .openSession database =>
      match pool.openSession server database world with
      | (.ok (), session, _) => [session]
      | (.error _, _) => []
  | _ => []

/-- The sessions that the next step of an operation lets go: it closes them, or finds them closed. -/
def closing (phase : Phase) (pool : SessionPool) (world : World) : List Session :=
  match phase with
  | .closeExpired _ sessions | .closeSessions sessions => (closeAll server sessions world).1
  | .closeReleased session => (closeAll server [session] world).1
  | .popIdle _ =>
      match pool.idle with
      | [] => []
      | entry :: _ => if entry.session.isOpen then [] else [entry.session]
  | .handOutUse session poolDb => (useDatabase server session poolDb world).2.2
  | _ => []

variable {server} {free : Bool} {pool pool' : SessionPool} {world world' : World}
  {phase phase' : Phase}

/-- What a step drops is what it lets go. -/
theorem advance_dropped {dropped : List Session}
    (h : advance server free phase pool world = some (phase', pool', world', dropped)) :
    dropped = closing server phase pool world := by
  cases phase with
  | closeExpired | closeReleased | closeSessions =>
      simp only [advance, Option.some.injEq, Prod.mk.injEq] at h
      exact h.2.2.2.symm
  | handOutUse session poolDb =>
      simp only [advance, Option.some.injEq, Prod.mk.injEq] at h
      exact (congrArg Prod.snd h.2.2).symm
  | popIdle deadline =>
      cases hidle : pool.idle with
      | nil =>
          simp only [advance, hidle] at h
          cases h
          simp only [closing, hidle]
      | cons entry rest =>
          simp only [advance, hidle] at h
          simp only [closing, hidle]
          split at h
          all_goals cases h
          · rename_i hopen
            rw [if_pos hopen]
          · rename_i hdead
            rw [if_neg hdead]
  | deviceLock | acquireLock | testCapacity | openSession | atCapacity | releaseLock | closeLock =>
      -- nothing goes out of scope, whichever way these go on
      simp only [advance] at h
      repeat' split at h
      all_goals cases h
      all_goals rfl
  | sweep | sweepCount | dropDead | growSlot | openReadDatabase | handOut | freeSlot | releaseClosed |
      closeDrain =>
      cases h
      rfl
  | parked | notifyOne | held | notifyAll | done => cases h

theorem closeAll_moved (sessions : List Session) (world : World) :
    Moved sessions (closeAll server sessions world).1 := by
  induction sessions generalizing world with
  | nil => exact Multiset.Rel.zero
  | cons session rest ih => exact .cons (close_continues server session world) (ih _)

theorem closeAll_closed (sessions : List Session) (world : World) :
    ∀ session ∈ (closeAll server sessions world).1, session.isOpen = false := by
  induction sessions generalizing world with
  | nil => exact List.forall_mem_nil _
  | cons session rest ih => exact List.forall_mem_cons.mpr ⟨close_isOpen _, ih _⟩

/-- Looking for a hint goes on with every session. -/
theorem looked_moved {idle looked : List IdleEntry} (h : List.Forall₂ Looked idle looked) :
    Moved (idle.map (·.session)) (looked.map (·.session)) := by
  induction h with
  | nil => exact Multiset.Rel.zero
  | cons hentry _ ih =>
      obtain ⟨cache, rfl⟩ := hentry
      exact .cons List.suffix_rfl ih

theorem pickForDevice_moved {deviceId : String} {now : Nat} {picked : Option Session}
    {idle : List IdleEntry} (h : pool.pickForDevice deviceId now = (picked, idle)) :
    Moved pool.sessions (idle.map (·.session) ++ picked.toList) := by
  obtain ⟨looked, hlooked, ⟨rfl, rfl⟩ | ⟨front, target, back, rfl, rfl, rfl⟩⟩ := pickForDevice_cases h
  · rw [Option.toList_none, List.append_nil]
    exact looked_moved hlooked
  · have htaken : ((front ++ target :: back).map (·.session)).Perm
        ((front ++ back).map (·.session) ++ [target.session]) := by
      rw [List.map_append, List.map_append, List.map_cons, List.append_assoc]
      exact (List.perm_append_singleton _ _).symm.append_left _
    exact (looked_moved hlooked).trans (.of_perm htaken)

/-- A step of an operation hands every session on: what was in the queue, in its hands or is opened by
it is in the queue, in its hands or let go by it. -/
theorem advances_moved (h : Advances server free pool world phase phase' pool' world') :
    Moved (pool.sessions ++ phase.sessions ++ opening server phase pool world)
      (pool'.sessions ++ phase'.sessions ++ closing server phase pool world) := by
  have hsame : ∀ xs : List Session, Moved xs xs := fun xs ↦ .of_perm (.refl xs)
  cases h with
  | devicePicked _ hpick | devicePassed _ hpick =>
      simpa [sessions, opening, closing] using pickForDevice_moved hpick
  | sweepDone =>
      cases ‹Sweeper› <;> simp only [sessions, Phase.sessions, Sweeper.goOn, opening, closing] <;>
        exact hsame _
  | @sweepTakes _ _ i expired _ hentry =>
      obtain ⟨hlt, rfl⟩ := List.getElem?_eq_some_iff.mp hentry
      have hperm := (List.getElem_cons_eraseIdx_perm hlt).map IdleEntry.session
      simp only [sessions, Phase.sessions, opening, closing, List.append_nil]
      -- the entry goes from the middle of the queue to the end of the expired sessions
      refine .of_perm ((hperm.symm.append_right expired).trans ?_)
      rw [List.map_cons, ← List.append_assoc]
      exact (List.perm_append_singleton _ _).symm
  | @expiredClosed sweeper expired =>
      -- the expired sessions are let go together
      have hback : sweeper.goBack.sessions = [] := by cases sweeper <;> rfl
      rw [hback]
      simp only [Phase.sessions, opening, closing, List.append_nil]
      exact (hsame _).append (closeAll_moved expired world)
  | popEmpty hidle =>
      simp only [sessions, Phase.sessions, opening, closing, hidle]
      exact hsame _
  | popOpen hidle hopen =>
      simp only [sessions, Phase.sessions, opening, closing, hidle, hopen, if_true, List.append_nil]
      exact .of_perm (List.perm_append_singleton _ _).symm
  | popDead hidle hdead =>
      simp only [sessions, Phase.sessions, opening, closing, hidle, hdead, Bool.false_eq_true,
        if_false, List.append_nil]
      exact .of_perm (List.perm_append_singleton _ _).symm
  | opened hopen =>
      simp only [Phase.sessions, opening, closing, hopen, List.append_nil]
      exact hsame _
  | openFailed hopen =>
      simp only [Phase.sessions, opening, closing, hopen]
      exact hsame _
  | @handedOut session poolDb hin =>
      cases poolDb with
      | none =>
          simp only [Phase.sessions, opening, closing]
          exact hsame _
      | some db =>
          simp only [Phase.sessions, opening, closing, useDatabase, hin db rfl, if_true]
          exact hsame _
  | @handedOutUsed session session' db _ huse =>
      have hstep : Step server .single (session, world)
          (Session.executeNonQuery server s!"USE {db}" (session, world)).2 :=
        executeNonQuery_step _ _
      rw [huse] at hstep
      -- the USE went well, so the session is kept
      have hnone : closing server (.handOutUse session (some db)) pool world = [] := by
        simp only [closing, useDatabase, huse]
        split <;> rfl
      simp only [Phase.sessions, opening, hnone, List.append_nil]
      exact (hsame _).append (.cons (step_continues hstep) (hsame []))
  | @useFailed session db e st hother huse =>
      have hstep : Step server .single (session, world)
          (Session.executeNonQuery server s!"USE {db}" (session, world)).2 :=
        executeNonQuery_step _ _
      rw [huse] at hstep
      -- the USE failed, so the session is closed
      have hclosed := (step_continues hstep).trans (close_continues server st.1 st.2)
      simp only [Phase.sessions, opening, closing, useDatabase, if_neg hother, huse, List.append_nil]
      exact (hsame _).append (.cons hclosed (hsame []))
  | released | releaseSweeps =>
      simp only [sessions, Phase.sessions, opening, closing, List.map_append, List.map_cons,
        List.map_nil, List.append_nil]
      exact hsame _
  | @releasedShut session =>
      simp only [Phase.sessions, opening, closing, List.append_nil]
      exact (hsame _).append (closeAll_moved [session] world)
  | closes =>
      simp only [sessions, Phase.sessions, opening, closing, List.map_nil, List.nil_append,
        List.append_nil]
      exact hsame _
  | @drainedShut drained =>
      simp only [Phase.sessions, opening, closing, List.append_nil]
      exact (hsame _).append (closeAll_moved drained world)
  | _ =>
      simp only [sessions, Phase.sessions, opening, closing]
      exact hsame _

/-- A session that cannot catch up with the pool's database is closed. -/
theorem useDatabase_closed (session : Session) (poolDb : Option String) (world : World) :
    ∀ dropped ∈ (useDatabase server session poolDb world).2.2, dropped.isOpen = false := by
  unfold useDatabase
  split
  · exact List.forall_mem_nil _
  · split
    · exact List.forall_mem_nil _
    · split
      · exact List.forall_mem_nil _
      · exact List.forall_mem_singleton.mpr (close_isOpen _)

theorem closing_closed (phase : Phase) (pool : SessionPool) (world : World) :
    ∀ session ∈ closing server phase pool world, session.isOpen = false := by
  unfold closing
  split
  · exact closeAll_closed _ _
  · exact closeAll_closed _ _
  · exact closeAll_closed _ _
  · split
    · exact List.forall_mem_nil _
    · split
      · exact List.forall_mem_nil _
      · rename_i hdead
        exact List.forall_mem_singleton.mpr (by simpa using hdead)
  · exact useDatabase_closed _ _ _
  · exact List.forall_mem_nil _

end SessionPool

/-! ## The system and its ledger -/

namespace PoolSystem

variable (server : Server)

/-- The sessions of the pool: idle, or in the hands of an operation. -/
def sessions (s : PoolSystem) : List Session := s.pool.sessions ++ s.ops.flatMap Phase.sessions

def opening (s : PoolSystem) : PoolAction → List Session
  | .advance i =>
      match s.ops[i]? with
      | some phase => SessionPool.opening server phase s.pool s.world
      | none => []
  | _ => []

/-- The sessions that go out of scope in a step, as the step leaves them. -/
def dropped (s : PoolSystem) : PoolAction → List Session
  | .advance i =>
      match s.ops[i]? with
      | some phase =>
          (SessionPool.advance server s.lockFree phase s.pool s.world).elim [] fun next ↦ next.2.2.2
      | none => []
  -- `release` drops a dead session, and keeps a live one in hand.
  | .dropGuard i =>
      match s.ops[i]? with
      | some (.held guard) => if guard.owner.session.isOpen then [] else [guard.owner.session]
      | _ => []
  | _ => []

/-- The drop of a guard lets a dead session go at once. -/
def closing (s : PoolSystem) : PoolAction → List Session
  | .advance i =>
      match s.ops[i]? with
      | some phase => SessionPool.closing server phase s.pool s.world
      | none => []
  | .dropGuard i =>
      match s.ops[i]? with
      | some (.held guard) => if guard.owner.session.isOpen then [] else [guard.owner.session]
      | _ => []
  | _ => []

variable {server} {s s' : PoolSystem} {action : PoolAction}

/-- What one operation does to the sessions in its hands and in the queue. -/
theorem moved_set {i : Nat} {phase phase' : Phase} {pool : SessionPool} {opened closed : List Session}
    (hget : s.ops[i]? = some phase)
    (h : Moved (s.pool.sessions ++ phase.sessions ++ opened)
      (pool.sessions ++ phase'.sessions ++ closed)) :
    Moved (s.sessions ++ opened)
      (pool.sessions ++ (s.ops.set i phase').flatMap Phase.sessions ++ closed) := by
  obtain ⟨rest, hbefore, hafter⟩ := flatMap_set Phase.sessions hget
  unfold Moved at h ⊢
  unfold sessions
  simp only [← Multiset.coe_add, hbefore, hafter] at h ⊢
  have hrest : Multiset.Rel Continues rest rest :=
    Multiset.rel_refl_of_refl_on fun session _ ↦ Std.Refl.refl session
  have hshift : ∀ a b c : Multiset Session, rest + (a + b + c) = a + (rest + b) + c := by
    intro a b c
    rw [← add_assoc, add_left_comm]
  have hboth := hrest.add h
  rwa [hshift, hshift] at hboth

/-- An operation goes on with the sessions it has. -/
theorem moved_same {i : Nat} {phase phase' : Phase} (hget : s.ops[i]? = some phase)
    (hsame : phase'.sessions = phase.sessions) :
    Moved s.sessions (s.pool.sessions ++ (s.ops.set i phase').flatMap Phase.sessions) := by
  have hmoved : Moved (s.pool.sessions ++ phase.sessions ++ [])
      (s.pool.sessions ++ phase'.sessions ++ []) := by
    rw [hsame]
    exact .of_perm (.refl _)
  simpa using moved_set hget hmoved

theorem flatMap_wake (ops : List Phase) :
    (ops.map Phase.wake).flatMap Phase.sessions = ops.flatMap Phase.sessions := by
  rw [List.flatMap_map]
  congr 1
  funext phase
  cases phase <;> rfl

/-- Every step hands every session on. -/
theorem steps_moved (h : Steps server s action s') :
    Moved (s.sessions ++ opening server s action) (s'.sessions ++ closing server s action) := by
  cases h with
  | acquires | acquiresForDevice | closes =>
      simp only [sessions, opening, closing, List.flatMap_append, List.flatMap_cons,
        List.flatMap_nil, Phase.sessions, List.append_nil]
      exact .of_perm (.refl _)
  | advances hget h =>
      simp only [opening, closing, hget]
      exact moved_set hget (SessionPool.advances_moved h)
  | notifiesNobody hget =>
      simp only [opening, closing, hget, SessionPool.opening, SessionPool.closing, List.append_nil]
      exact moved_same hget rfl
  | notifiesAll hget =>
      simp only [opening, closing, hget, SessionPool.opening, SessionPool.closing, List.append_nil,
        sessions, flatMap_wake]
      exact moved_same hget rfl
  | @wakesOne i j outcome deadline hget hparked =>
      simp only [opening, closing, List.append_nil]
      have hdone := moved_same hget (show (Phase.done outcome).sessions = _ from rfl)
      have hwoken := moved_same (s := { s with ops := s.ops.set i (.done outcome) }) hparked
        (show (Phase.acquireLock deadline).sessions = _ from rfl)
      exact hdone.trans hwoken
  | wakesUp hget =>
      simp only [opening, closing, List.append_nil]
      exact moved_same hget rfl
  | @uses i guard action owner world hget hact =>
      have hused := Owner.act_keeps (I := fun st ↦ Continues guard.owner.session st.1)
        (fun _ _ _ _ hstep hst ↦ hst.trans (step_continues hstep)) hact List.suffix_rfl
      refine moved_set hget ?_
      simp only [opening, closing, Phase.sessions, List.append_nil]
      exact (Moved.of_perm (.refl _)).append (.cons hused (.of_perm (.refl [])))
  | dropsOpen hget hopen =>
      simp only [opening, closing, hget, hopen, if_true, List.append_nil]
      exact moved_same hget rfl
  | @dropsDead i guard hget hdead =>
      simp only [opening, closing, hget, hdead, Bool.false_eq_true, if_false]
      refine moved_set hget ?_
      simp only [Phase.sessions, List.append_nil]
      exact .of_perm (.refl _)
  | ticks => exact .of_perm (.refl _)

theorem step_dropped (h : step server s action = some s') :
    dropped server s action = closing server s action := by
  cases action with
  | advance i =>
      cases hget : s.ops[i]? with
      | none => simp only [dropped, closing, hget]
      | some phase =>
          simp only [dropped, closing, hget]
          cases hadvance : SessionPool.advance server s.lockFree phase s.pool s.world with
          | some next => exact SessionPool.advance_dropped hadvance
          | none =>
              cases phase with
              | notifyOne | notifyAll => rfl
              | _ =>
                  -- no step of the system either
                  simp only [step, hget, hadvance] at h
                  cases h
  | _ => rfl

theorem closing_closed (s : PoolSystem) (action : PoolAction) :
    ∀ session ∈ closing server s action, session.isOpen = false := by
  unfold closing
  split
  · split
    · exact SessionPool.closing_closed _ _ _
    · exact List.forall_mem_nil _
  · split
    · split
      · exact List.forall_mem_nil _
      · rename_i hdead
        exact List.forall_mem_singleton.mpr (by simpa using hdead)
    · exact List.forall_mem_nil _
  · exact List.forall_mem_nil _

/-- The system with the ledger of its sessions.  No step reads the ledger. -/
def recorded (server : Server) (config : SessionPoolConfig) :
    Machine (PoolSystem × Ledger Session) PoolAction where
  init st := (machine server config).init st.1 ∧ st.2 = ⟨st.1.pool.sessions, []⟩
  step st action := (step server st.1 action).map fun s ↦
    (s, st.2.record (opening server st.1 action) (dropped server st.1 action))

variable {config : SessionPoolConfig} {st later : PoolSystem × Ledger Session}

theorem recorded_step (h : (recorded server config).step st action = some later) :
    Steps server st.1 action later.1 ∧
      later.2 = st.2.record (opening server st.1 action) (closing server st.1 action) := by
  obtain ⟨s, hstep, rfl⟩ := Option.map_eq_some_iff.mp h
  rw [← step_dropped hstep]
  exact ⟨step_spec hstep, rfl⟩

theorem recorded_reachable (h : (recorded server config).Reachable st) :
    (machine server config).Reachable st.1 := by
  induction h with
  | init hinit => exact .init hinit.1
  | step _ _ hstep ih =>
      obtain ⟨s, hnext, rfl⟩ := Option.map_eq_some_iff.mp hstep
      exact ih.step trivial hnext

/-- The books of the pool: every session it opened is still there or was let go closed. -/
structure Booked (st : PoolSystem × Ledger Session) : Prop where
  balanced : st.2.Balanced Continues st.1.sessions
  closed : ∀ session ∈ st.2.closed, session.isOpen = false

theorem reachable_booked (h : (recorded server config).Reachable st) : Booked st := by
  refine h.invariant ?_ ?_
  · rintro ⟨s, ledger⟩ ⟨⟨hops, -⟩, hledger⟩
    obtain rfl : ledger = ⟨s.pool.sessions, []⟩ := hledger
    refine ⟨?_, List.forall_mem_nil _⟩
    show Moved s.pool.sessions (s.sessions ++ [])
    refine .of_perm ?_
    rw [sessions, show s.ops = [] from hops, List.flatMap_nil, List.append_nil, List.append_nil]
  · intro before action after hbefore _ hstep
    obtain ⟨hsteps, hledger⟩ := recorded_step hstep
    have hmoved := steps_moved hsteps
    unfold Moved at hmoved
    rw [← Multiset.coe_add, ← Multiset.coe_add] at hmoved
    refine ⟨?_, ?_⟩
    · rw [hledger]
      exact hbefore.balanced.record hmoved
    · rw [hledger]
      exact List.forall_mem_append.mpr ⟨hbefore.closed, closing_closed _ _⟩

end PoolSystem

/-! ## After the close -/

/-- Where an operation can stand that began when the pool was closed already. -/
@[simp] def Phase.startedLate : Phase → Bool
  | deviceLock _ | acquireLock _ | closeLock | closeDrain _ | closeSessions _ | notifyAll => true
  | done _ => true
  | _ => false

namespace SessionPool

variable {server : Server} {free : Bool} {pool pool' : SessionPool} {world world' : World}
  {phase phase' : Phase}

/-- The flag is never taken back, the queue stays empty, and who comes late stays outside. -/
theorem advances_shut (h : Advances server free pool world phase phase' pool' world')
    (hclosed : pool.closed = true) (hidle : pool.idle = []) :
    pool'.closed = true ∧ pool'.idle = [] ∧
      (phase.startedLate = true → phase'.startedLate = true) := by
  cases h with
  | devicePicked _ hpick =>
      rw [pickForDevice, if_pos hclosed] at hpick
      cases hpick
  | devicePassed _ hpick =>
      rw [pickForDevice, if_pos hclosed] at hpick
      cases hpick
      exact ⟨hclosed, hidle, fun _ ↦ rfl⟩
  | acquireEnters _ hopen | acquireSweeps _ hopen | released _ hopen | releaseSweeps _ hopen =>
      rw [hclosed] at hopen
      cases hopen
  | sweepTakes => exact ⟨hclosed, by simp [hidle], nofun⟩
  | popOpen heq | popDead heq =>
      rw [hidle] at heq
      cases heq
  | closes => exact ⟨rfl, rfl, fun _ ↦ rfl⟩
  | _ => exact ⟨hclosed, hidle, by simp⟩

/-- The step that sets the flag empties the queue. -/
theorem advances_sets_flag (h : Advances server free pool world phase phase' pool' world')
    (hopen : pool.closed = false) (hclosed : pool'.closed = true) : pool'.idle = [] := by
  cases h with
  | closes => rfl
  | _ =>
      change pool.closed = true at hclosed
      rw [hopen] at hclosed
      cases hclosed

end SessionPool

namespace PoolSystem

variable {server : Server} {s s' : PoolSystem} {action : PoolAction} {config : SessionPoolConfig}
  {st later : PoolSystem × Ledger Session}

/-- The pool is closed and only the first `n` operations began before. -/
structure Shut (n : Nat) (s : PoolSystem) : Prop where
  closed : s.pool.closed = true
  idle : s.pool.idle = []
  late : ∀ i phase, n ≤ i → s.ops[i]? = some phase → phase.startedLate = true

theorem Shut.started {n : Nat} {phase : Phase} (hs : s.Shut n) (hphase : phase.startedLate = true) :
    Shut n { s with ops := s.ops ++ [phase] } := by
  refine ⟨hs.closed, hs.idle, fun i phase' hi hget ↦ ?_⟩
  change (s.ops ++ [phase])[i]? = some phase' at hget
  by_cases hlt : i < s.ops.length
  · rw [List.getElem?_append_left hlt] at hget
    exact hs.late i phase' hi hget
  · rw [List.getElem?_append_right (Nat.not_lt.mp hlt)] at hget
    have hnew := List.mem_singleton.mp (List.mem_of_getElem? hget)
    rw [hnew]
    exact hphase

/-- An operation moves on; the pool is as closed as it was. -/
theorem Shut.moves {n i : Nat} {phase phase' : Phase} (hs : s.Shut n)
    (hget : s.ops[i]? = some phase) (hops : s'.ops = s.ops.set i phase')
    (hclosed : s'.pool.closed = true) (hidle : s'.pool.idle = [])
    (hlate : phase.startedLate = true → phase'.startedLate = true) : s'.Shut n := by
  refine ⟨hclosed, hidle, ?_⟩
  rw [hops]
  exact forall_from_set hs.late fun hi ↦ hlate (hs.late i phase hi hget)

theorem Shut.step {n : Nat} (hs : s.Shut n) (h : Steps server s action s') : s'.Shut n := by
  cases h with
  | acquires | acquiresForDevice | closes => exact hs.started rfl
  | advances hget h =>
      obtain ⟨hclosed, hidle, hlate⟩ := SessionPool.advances_shut h hs.closed hs.idle
      exact hs.moves hget rfl hclosed hidle hlate
  | notifiesNobody hget => exact hs.moves hget rfl hs.closed hs.idle fun _ ↦ rfl
  | @notifiesAll i hget =>
      have hdone : Shut n { s with ops := s.ops.set i (.done none) } :=
        hs.moves hget rfl hs.closed hs.idle fun _ ↦ rfl
      refine ⟨hs.closed, hs.idle, fun j phase hj hwoken ↦ ?_⟩
      change ((s.ops.set i (.done none)).map Phase.wake)[j]? = some phase at hwoken
      rw [List.getElem?_map] at hwoken
      obtain ⟨before, hbefore, rfl⟩ := Option.map_eq_some_iff.mp hwoken
      have hlate := hdone.late j before hj hbefore
      cases before <;> first | rfl | exact hlate
  | @wakesOne i j outcome deadline hget hparked =>
      have hdone : Shut n { s with ops := s.ops.set i (.done outcome) } :=
        hs.moves hget rfl hs.closed hs.idle fun _ ↦ rfl
      exact hdone.moves hparked rfl hs.closed hs.idle fun _ ↦ rfl
  | wakesUp hget => exact hs.moves hget rfl hs.closed hs.idle fun _ ↦ rfl
  | uses hget | dropsOpen hget | dropsDead hget => exact hs.moves hget rfl hs.closed hs.idle nofun
  | ticks => exact ⟨hs.closed, hs.idle, hs.late⟩

theorem closed_step (h : Steps server s action s') (hs : s.pool.closed = true → s.pool.idle = [])
    (hclosed : s'.pool.closed = true) : s'.pool.idle = [] := by
  cases hopen : s.pool.closed with
  | true =>
      have hshut : s.Shut s.ops.length := by
        refine ⟨hopen, hs hopen, fun i phase hi hget ↦ ?_⟩
        have hlt := (List.getElem?_eq_some_iff.mp hget).1
        omega
      exact (hshut.step h).idle
  | false =>
      cases h with
      | advances _ h => exact SessionPool.advances_sets_flag h hopen hclosed
      | _ =>
          change s.pool.closed = true at hclosed
          rw [hopen] at hclosed
          cases hclosed

theorem reachable_closed (h : (machine server config).Reachable s) :
    s.pool.closed = true → s.pool.idle = [] := by
  refine h.invariant (I := fun s ↦ s.pool.closed = true → s.pool.idle = []) ?_ ?_
  · rintro s ⟨-, -, world, hnew⟩ hclosed
    unfold SessionPool.new at hnew
    split at hnew
    · cases hnew
    · have hopen := SessionPool.fill_keeps server (I := fun _ pool ↦ pool.closed = false)
        (fun _ _ _ _ _ hpool _ ↦ hpool) hnew rfl
      rw [hopen] at hclosed
      cases hclosed
  · exact fun _ _ _ hs _ hstep ↦ closed_step (step_spec hstep) hs

/-- Where nothing is in progress and no guard is out, nobody has a session in hand. -/
theorem sessions_at_rest (hrest : ∀ phase ∈ s.ops, phase.atRest = true) (hguards : s.guards = 0) :
    s.ops.flatMap Phase.sessions = [] := by
  rw [List.flatMap_eq_nil_iff]
  intro phase hphase
  have hrest' := hrest phase hphase
  have hguards' := total_eq_zero_iff.mp hguards phase hphase
  cases phase <;> simp at hrest' hguards' ⊢

/-- From the moment `close` has set its flag on: the queue is empty, no operation that begins then ever
holds a guard, and whenever all operations are over and all guards dropped, no slot is counted and
each session the pool ever opened is closed. -/
theorem shutdown_final_and_complete {actions : List PoolAction}
    (h : (recorded server config).Reachable st) (hclosed : st.1.pool.closed = true)
    (hrun : (recorded server config).run Machine.anyStep actions st = some later) :
    later.1.pool.closed = true ∧ later.1.pool.idle = [] ∧
      (∀ i guard, st.1.ops.length ≤ i → later.1.ops[i]? ≠ some (.held guard)) ∧
      ((∀ phase ∈ later.1.ops, phase.atRest = true) → later.1.guards = 0 →
        later.1.pool.live = 0 ∧
          Multiset.Rel (fun session last : Session ↦ session.Continues last ∧ last.isOpen = false)
            later.2.opened later.2.closed) := by
  have hshut : later.1.Shut st.1.ops.length := by
    refine Machine.run_keeps (I := fun st' ↦ st'.1.Shut st.1.ops.length)
      (fun _ _ _ hs _ hstep ↦ hs.step (recorded_step hstep).1) ?_ hrun
    refine ⟨hclosed, reachable_closed (recorded_reachable h) hclosed, fun i phase hi hget ↦ ?_⟩
    have hlt := (List.getElem?_eq_some_iff.mp hget).1
    omega
  have hreached : (recorded server config).Reachable later :=
    Machine.run_keeps (fun _ _ _ hs _ hstep ↦ hs.step trivial hstep) h hrun
  refine ⟨hshut.closed, hshut.idle, fun i guard hi hheld ↦ ?_, fun hrest hguards ↦ ⟨?_, ?_⟩⟩
  · have hlate := hshut.late i _ hi hheld
    cases hlate
  · have hlive := (reachable_accounted (recorded_reachable hreached)).live
    rw [hlive, hshut.idle, slots_at_rest hrest, hguards]
    rfl
  · have hbooked := reachable_booked hreached
    have hbalanced := hbooked.balanced
    unfold Ledger.Balanced at hbalanced
    rw [sessions, SessionPool.sessions, hshut.idle, sessions_at_rest hrest hguards] at hbalanced
    refine Multiset.Rel.mono (by simpa using hbalanced) fun session _ last hlast hcontinues ↦ ?_
    exact ⟨hcontinues, hbooked.closed last hlast⟩

/-- One session is in use and another is being opened when the pool is closed. -/
def closingRun : List PoolAction :=
  growing 0 ++ .acquire :: List.replicate 5 (.advance 1) ++ [.close, .advance 2]

/-- Somebody comes late, the second session is handed out, and both are returned. -/
def clearingRun : List PoolAction :=
  [.acquire, .advance 3] ++ List.replicate 3 (.advance 1) ++ List.replicate 3 (.advance 2) ++
    .dropGuard 0 :: List.replicate 4 (.advance 0) ++ .dropGuard 1 :: List.replicate 4 (.advance 1)

theorem shutdown_final_and_complete_cleared :
    ∃ st later, (recorded echoServer (smallConfig 2 (by decide) none)).run Machine.anyStep closingRun
        (fresh (smallConfig 2 (by decide) none), ⟨[], []⟩) = some st ∧
      (recorded echoServer (smallConfig 2 (by decide) none)).run Machine.anyStep clearingRun st =
        some later ∧
      st.1.pool.closed = true ∧ st.1.pool.live = 2 ∧ later.2.opened.length = 2 ∧
      later.1.pool.live = 0 ∧
      Multiset.Rel (fun session last : Session ↦ session.Continues last ∧ last.isOpen = false)
        later.2.opened later.2.closed := by
  have hends : ((recorded echoServer (smallConfig 2 (by decide) none)).run Machine.anyStep closingRun
      (fresh (smallConfig 2 (by decide) none), ⟨[], []⟩)).any (fun st ↦
        st.1.pool.closed && decide (st.1.pool.live = 2) &&
        ((recorded echoServer (smallConfig 2 (by decide) none)).run Machine.anyStep clearingRun st).any
          fun later ↦ decide (later.2.opened.length = 2 ∧
            (∀ phase ∈ later.1.ops, phase.atRest = true) ∧ later.1.guards = 0)) = true := by
    decide +kernel
  obtain ⟨st, hrun, hst⟩ := (Option.any_eq_true _ _).mp hends
  simp only [Bool.and_eq_true, decide_eq_true_eq] at hst
  obtain ⟨⟨hclosed, hlive⟩, hcleared⟩ := hst
  obtain ⟨later, hrun', hlater⟩ := (Option.any_eq_true _ _).mp hcleared
  obtain ⟨hopened, hrest, hguards⟩ := of_decide_eq_true hlater
  have hstart : (recorded echoServer (smallConfig 2 (by decide) none)).ReachableBy
      (fun s a ↦ Machine.anyStep s a = true) (fresh (smallConfig 2 (by decide) none), ⟨[], []⟩) :=
    .init ⟨⟨rfl, rfl, ⟨0, 0, 0⟩, rfl⟩, rfl⟩
  have hdone := shutdown_final_and_complete (hstart.run hrun).reachable hclosed hrun'
  exact ⟨st, later, hrun, hrun', hclosed, hlive, hopened, hdone.2.2.2 hrest hguards⟩

end PoolSystem

end IotdbClient
