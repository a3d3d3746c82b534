import IotdbClient.Client.PoolSlots
import IotdbClient.Client.SessionFrame
import IotdbClient.Library.Search

/-!
# The order of the idle queue

A session goes to the back of the queue at the time its entry records, the clock does not go back,
and whatever is taken out leaves the order of the others: the front of the queue is the session that
has been idle longest.
-/

namespace IotdbClient

open Library Program

/-! ## The clock -/

theorem keptByMethods_clock (server : Server) (time : Nat) :
    Session.KeptByMethods server fun st ↦ time ≤ st.2.clock where
  call := fun _ _ _ _ hst ↦ hst
  world := fun _ _ hclock hst ↦ Nat.le_trans hst hclock
  ids := fun _ _ _ _ _ hst ↦ hst
  database := fun _ _ hst ↦ hst
  hints := fun _ _ hst ↦ hst

namespace SessionPool

variable {server : Server} {free : Bool} {pool pool' : SessionPool} {world world' : World}
  {phase phase' : Phase}

/-- Closing sessions takes calls and no other time. -/
theorem closeAll_clock (sessions : List Session) (world : World) :
    (closeAll server sessions world).2.clock = world.clock := by
  induction sessions generalizing world with
  | nil => rfl
  | cons session rest ih =>
      have hclose : (Session.close server (session, world)).2.2.clock = world.clock := by
        simp only [Session.close, bind_apply, Session.self_apply]
        cases session.connection with
        | none => rfl
        | some connection =>
            simp only [Session.update_apply, bind_apply, attempt_apply, Session.call_state]
            rfl
      exact (ih _).trans hclose

theorem openSession_clock {database : Option String} {out : Result Unit} {session : Session}
    (h : pool.openSession server database world = (out, session, world')) :
    world.clock ≤ world'.clock := by
  have hopen := (keptByMethods_clock server world.clock).keeps_open.kept
    (Session.new { pool.config.session with database := database }, world) (Nat.le_refl _)
  change world.clock ≤ (pool.openSession server database world).2.2.clock at hopen
  rwa [h] at hopen

theorem executeNonQuery_clock {sql : String} {session : Session} {out : Result Unit}
    {st : Session × World} (h : Session.executeNonQuery server sql (session, world) = (out, st)) :
    world.clock ≤ st.2.clock := by
  have hrun := ((keptByMethods_clock server world.clock).keeps_executeNonQuery sql).kept
    (session, world) (Nat.le_refl _)
  rwa [h] at hrun

theorem advances_clock (h : Advances server free pool world phase phase' pool' world') :
    world.clock ≤ world'.clock := by
  cases h with
  | expiredClosed | releasedShut | drainedShut => exact (closeAll_clock _ world).ge
  | opened hopen => exact openSession_clock hopen
  | openFailed hopen => exact openSession_clock hopen
  | handedOutUsed huse => exact executeNonQuery_clock huse
  | @useFailed session db e st _ huse =>
      have hclose := (keptByMethods_clock server st.2.clock).keeps_close.kept st (Nat.le_refl _)
      exact (executeNonQuery_clock huse).trans hclose
  | _ => exact Nat.le_refl _

/-! ## The queue -/

/-- The times at which the queue's entries went idle, front first. -/
def sinces (idle : List IdleEntry) : List Nat := idle.map IdleEntry.since

/-- In the order in which they went idle, and all of them by now. -/
structure Queued (idle : List IdleEntry) (clock : Nat) : Prop where
  sorted : (sinces idle).Pairwise (· ≤ ·)
  past : ∀ time ∈ sinces idle, time ≤ clock

theorem queued_iff {idle : List IdleEntry} {clock : Nat} :
    Queued idle clock ↔ Timeline (sinces idle) clock :=
  ⟨fun h ↦ ⟨h.sorted, h.past⟩, fun h ↦ ⟨h.sorted, h.past⟩⟩

theorem Queued.sublist {idle idle' : List IdleEntry} {clock clock' : Nat} (h : Queued idle clock)
    (hsub : (sinces idle').Sublist (sinces idle)) (hclock : clock ≤ clock') :
    Queued idle' clock' :=
  queued_iff.mpr ((queued_iff.mp h).sublist hsub hclock)

theorem Queued.push {idle : List IdleEntry} {clock : Nat} (h : Queued idle clock)
    (session : Session) : Queued (idle ++ [⟨session, clock⟩]) clock := by
  rw [queued_iff, sinces, List.map_append]
  exact (queued_iff.mp h).push (Nat.le_refl clock)

theorem queued_nil (clock : Nat) : Queued [] clock := queued_iff.mpr (timeline_nil clock)

theorem sinces_looked {idle looked : List IdleEntry} (h : List.Forall₂ Looked idle looked) :
    sinces looked = sinces idle := by
  induction h with
  | nil => rfl
  | cons hentry _ ih =>
      obtain ⟨cache, rfl⟩ := hentry
      exact congrArg (List.cons _) ih

/-- Device-affine acquire takes one entry out of the middle at most. -/
theorem pickForDevice_sinces {deviceId : String} {now : Nat} {picked : Option Session}
    {idle : List IdleEntry} (h : pool.pickForDevice deviceId now = (picked, idle)) :
    (sinces idle).Sublist (sinces pool.idle) := by
  obtain ⟨looked, hlooked, ⟨rfl, rfl⟩ | ⟨front, target, back, rfl, rfl, rfl⟩⟩ := pickForDevice_cases h
  · rw [sinces_looked hlooked]
  · rw [← sinces_looked hlooked]
    exact ((List.sublist_cons_self target back).append_left front).map _

theorem advances_queued (h : Advances server free pool world phase phase' pool' world')
    (hidle : Queued pool.idle world.clock) : Queued pool'.idle world'.clock := by
  have hclock := advances_clock h
  have hsame : Queued pool.idle world'.clock := hidle.sublist (List.Sublist.refl _) hclock
  cases h with
  | devicePicked _ hpick => exact hidle.sublist (pickForDevice_sinces hpick) hclock
  | devicePassed _ hpick => exact hidle.sublist (pickForDevice_sinces hpick) hclock
  | sweepTakes => exact hidle.sublist ((List.eraseIdx_sublist _ _).map _) hclock
  | popOpen heq | popDead heq =>
      rw [heq] at hidle
      exact hidle.sublist (List.sublist_cons_self _ _) hclock
  | released | releaseSweeps => exact hidle.push _
  | closes => exact queued_nil _
  | _ => exact hsame

theorem fill_queued {n : Nat} (h : fill server n pool world = (.ok pool', world'))
    (hidle : Queued pool.idle world.clock) : Queued pool'.idle world'.clock := by
  induction n generalizing pool world with
  | zero =>
      cases h
      exact hidle
  | succ n ih =>
      simp only [fill] at h
      rcases hopen : pool.openSession server pool.database world with ⟨e | _, session, later⟩
      all_goals rw [hopen] at h
      · cases h
      · apply ih h
        exact (hidle.sublist (List.Sublist.refl _) (openSession_clock hopen)).push session

end SessionPool

namespace PoolSystem

open SessionPool

variable {server : Server} {s s' : PoolSystem} {action : PoolAction} {config : SessionPoolConfig}

theorem step_queued (h : Steps server s action s') (hs : Queued s.pool.idle s.world.clock) :
    Queued s'.pool.idle s'.world.clock := by
  cases h with
  | advances _ h => exact advances_queued h hs
  | @uses i guard action owner world _ hact =>
      have hclock := (keptByMethods_clock server s.world.clock).act hact (Nat.le_refl _)
      exact hs.sublist (List.Sublist.refl _) hclock
  | ticks => exact hs.sublist (List.Sublist.refl _) (Nat.le_add_right _ _)
  | _ => exact hs

theorem reachable_queued (h : (machine server config).Reachable s) :
    Queued s.pool.idle s.world.clock := by
  apply h.invariant
  · rintro s ⟨-, -, world, hnew⟩
    unfold SessionPool.new at hnew
    split at hnew
    · cases hnew
    · exact fill_queued hnew (queued_nil _)
  · intro s action s' hs _ hstep
    exact step_queued (step_spec hstep) hs

end PoolSystem

end IotdbClient
