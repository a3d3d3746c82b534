import IotdbClient.Client.PoolQueue
import IotdbClient.Client.PoolWakeup

/-!
# Operations on the pool come to an end

A pool without a timer thread has nobody to rescue an operation that is stuck.  No operation is: as
long as one of them is under way, some operation can take its next step.  Nor do they keep each other
going: every step makes a weight of the whole system smaller, the wakeups included, in which an idle
session weighs as much as the second look it may cost an `acquire` to close it.
-/

namespace IotdbClient

open Library

/-! ## Weights -/

/-- The weights of an operation that waits for a session, and of what its wakeup costs. -/
structure Weights where
  /-- A bound on the idle queue. -/
  slots : Nat
  wake : Nat
  rest : Nat
  /-- At the failed capacity test. -/
  full : Nat
  /-- At the capacity test. -/
  reach : Nat
  gives : 0 < full
  falls : full < reach
  grows : wake + 8 ≤ reach
  wakes : reach + slots + 3 ≤ rest + wake

namespace Weights

/-- Entering the lock of `acquire`. -/
def look (w : Weights) : Nat := w.reach + w.slots + 3

/-- An idle session. -/
def entry (w : Weights) : Nat := w.look + 4

/-- No operation parks any more. -/
def overdue (slots : Nat) : Weights where
  slots := slots
  wake := 0
  rest := slots + 12
  full := 1
  reach := 8
  gives := Nat.one_pos
  falls := by decide
  grows := by decide
  wakes := by omega

end Weights

/-- After the sweep. -/
def Sweeper.weight (w : Weights) : Sweeper → Nat
  | acquire _ => w.reach + 1
  | release => w.wake + 1

/-- `n` operations may be woken by a `notify_all`. -/
def Phase.weight (w : Weights) (n : Nat) : Phase → Nat
  | deviceLock _ => w.look + 1
  | acquireLock _ => w.look
  | sweep sweeper _ i expired =>
      sweeper.weight w + 1 + (w.slots - i) + if expired.isEmpty then 0 else w.look + 3
  | sweepCount _ _ => w.look + 2
  | closeExpired _ _ => w.look + 1
  | popIdle _ => w.reach + 1
  | dropDead _ => w.reach + 2
  | testCapacity _ => w.reach
  | growSlot => w.wake + 7
  | openReadDatabase => w.wake + 6
  | openSession _ => w.wake + 5
  | atCapacity _ => w.full
  | parked _ => w.rest
  | handOut _ => w.wake + 4
  | handOutUse _ _ => w.wake + 3
  | freeSlot _ => w.wake + 2
  | notifyOne _ => w.wake + 1
  | releaseLock _ => w.entry + w.wake + w.slots + 4
  | releaseClosed _ => w.wake + 3
  | closeReleased _ => w.wake + 2
  | closeLock => n * w.wake + 4
  | closeDrain _ => n * w.wake + 3
  | closeSessions _ => n * w.wake + 2
  | notifyAll => n * w.wake + 1
  | held _ | done _ => 0

/-- An acquire that has not parked for good: its deadline has passed. -/
def Phase.overdue (clock : Nat) : Phase → Bool
  | deviceLock _ => false
  | acquireLock deadline | popIdle deadline | dropDead deadline => deadline ≤ clock
  | testCapacity deadline | atCapacity deadline | parked deadline => deadline ≤ clock
  | sweep (.acquire deadline) _ _ _ | sweepCount (.acquire deadline) _ => deadline ≤ clock
  | closeExpired (.acquire deadline) _ => deadline ≤ clock
  | _ => true

namespace SessionPool

variable {server : Server} {free : Bool} {pool pool' : SessionPool} {world world' : World}
  {phase phase' : Phase} {w : Weights} {n : Nat}

end SessionPool

namespace PoolSystem

variable {server : Server} {s s' : PoolSystem} {action : PoolAction} {config : SessionPoolConfig}

/-- The same, and waits may end. -/
def goesOnOrWakes (_ : PoolSystem) : PoolAction → Bool
  | .advance _ | .wakeOne _ _ | .wakeUp _ => true
  | _ => false

/-- The weight of all operations and of the idle queue. -/
def weight (w : Weights) (s : PoolSystem) : Nat :=
  total (Phase.weight w s.ops.length) s.ops + w.entry * s.pool.idle.length

theorem overdue_mono {phase : Phase} {clock clock' : Nat} (hclock : clock ≤ clock')
    (h : phase.overdue clock = true) : phase.overdue clock' = true := by
  have hlater : ∀ deadline, decide (deadline ≤ clock) = true → decide (deadline ≤ clock') = true := by
    intro deadline hdue
    exact decide_eq_true ((of_decide_eq_true hdue).trans hclock)
  cases phase with
  | deviceLock => cases h
  | sweep sweeper | sweepCount sweeper | closeExpired sweeper =>
      cases sweeper with
      | acquire deadline => exact hlater deadline h
      | release => rfl
  | acquireLock deadline | popIdle deadline | dropDead deadline => exact hlater deadline h
  | testCapacity deadline | atCapacity deadline | parked deadline => exact hlater deadline h
  | _ => rfl

theorem advances_overdue {free : Bool} {pool pool' : SessionPool} {world world' : World}
    {phase phase' : Phase}
    (h : SessionPool.Advances server free pool world phase phase' pool' world')
    (hdue : phase.overdue world.clock = true) : phase'.overdue world'.clock = true := by
  refine overdue_mono (SessionPool.advances_clock h) ?_
  cases h with
  | devicePicked | devicePassed => cases hdue
  | sweepDone | sweepStops | sweepTakes | sweepSkips | swept | expiredClosed =>
      cases ‹Sweeper› with
      | acquire deadline => exact hdue
      | release => rfl
  | _ => first | rfl | exact hdue

/-- The deadline of every acquire has passed. -/
def AllOverdue (s : PoolSystem) : Prop := ∀ phase ∈ s.ops, phase.overdue s.world.clock = true

theorem AllOverdue.step (hs : s.AllOverdue) (hmeets : s.goesOnOrWakes action = true)
    (h : Steps server s action s') : s'.AllOverdue := by
  cases h with
  | acquires | acquiresForDevice | closes | uses | dropsOpen | dropsDead | ticks => cases hmeets
  | advances hget h =>
      have hclock := SessionPool.advances_clock h
      have hphase := advances_overdue h (hs _ (List.mem_of_getElem? hget))
      exact forall_mem_set (fun other hother ↦ overdue_mono hclock (hs other hother)) hphase
  | notifiesNobody hget => exact forall_mem_set hs rfl
  | notifiesAll hget =>
      intro phase hphase
      obtain ⟨before, hbefore, rfl⟩ := List.mem_map.mp hphase
      have hdue : before.overdue s.world.clock = true := forall_mem_set hs rfl before hbefore
      cases before <;> exact hdue
  | @wakesOne i j outcome deadline hget hparked =>
      have hafter : ∀ phase ∈ s.ops.set i (.done outcome), phase.overdue s.world.clock = true :=
        forall_mem_set hs rfl
      have hwoken : (Phase.parked deadline).overdue s.world.clock = true :=
        hafter _ (List.mem_of_getElem? hparked)
      exact forall_mem_set hafter hwoken
  | @wakesUp i deadline hget =>
      have hwoken : (Phase.parked deadline).overdue s.world.clock = true :=
        hs _ (List.mem_of_getElem? hget)
      exact forall_mem_set hs hwoken

end PoolSystem

end IotdbClient
