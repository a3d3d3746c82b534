import IotdbClient.Client.PoolSlots

/-!
# The database of the pool

A guard remembers the session as it was handed out, so the `USE`s of its user are the calls made
since.  The pool publishes the database of a released session whether its user selected it or not:
it may be the one the session was handed out with, long after another guard has moved the pool on.
-/

namespace IotdbClient

open Library

theorem lastUse_append (new old : List Call) : lastUse (new ++ old) = (lastUse new).or (lastUse old) :=
  List.findSome?_append

theorem Call.use_of_handshake {call : Call} (h : call.request.isHandshake = true) :
    call.use = none := by
  obtain ⟨connection, site, request, reply⟩ := call
  cases request <;> first | rfl | cases h

theorem Call.use_of_error {connection : Connection} {site : CallSite} {request : Request}
    {e : String} : Call.use ⟨connection, site, request, .error e⟩ = none := by
  cases request <;> rfl

namespace Session

variable {server : Server} {site : CallSite}

/-- Calls were made that selected `use` last; the session has not taken it over yet. -/
def Calls (before after : Session) (use : Option String) : Prop := Adds Call.use before after use

theorem use_readsAnswers : ReadsAnswers Call.use where
  handshake := fun _ ↦ Call.use_of_handshake
  error := fun _ _ _ _ ↦ Call.use_of_error

/-- The database is the one that the calls made meanwhile selected last. -/
def Selected (before after : Session) : Prop :=
  ∃ new, after.trace = new ++ before.trace ∧ after.database = (lastUse new).or before.database

theorem Selected.refl (session : Session) : Selected session session := ⟨[], rfl, rfl⟩

theorem Selected.trans {first second third : Session} (h : Selected first second)
    (h' : Selected second third) : Selected first third := by
  obtain ⟨new, htrace, hdatabase⟩ := h
  obtain ⟨newer, htrace', hdatabase'⟩ := h'
  refine ⟨newer ++ new, ?_, ?_⟩
  · rw [htrace', htrace, List.append_assoc]
  · rw [hdatabase', hdatabase, lastUse_append, Option.or_assoc]

theorem Calls.selected {before after : Session} (h : Calls before after none) :
    Selected before after := by
  obtain ⟨new, htrace, hdatabase, hnone⟩ := h
  exact ⟨new, htrace, by rw [lastUse, hnone, hdatabase, Option.none_or]⟩

theorem step_selected {st after : Session × World} (h : Step server site st after) :
    Selected st.1 after.1 := by
  cases h with
  | idle | hint | closedAgain => exact .refl _
  | opened _ h =>
      obtain ⟨_, _, new, hnew, -⟩ := h
      exact Calls.selected (Adds.handshaking use_readsAnswers hnew)
  | unopened _ h =>
      obtain ⟨new, hnew, -⟩ := h
      exact Calls.selected (Adds.handshaking use_readsAnswers hnew)
  | query h | insert h =>
      exact Calls.selected
        (Retried.adds use_readsAnswers h (fun _ ↦ none) (fun _ ↦ rfl) fun _ _ _ _ ↦ rfl)
  | update h =>
      obtain ⟨new, htrace, hdatabase, huse⟩ :=
        Retried.adds use_readsAnswers h usedDatabase (fun _ ↦ rfl) fun _ _ _ _ ↦ rfl
      exact ⟨new, htrace, by rw [lastUse, huse, ← hdatabase]⟩
  | fetch | closeQuery | closed => exact Calls.selected (Adds.answered rfl rfl)

end Session

/-! ## Guards -/

/-- The database of a guard's session is the one its user selected, or else the one it was handed
out with. -/
theorem Guard.database_eq {guard : Guard} (h : Session.Selected guard.handedOut guard.owner.session) :
    guard.owner.session.database = guard.used.or guard.handedOut.database := by
  obtain ⟨new, htrace, hdatabase⟩ := h
  have hcalls : guard.calls = new := by
    unfold Guard.calls
    rw [htrace, List.length_append, Nat.add_sub_cancel, List.take_left]
  rw [Guard.used, hcalls, hdatabase]

/-- Guards only change by what their users do. -/
@[simp] def Phase.Selected : Phase → Prop
  | held guard => Session.Selected guard.handedOut guard.owner.session
  | _ => True

namespace SessionPool

variable {server : Server} {free : Bool} {pool pool' : SessionPool} {world world' : World}
  {phase phase' : Phase}

theorem advances_database (h : Advances server free pool world phase phase' pool' world') :
    pool'.database = pool.database := by
  cases h <;> rfl

/-- A new guard is its session as handed out. -/
theorem advances_selected (h : Advances server free pool world phase phase' pool' world') :
    phase'.Selected := by
  cases h with
  | handedOut | handedOutUsed => exact .refl _
  | sweepDone | expiredClosed => cases ‹Sweeper› <;> trivial
  | _ => trivial

end SessionPool

namespace PoolSystem

variable {server : Server} {s s' : PoolSystem} {action : PoolAction} {config : SessionPoolConfig}

theorem selected_step (h : Steps server s action s') (hs : ∀ phase ∈ s.ops, phase.Selected) :
    ∀ phase ∈ s'.ops, phase.Selected := by
  cases h with
  | acquires | acquiresForDevice | closes =>
      exact List.forall_mem_append.mpr ⟨hs, List.forall_mem_singleton.mpr trivial⟩
  | advances _ h => exact forall_mem_set hs (SessionPool.advances_selected h)
  | notifiesNobody => exact forall_mem_set hs trivial
  | @notifiesAll i =>
      have hdone : ∀ phase ∈ s.ops.set i (.done none), phase.Selected := forall_mem_set hs trivial
      intro phase hphase
      obtain ⟨before, hbefore, rfl⟩ := List.mem_map.mp hphase
      have hsame := hdone before hbefore
      cases before <;> trivial
  | @wakesOne i j outcome =>
      have hdone : ∀ phase ∈ s.ops.set i (.done outcome), phase.Selected := forall_mem_set hs trivial
      exact forall_mem_set hdone trivial
  | wakesUp => exact forall_mem_set hs trivial
  | @uses i guard _ owner world hget hact =>
      refine forall_mem_set hs ?_
      have hguard := hs _ (List.mem_of_getElem? hget)
      exact Owner.act_keeps (I := fun st ↦ Session.Selected guard.handedOut st.1)
        (fun _ _ _ _ hstep hst ↦ hst.trans (Session.step_selected hstep)) hact hguard
  | dropsOpen | dropsDead => exact forall_mem_set hs trivial
  | ticks => exact hs

theorem new_database {world world' : World} {pool : SessionPool}
    (hnew : SessionPool.new server config world = (.ok pool, world')) :
    pool.database = config.session.database := by
  unfold SessionPool.new at hnew
  split at hnew
  · cases hnew
  · exact SessionPool.fill_keeps server (I := fun _ pool ↦ pool.database = config.session.database)
      (fun _ _ _ _ _ hpool _ ↦ hpool) hnew rfl

/-- The guard that a step releases is one whose database the pool may take over: its user selected
it, or it is no news to the pool; a dead session must have selected nothing new. -/
def keepsSelection (s : PoolSystem) : PoolAction → Bool
  | .dropGuard i =>
      match s.ops[i]? with
      | some (.held guard) =>
          let session := guard.owner.session
          if session.isOpen then
            guard.used.isSome || session.database.isNone || session.database == s.pool.database
          else guard.used.isNone || guard.used == s.pool.database
      | _ => true
  | _ => true

theorem keepsSelection_open {i : Nat} {guard : Guard} (hget : s.ops[i]? = some (.held guard))
    (hopen : guard.owner.session.isOpen = true)
    (hguard : Session.Selected guard.handedOut guard.owner.session) :
    s.keepsSelection (.dropGuard i) = true ↔
      guard.owner.session.database.or s.pool.database = guard.used.or s.pool.database := by
  have hdatabase := Guard.database_eq hguard
  simp only [keepsSelection, hget, hopen, if_true]
  cases hused : guard.used with
  | some db => simp [hdatabase, hused]
  | none =>
      cases guard.owner.session.database with
      | none => simp
      | some db => simp

theorem keepsSelection_dead {i : Nat} {guard : Guard} (hget : s.ops[i]? = some (.held guard))
    (hdead : guard.owner.session.isOpen = false) :
    s.keepsSelection (.dropGuard i) = true ↔ s.pool.database = guard.used.or s.pool.database := by
  simp only [keepsSelection, hget, hdead, Bool.false_eq_true, if_false]
  cases guard.used with
  | none => simp
  | some db =>
      simp only [Option.isNone_some, Bool.false_or, beq_iff_eq, Option.some_or]
      exact eq_comm

/-- From a state in which the pool is right, a step leaves it right exactly if it keeps the
selection. -/
theorem database_step (h : Steps server s action s') (hs : ∀ phase ∈ s.ops, phase.Selected)
    (hright : s.pool.database = s.selected) :
    s.keepsSelection action = true ↔ s'.pool.database = s'.selected := by
  cases h with
  | @dropsOpen i guard hget hopen =>
      have hguard := hs _ (List.mem_of_getElem? hget)
      show _ ↔ guard.owner.session.database.or s.pool.database = guard.used.or s.selected
      rw [← hright]
      exact keepsSelection_open hget hopen hguard
  | @dropsDead i guard hget hdead =>
      show _ ↔ s.pool.database = guard.used.or s.selected
      rw [← hright]
      exact keepsSelection_dead hget hdead
  | advances _ h =>
      show true = true ↔ _ = s.selected
      rw [SessionPool.advances_database h]
      exact iff_of_true rfl hright
  | _ => exact iff_of_true rfl hright

/-- In every run whose releases all keep the selection, the pool's database is the one selected by
the last released guard on which a `USE` succeeded, and releasing a guard without one changes
nothing.  The first release that does not keep the selection breaks this. -/
theorem pool_follows_last_use
    (h : (machine server config).ReachableBy (fun s a ↦ s.keepsSelection a = true) s) :
    s.pool.database = s.selected ∧
      ∀ action s', step server s action = some s' →
        (s.keepsSelection action = true ↔ s'.pool.database = s'.selected) ∧
        ∀ i guard, action = .dropGuard i → s.ops[i]? = some (.held guard) → guard.used = none →
          s.keepsSelection action = true → s'.pool.database = s.pool.database := by
  have hs : (∀ phase ∈ s.ops, phase.Selected) ∧ s.pool.database = s.selected := by
    refine h.invariant (I := fun s ↦ (∀ phase ∈ s.ops, phase.Selected) ∧
      s.pool.database = s.selected) (fun s hinit ↦ ?_) ?_
    · obtain ⟨hops, hselected, world, hnew⟩ := hinit
      refine ⟨by simp [hops], ?_⟩
      rw [new_database hnew, hselected]
    · rintro s action s' ⟨hphases, hright⟩ hkeeps hstep
      exact ⟨selected_step (step_spec hstep) hphases,
        (database_step (step_spec hstep) hphases hright).mp hkeeps⟩
  obtain ⟨hphases, hright⟩ := hs
  refine ⟨hright, fun action s' hstep ↦ ⟨database_step (step_spec hstep) hphases hright, ?_⟩⟩
  rintro i guard rfl hget hunused hkeeps
  have hafter := (database_step (step_spec hstep) hphases hright).mp hkeeps
  have hselected : s'.selected = guard.used.or s.selected := by
    cases step_spec hstep with
    | dropsOpen hget' | dropsDead hget' =>
        rw [hget] at hget'
        cases hget'
        rfl
  rw [hafter, hselected, hunused, Option.none_or, hright]

/-- Two guards are out; one switches to another database, but the other is released before it. -/
def switchingRun : List PoolAction :=
  growing 0 ++ growing 1 ++
    [.use 0 (.call (.executeNonQuery "USE db2")), .dropGuard 1, .dropGuard 0]

theorem pool_follows_last_use_switched :
    ∃ s, (machine echoServer (smallConfig 2 (by decide) (some "db1"))).run keepsSelection
        switchingRun (fresh (smallConfig 2 (by decide) (some "db1"))) = some s ∧
      s.pool.database = some "db2" ∧ s.pool.database = s.selected := by
  have hends : ((machine echoServer (smallConfig 2 (by decide) (some "db1"))).run keepsSelection
      switchingRun (fresh (smallConfig 2 (by decide) (some "db1")))).any
      (fun s ↦ decide (s.pool.database = some "db2")) = true := by
    decide +kernel
  obtain ⟨s, hrun, hs⟩ := (Option.any_eq_true _ _).mp hends
  have hreached := (fresh_reached echoServer keepsSelection 2 _ (some "db1")).run hrun
  exact ⟨s, hrun, of_decide_eq_true hs, (pool_follows_last_use hreached).1⟩

/-- Two guards are out; one switches and is released, then the other is released as it was. -/
def revertingRun : List PoolAction :=
  growing 0 ++ growing 1 ++
    [.use 0 (.call (.executeNonQuery "USE db2")), .dropGuard 0, .dropGuard 1]

/-- The second release takes the pool back to the database its session was handed out with. -/
theorem use_lost_by_later_release :
    ∃ s, (machine echoServer (smallConfig 2 (by decide) (some "db1"))).Reachable s ∧
      s.selected = some "db2" ∧ s.pool.database = some "db1" := by
  have hends : ((machine echoServer (smallConfig 2 (by decide) (some "db1"))).run Machine.anyStep
      revertingRun (fresh (smallConfig 2 (by decide) (some "db1")))).any
      (fun s ↦ decide (s.selected = some "db2" ∧ s.pool.database = some "db1")) = true := by
    decide +kernel
  obtain ⟨s, hrun, hs⟩ := (Option.any_eq_true _ _).mp hends
  have hreached := (fresh_reached echoServer Machine.anyStep 2 _ (some "db1")).run hrun
  exact ⟨s, hreached.reachable, of_decide_eq_true hs⟩

end PoolSystem

end IotdbClient
