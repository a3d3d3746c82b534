import IotdbClient.Client.PoolSlots

/-!
# Broken sessions

A connection is broken once a statement, an insert or a fetch has failed on it at the transport
level, until a handshake succeeds on a new one.  The pool asks `is_open`, which is only cleared by a
reconnect: after a failed fetch, after a failed second attempt, and after any failure with
`enable_auto_reconnect` off, a session still counts as open.
-/

namespace IotdbClient

open Library Program

def Request.isWork : Request → Bool
  | executeUpdate _ | executeQuery _ | fetchResults _ | insert _ => true
  | _ => false

/-- A piece of work failed at the transport level. -/
def Call.lost (call : Call) : Bool :=
  call.request.isWork && match call.reply with | .ok _ => false | .error _ => true

/-- The call ends a successful handshake. -/
def Call.reestablishes : Call → Bool
  | ⟨_, _, .requestStatementId _, .ok _⟩ => true
  | _ => false

/-- The calls since the last successful handshake. -/
def sinceHandshake (trace : List Call) : List Call := trace.takeWhile fun call ↦ !call.reestablishes

namespace Session

/-- Work was lost, and no reconnect has succeeded since. -/
def broken (session : Session) : Bool := (sinceHandshake session.trace).any Call.lost

/-- Work was lost in a way that `with_retry` does not answer with a reconnect. -/
def overlooks (session : Session) (call : Call) : Bool :=
  call.lost && !(session.config.enableAutoReconnect && call.site == .firstAttempt)

end Session

theorem Call.lost_of_handshake {call : Call} (h : call.request.isHandshake = true) :
    call.lost = false := by
  obtain ⟨connection, site, request, reply⟩ := call
  cases request <;> first | rfl | cases h

theorem Call.reestablishes_of_not_handshake {call : Call} (h : call.request.isHandshake = false) :
    call.reestablishes = false := by
  obtain ⟨connection, site, request, reply⟩ := call
  cases request <;> first | rfl | cases h

theorem sinceHandshake_cons {call : Call} {older : List Call}
    (h : call.request.isHandshake = false) :
    sinceHandshake (call :: older) = call :: sinceHandshake older :=
  List.takeWhile_cons_of_pos (by rw [Call.reestablishes_of_not_handshake h]; rfl)

/-- A successful handshake hides what came before it. -/
theorem sinceHandshake_append {new old : List Call} (h : ∃ call ∈ new, call.reestablishes = true) :
    ∀ call ∈ sinceHandshake (new ++ old), call ∈ new := by
  induction new with
  | nil =>
      obtain ⟨_, hmem, _⟩ := h
      cases hmem
  | cons first rest ih =>
      intro call hcall
      cases hfirst : first.reestablishes with
      | true =>
          rw [sinceHandshake, List.cons_append, List.takeWhile_cons_of_neg (by simp [hfirst])] at hcall
          cases hcall
      | false =>
          have hrest : ∃ call ∈ rest, call.reestablishes = true := by
            obtain ⟨found, hmem, hfound⟩ := h
            rcases List.mem_cons.mp hmem with rfl | hmem
            · rw [hfirst] at hfound
              cases hfound
            · exact ⟨found, hmem, hfound⟩
          rw [sinceHandshake, List.cons_append, List.takeWhile_cons_of_pos (by simp [hfirst])] at hcall
          rcases List.mem_cons.mp hcall with rfl | hcall
          · exact List.mem_cons_self
          · exact List.mem_cons_of_mem _ (ih hrest call hcall)

theorem reestablishes_of_issuedIds {new : List Call} {connection : Connection} {ids : Int64 × Int64}
    (h : issuedIds new connection = some ids) : ∃ call ∈ new, call.reestablishes = true := by
  unfold issuedIds at h
  cases hstatement : new.findSome? (Call.statementIdOn connection) with
  | none =>
      rw [hstatement] at h
      cases hsession : new.findSome? (Call.sessionIdOn connection) <;> rw [hsession] at h <;> cases h
  | some statementId =>
      obtain ⟨call, hmem, hcall⟩ := List.exists_of_findSome?_eq_some hstatement
      refine ⟨call, hmem, ?_⟩
      obtain ⟨c, site, request, reply⟩ := call
      cases request with
      | requestStatementId id =>
          cases reply with
          | ok value => rfl
          | error e => cases hcall
      | _ => cases hcall

namespace Session

variable {server : Server} {site : CallSite}

/-- Right after a handshake nothing is lost. -/
theorem online_unbroken {before after : Session × World} (h : Online before after) :
    ∀ call ∈ sinceHandshake after.1.trace, call.lost = false := by
  obtain ⟨connection, _, new, hnew, -, hids⟩ := h
  intro call hcall
  rw [hnew.trace] at hcall
  have hmem := sinceHandshake_append (reestablishes_of_issuedIds hids) call hcall
  exact Call.lost_of_handshake (hnew.handshakes call hmem).2

/-- While the session is open, what it lost it lost overlooked. -/
def Detects (session : Session) : Prop :=
  session.isOpen = true →
    ∀ call ∈ sinceHandshake session.trace, call.lost = true → session.overlooks call = true

/-- Open, and nothing lost. -/
def Healthy (session : Session) : Prop :=
  session.isOpen = true ∧ ∀ call ∈ sinceHandshake session.trace, call.lost = false

theorem Healthy.detects {session : Session} (h : session.Healthy) : session.Detects := by
  intro _ call hcall hlost
  rw [h.2 call hcall] at hlost
  cases hlost

theorem Healthy.not_broken {session : Session} (h : session.Healthy) : session.broken = false :=
  List.any_eq_false.mpr fun call hcall ↦ by simp [h.2 call hcall]

theorem detects_of_closed {session : Session} (h : session.connection = none) :
    session.Detects := by
  intro hopen
  rw [isOpen, h] at hopen
  cases hopen

theorem detects_of_online {before after : Session × World} (h : Online before after) :
    after.1.Detects := by
  intro _ call hcall hlost
  rw [online_unbroken h call hcall] at hlost
  cases hlost

/-- A call that loses nothing, or that is overlooked if it does. -/
theorem Detects.call {connection : Connection} {callSite : CallSite} {request : Request}
    {st : Session × World} (h : st.1.Detects) (hkind : request.isHandshake = false)
    (hnew : ∀ call, call = ⟨connection, callSite, request, server.answer st.2.calls connection request⟩ →
      call.lost = true → st.1.overlooks call = true) :
    (afterCall server connection callSite request st).1.Detects := by
  intro hopen call hcall hlost
  have htrace : sinceHandshake (afterCall server connection callSite request st).1.trace =
      ⟨connection, callSite, request, server.answer st.2.calls connection request⟩ ::
        sinceHandshake st.1.trace := sinceHandshake_cons hkind
  rw [htrace] at hcall
  rcases List.mem_cons.mp hcall with heq | hold
  · exact hnew call heq hlost
  · exact h hopen call hold hlost

theorem Detects.answered {connection : Connection} {callSite : CallSite} {request : Request}
    {st : Session × World} {value : request.Reply} (h : st.1.Detects)
    (hkind : request.isHandshake = false)
    (hreply : server.answer st.2.calls connection request = .ok value) :
    (afterCall server connection callSite request st).1.Detects := by
  refine h.call hkind ?_
  rintro _ rfl hlost
  rw [hreply] at hlost
  simp [Call.lost] at hlost

theorem Detects.overlooked {connection : Connection} {callSite : CallSite} {request : Request}
    {st : Session × World} (h : st.1.Detects) (hkind : request.isHandshake = false)
    (hsite : st.1.config.enableAutoReconnect = false ∨ callSite ≠ .firstAttempt) :
    (afterCall server connection callSite request st).1.Detects := by
  refine h.call hkind ?_
  rintro _ rfl hlost
  rcases hsite with hauto | hsite
  · simp [overlooks, hlost, hauto]
  · simp [overlooks, hlost, hsite]

theorem Retried.detects {α : Type} {mk : Session → Request}
    {out : (session : Session) → (mk session).Reply → α} {st after : Session × World}
    {result : Result α} (h : Retried server mk out st result after)
    (hkind : ∀ session, (mk session).isHandshake = false) (hst : st.1.Detects) :
    after.1.Detects := by
  cases h with
  | notOpen => exact hst
  | first _ hreply => exact hst.answered (hkind _) hreply
  | unretried _ _ hauto => exact hst.overlooked (hkind _) (.inl hauto)
  | lost _ _ _ hafter =>
      obtain ⟨_, _, hnone⟩ := hafter
      exact detects_of_closed hnone
  | second _ _ _ hmid _ hreply => exact (detects_of_online hmid).answered (hkind _) hreply
  | secondFailed _ _ _ hmid => exact (detects_of_online hmid).overlooked (hkind _) (.inr nofun)

theorem step_detects {st after : Session × World} (hsite : site = .single ∨ site = .dataSet)
    (h : Step server site st after) (hst : st.1.Detects) : after.1.Detects := by
  have hsite' : site ≠ .firstAttempt := by
    rcases hsite with rfl | rfl <;> decide
  cases h with
  | idle => exact hst
  | opened _ h => exact detects_of_online h
  | unopened _ h =>
      obtain ⟨_, _, hnone⟩ := h
      exact detects_of_closed hnone
  | query h => exact h.detects (fun _ ↦ rfl) hst
  | update h => exact h.detects (fun _ ↦ rfl) hst
  | insert h => exact h.detects (fun _ ↦ rfl) hst
  | fetch | closeQuery => exact hst.overlooked rfl (.inr hsite')
  | hint => exact hst
  | closed => exact detects_of_closed rfl
  | closedAgain hconn => exact detects_of_closed hconn

theorem healthy_of_online {before after : Session × World} (h : Online before after) :
    after.1.Healthy := by
  refine ⟨?_, online_unbroken h⟩
  obtain ⟨connection, hconn, -⟩ := h
  rw [isOpen, hconn]
  rfl

theorem Healthy.answered {connection : Connection} {callSite : CallSite} {request : Request}
    {st : Session × World} {value : request.Reply} (h : st.1.Healthy)
    (hkind : request.isHandshake = false)
    (hreply : server.answer st.2.calls connection request = .ok value) :
    (afterCall server connection callSite request st).1.Healthy := by
  refine ⟨h.1, ?_⟩
  have htrace : sinceHandshake (afterCall server connection callSite request st).1.trace =
      ⟨connection, callSite, request, server.answer st.2.calls connection request⟩ ::
        sinceHandshake st.1.trace := sinceHandshake_cons hkind
  rw [htrace, hreply]
  refine List.forall_mem_cons.mpr ⟨?_, h.2⟩
  simp [Call.lost]

theorem healthy_of_open {config : SessionConfig} {session : Session} {world world' : World}
    (h : Session.open server (Session.new config, world) = (.ok (), session, world')) :
    session.Healthy := by
  have hnone : (Session.new config).connection = none := rfl
  have honline := open_spec server hnone (Session.new config, world) rfl
  rw [h] at honline
  exact healthy_of_online honline

/-- A statement that was answered leaves a healthy session: it was answered on the connection of
before, or on a new one. -/
theorem Healthy.executeNonQuery {sql : String} {session session' : Session} {world world' : World}
    (hs : session.Healthy)
    (h : executeNonQuery server sql (session, world) = (.ok (), session', world')) :
    session'.Healthy := by
  have hretried := withRetry_spec server (sends_update server sql) (session, world)
  simp only [Session.executeNonQuery, bind_apply] at h
  generalize withRetry server (sendUpdate server sql) (session, world) = result at h hretried
  obtain ⟨fault | resp, after⟩ := result
  · cases h
  · have hafter : after.1.Healthy := by
      cases hretried with
      | first _ hreply => exact hs.answered rfl hreply
      | second _ _ _ hmid _ hreply => exact (healthy_of_online hmid).answered rfl hreply
    simp only [ofOutcome_apply] at h
    cases hstatus : checkStatus resp.status with
    | error fault =>
        rw [hstatus] at h
        cases h
    | ok _ =>
        simp only [hstatus] at h
        cases hdb : resp.database <;> rw [hdb] at h <;> cases h <;> exact hafter

end Session

/-! ## The pool -/

/-- Sessions on their way into the queue or out to a user are healthy, and so was each guard when it
was handed out. -/
@[simp] def Phase.Healthy : Phase → Prop
  | handOut session | handOutUse session _ | releaseLock session => session.Healthy
  | held guard => guard.owner.session.Detects ∧ guard.handedOut.Healthy
  | _ => True

namespace SessionPool

variable {server : Server} {free : Bool} {pool pool' : SessionPool} {world world' : World}
  {phase phase' : Phase}

def AllHealthy (idle : List IdleEntry) : Prop := ∀ entry ∈ idle, entry.session.Healthy

theorem looked_healthy {idle looked : List IdleEntry} (h : List.Forall₂ Looked idle looked)
    (hidle : AllHealthy idle) : AllHealthy looked := by
  induction h with
  | nil => exact hidle
  | cons hentry _ ih =>
      obtain ⟨cache, rfl⟩ := hentry
      obtain ⟨hfirst, hrest⟩ := List.forall_mem_cons.mp hidle
      exact List.forall_mem_cons.mpr ⟨hfirst, ih hrest⟩

theorem pickForDevice_healthy {deviceId : String} {now : Nat} {picked : Option Session}
    {idle : List IdleEntry} (h : AllHealthy pool.idle)
    (hpick : pool.pickForDevice deviceId now = (picked, idle)) :
    (∀ session, picked = some session → session.Healthy) ∧ AllHealthy idle := by
  obtain ⟨looked, hlooked, ⟨rfl, rfl⟩ | ⟨front, target, back, rfl, rfl, rfl⟩⟩ :=
    pickForDevice_cases hpick
  · exact ⟨fun _ heq ↦ (by cases heq), looked_healthy hlooked h⟩
  · have hall := looked_healthy hlooked h
    constructor
    · intro session heq
      cases heq
      exact hall target (by simp)
    · exact fun entry hentry ↦ hall entry ((List.sublist_cons_self target back).append_left front
        |>.subset hentry)

theorem advances_healthy (h : Advances server free pool world phase phase' pool' world')
    (hidle : AllHealthy pool.idle) (hphase : phase.Healthy) :
    AllHealthy pool'.idle ∧ phase'.Healthy := by
  cases h with
  | devicePicked _ hpick =>
      have hpicked := pickForDevice_healthy hidle hpick
      exact ⟨hpicked.2, hpicked.1 _ rfl⟩
  | devicePassed _ hpick => exact ⟨(pickForDevice_healthy hidle hpick).2, trivial⟩
  | sweepTakes =>
      exact ⟨fun entry hentry ↦ hidle entry (List.mem_of_mem_eraseIdx hentry), trivial⟩
  | popOpen heq =>
      rw [heq] at hidle
      obtain ⟨hentry, hrest⟩ := List.forall_mem_cons.mp hidle
      exact ⟨hrest, hentry⟩
  | popDead heq =>
      rw [heq] at hidle
      exact ⟨(List.forall_mem_cons.mp hidle).2, trivial⟩
  | opened hopen => exact ⟨hidle, Session.healthy_of_open hopen⟩
  | handOutRead => exact ⟨hidle, hphase⟩
  | handedOut =>
      have hsession : Session.Healthy _ := hphase
      exact ⟨hidle, hsession.detects, hsession⟩
  | handedOutUsed huse =>
      have hsession := Session.Healthy.executeNonQuery hphase huse
      exact ⟨hidle, hsession.detects, hsession⟩
  | released | releaseSweeps =>
      exact ⟨List.forall_mem_append.mpr ⟨hidle, List.forall_mem_singleton.mpr hphase⟩, trivial⟩
  | closes => exact ⟨List.forall_mem_nil _, trivial⟩
  | sweepDone | expiredClosed => exact ⟨hidle, by cases ‹Sweeper› <;> trivial⟩
  | _ => exact ⟨hidle, trivial⟩

end SessionPool

namespace PoolSystem

variable {server : Server} {s s' : PoolSystem} {action : PoolAction} {config : SessionPoolConfig}

/-- The session that a step releases is not open, or lost nothing overlooked since its last
handshake: no fetch, no second attempt, and with auto-reconnect off no first attempt. -/
def releasesDetected (s : PoolSystem) : PoolAction → Bool
  | .dropGuard i =>
      match s.ops[i]? with
      | some (.held guard) =>
          let session := guard.owner.session
          !session.isOpen || !(sinceHandshake session.trace).any session.overlooks
      | _ => true
  | _ => true

structure Healthy (s : PoolSystem) : Prop where
  idle : SessionPool.AllHealthy s.pool.idle
  ops : ∀ phase ∈ s.ops, phase.Healthy

/-- An open session whose losses were all answered by a reconnect is healthy. -/
theorem healthy_of_releasesDetected {i : Nat} {guard : Guard} (hget : s.ops[i]? = some (.held guard))
    (hdetects : guard.owner.session.Detects) (hopen : guard.owner.session.isOpen = true)
    (hmeets : s.releasesDetected (.dropGuard i) = true) : guard.owner.session.Healthy := by
  simp only [releasesDetected, hget, hopen, Bool.not_true, Bool.false_or, Bool.not_eq_true',
    List.any_eq_false] at hmeets
  refine ⟨hopen, fun call hcall ↦ ?_⟩
  by_contra hlost
  exact hmeets call hcall (hdetects hopen call hcall (by simpa using hlost))

theorem Healthy.step (hs : s.Healthy) (h : Steps server s action s')
    (hmeets : s.releasesDetected action = true) : s'.Healthy := by
  cases h with
  | acquires | acquiresForDevice | closes =>
      exact ⟨hs.idle, List.forall_mem_append.mpr ⟨hs.ops, List.forall_mem_singleton.mpr trivial⟩⟩
  | advances hget h =>
      have hnext := SessionPool.advances_healthy h hs.idle (hs.ops _ (List.mem_of_getElem? hget))
      exact ⟨hnext.1, forall_mem_set hs.ops hnext.2⟩
  | notifiesNobody => exact ⟨hs.idle, forall_mem_set hs.ops trivial⟩
  | @notifiesAll i =>
      have hdone : ∀ phase ∈ s.ops.set i (.done none), phase.Healthy :=
        forall_mem_set hs.ops trivial
      refine ⟨hs.idle, fun phase hphase ↦ ?_⟩
      obtain ⟨before, hbefore, rfl⟩ := List.mem_map.mp hphase
      have hsame := hdone before hbefore
      cases before <;> trivial
  | @wakesOne i j outcome =>
      have hdone : ∀ phase ∈ s.ops.set i (.done outcome), phase.Healthy :=
        forall_mem_set hs.ops trivial
      exact ⟨hs.idle, forall_mem_set hdone trivial⟩
  | wakesUp => exact ⟨hs.idle, forall_mem_set hs.ops trivial⟩
  | uses hget hact =>
      have hguard := hs.ops _ (List.mem_of_getElem? hget)
      have hdetects := Owner.act_keeps (I := fun st ↦ st.1.Detects)
        (fun _ hsite _ _ hstep hst ↦ Session.step_detects hsite hstep hst) hact hguard.1
      exact ⟨hs.idle, forall_mem_set hs.ops ⟨hdetects, hguard.2⟩⟩
  | dropsOpen hget hopen =>
      have hguard := hs.ops _ (List.mem_of_getElem? hget)
      exact ⟨hs.idle, forall_mem_set hs.ops (healthy_of_releasesDetected hget hguard.1 hopen hmeets)⟩
  | dropsDead => exact ⟨hs.idle, forall_mem_set hs.ops trivial⟩
  | ticks => exact ⟨hs.idle, hs.ops⟩

theorem new_healthy {world : World} (hops : s.ops = [])
    (hnew : SessionPool.new server config world = (.ok s.pool, s.world)) : s.Healthy := by
  refine ⟨?_, by simp [hops]⟩
  unfold SessionPool.new at hnew
  split at hnew
  · cases hnew
  · refine SessionPool.fill_keeps server (I := fun _ pool ↦ SessionPool.AllHealthy pool.idle) ?_ hnew
      (List.forall_mem_nil _)
    intro n pool world session world' hpool hopen
    exact List.forall_mem_append.mpr
      ⟨hpool, List.forall_mem_singleton.mpr (Session.healthy_of_open hopen)⟩

/-- A broken session is discarded on release exactly if it is not open or nothing was overlooked. -/
theorem releasesDetected_iff {i : Nat} {guard : Guard} (hs : s.Healthy)
    (hget : s.ops[i]? = some (.held guard)) :
    s.releasesDetected (.dropGuard i) = true ↔
      (guard.owner.session.broken = true → guard.owner.session.isOpen = false) := by
  have hdetects := (hs.ops _ (List.mem_of_getElem? hget)).1
  cases hopen : guard.owner.session.isOpen with
  | false => simp [releasesDetected, hget, hopen]
  | true =>
      refine ⟨fun hmeets hbroken ↦ ?_, fun hsound ↦ ?_⟩
      · have hhealthy := healthy_of_releasesDetected hget hdetects hopen hmeets
        rw [hhealthy.not_broken] at hbroken
        cases hbroken
      · -- Not broken, so nothing was lost at all.
        have hunbroken : guard.owner.session.broken = false := by
          by_contra hbroken
          exact absurd (hsound (by simpa using hbroken)) (by decide)
        have hnone := List.any_eq_false.mp hunbroken
        simp only [releasesDetected, hget, hopen, Bool.not_true, Bool.false_or, Bool.not_eq_true',
          List.any_eq_false]
        intro call hcall hoverlooked
        simp only [Session.overlooks, Bool.and_eq_true] at hoverlooked
        exact hnone call hcall hoverlooked.1

/-- In every run in which each released session is closed or lost nothing overlooked, no broken
session is idle and none was handed out.  A broken session is discarded on release exactly where the
release meets the condition. -/
theorem broken_sessions_never_circulate
    (h : (machine server config).ReachableBy (fun s a ↦ s.releasesDetected a = true) s) :
    (∀ entry ∈ s.pool.idle, entry.session.broken = false) ∧
      (∀ guard, Phase.held guard ∈ s.ops → guard.handedOut.broken = false) ∧
      ∀ i guard, s.ops[i]? = some (.held guard) →
        (s.releasesDetected (.dropGuard i) = true ↔
          (guard.owner.session.broken = true →
            s.pool.release guard.owner.session = (.freeSlot none, s.pool))) := by
  have hs : s.Healthy :=
    h.invariant (fun _ hinit ↦ new_healthy hinit.1 hinit.2.2.choose_spec)
      fun _ _ _ hs hmeets hstep ↦ hs.step (step_spec hstep) hmeets
  refine ⟨fun entry hentry ↦ (hs.idle entry hentry).not_broken,
    fun guard hguard ↦ (hs.ops _ hguard).2.not_broken, fun i guard hget ↦ ?_⟩
  rw [releasesDetected_iff hs hget]
  unfold SessionPool.release
  cases guard.owner.session.isOpen <;> simp

/-- The answer to the first statement is lost. -/
def lossyServer : Server where
  connect _ _ _ := none
  answer
    | 3, _, _ => .error "broken pipe"
    | n, connection, request => echoServer.answer n connection request

/-- The guard is released after the session has reconnected and sent the statement again. -/
def returningRun : List PoolAction :=
  growing 0 ++ [.use 0 (.call (.executeNonQuery "USE db1")), .dropGuard 0, .advance 0]

theorem broken_sessions_never_circulate_returned :
    ∃ s, (machine lossyServer (smallConfig 1 (by decide) none)).run releasesDetected returningRun
        (fresh (smallConfig 1 (by decide) none)) = some s ∧
      (∃ entry ∈ s.pool.idle, entry.session.trace.any Call.lost = true) ∧
      ∀ entry ∈ s.pool.idle, entry.session.broken = false := by
  have hends : ((machine lossyServer (smallConfig 1 (by decide) none)).run releasesDetected
      returningRun (fresh (smallConfig 1 (by decide) none))).any
      (fun s ↦ s.pool.idle.any fun entry ↦ entry.session.trace.any Call.lost) = true := by
    decide +kernel
  obtain ⟨s, hrun, hs⟩ := (Option.any_eq_true _ _).mp hends
  have hreached := (fresh_reached lossyServer releasesDetected 1 _ none).run hrun
  exact ⟨s, hrun, List.any_eq_true.mp hs, (broken_sessions_never_circulate hreached).1⟩

/-- A query is answered, and the fetch of its second page fails. -/
def halfServer : Server where
  connect _ _ _ := none
  answer
    | n, _, .openSession _ => .ok ⟨.mk 200 none none none, some (.ofNat n)⟩
    | n, _, .requestStatementId _ => .ok (.ofNat n)
    | n, _, .executeQuery _ => .ok ⟨.mk 200 none none none, some (.ofNat n), none, none, none, none,
        some true, none, none⟩
    | _, _, _ => .error "broken pipe"

/-- The guard is released after the failed fetch, and the session is handed out again. -/
def circulatingRun : List PoolAction :=
  growing 0 ++
    [.use 0 (.executeQuery "SELECT s1 FROM root.d1"), .use 0 .turn, .use 0 .dropDataSet,
      .dropGuard 0, .advance 0, .acquire] ++ List.replicate 4 (.advance 1)

def holdsBroken : Phase → Bool
  | .held guard => guard.handedOut.broken
  | _ => false

theorem broken_session_handed_out :
    ∃ s, (machine halfServer (smallConfig 1 (by decide) none)).Reachable s ∧
      ∃ guard, s.ops[1]? = some (.held guard) ∧ guard.handedOut.broken = true := by
  have hends : ((machine halfServer (smallConfig 1 (by decide) none)).run Machine.anyStep
      circulatingRun (fresh (smallConfig 1 (by decide) none))).any
      (fun s ↦ s.ops[1]?.any holdsBroken) = true := by
    decide +kernel
  obtain ⟨s, hrun, hs⟩ := (Option.any_eq_true _ _).mp hends
  obtain ⟨phase, hget, hphase⟩ := (Option.any_eq_true _ _).mp hs
  have hreached := (fresh_reached halfServer Machine.anyStep 1 _ none).run hrun
  cases phase with
  | held guard => exact ⟨s, hreached.reachable, guard, hget, hphase⟩
  | _ => cases hphase

end PoolSystem

end IotdbClient
