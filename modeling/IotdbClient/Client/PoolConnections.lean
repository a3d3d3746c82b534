import IotdbClient.Client.PoolClosing
import IotdbClient.Client.SessionIds
import IotdbClient.Library.Ownership

/-!
# Connections are private

Two users of a pool never talk over one connection, and no session ever called over a connection that
another session of the pool holds or has called over.  Sessions own the connections they opened; the
pool only passes sessions on.
-/

namespace IotdbClient

open Library Program

/-- The session holds the connection with this number, or has called over it. -/
def Session.Touches (session : Session) (id : Nat) : Prop :=
  (∃ connection, session.connection = some connection ∧ connection.id = id) ∨
    ∃ call ∈ session.trace, call.connection.id = id

namespace Session

variable {server : Server} {site : CallSite}

/-- From the call number of `before` on. -/
def Grown (before st : Session × World) : Prop :=
  before.2.calls ≤ st.2.calls ∧ Grows Touches before.2.calls st.2.calls before.1 st.1

theorem Grown.trans {first second third : Session × World} (h : Grown first second)
    (h' : Grown second third) : Grown first third :=
  ⟨h.1.trans h'.1, h.2.trans h'.2 h.1 h'.1⟩

-- The calls of a handshake are made over connections that are new.
theorem handshaking_grows {before after : Session × World} {new : List Call}
    (h : Handshaking before after new) {id : Nat} (hcall : ∃ call ∈ after.1.trace, call.connection.id = id) :
    before.1.Touches id ∨ before.2.calls ≤ id ∧ id < after.2.calls := by
  obtain ⟨call, hmem, rfl⟩ := hcall
  rw [h.trace, List.mem_append] at hmem
  rcases hmem with hnew | hold
  · exact .inr (h.fresh call hnew)
  · exact .inl (.inr ⟨call, hold, rfl⟩)

theorem grown_stable (before : Session × World) (site : CallSite) :
    Stable server site (Grown before) where
  call := by
    intro st connection request callSite _ hconn _ hst
    refine hst.trans ⟨Nat.le_succ _, fun id hid ↦ ?_⟩
    rcases hid with hheld | ⟨call, hmem, hcall⟩
    · exact .inl (.inl hheld)
    · rcases List.mem_cons.mp hmem with rfl | hold
      · exact .inl (.inl ⟨connection, hconn, hcall⟩)
      · exact .inl (.inr ⟨call, hold, hcall⟩)
  drop := by
    intro st hst
    refine hst.trans ⟨Nat.le_refl _, fun id hid ↦ ?_⟩
    rcases hid with ⟨connection, hnone, -⟩ | hcall
    · cases hnone
    · exact .inl (.inr hcall)
  online := by
    intro st after _ honline hst
    obtain ⟨connection, hconn, new, h, hmade, -⟩ := honline
    refine hst.trans ⟨h.calls, fun id hid ↦ ?_⟩
    rcases hid with ⟨held, hheld, rfl⟩ | hcall
    · rw [hconn] at hheld
      cases hheld
      exact .inr hmade
    · exact handshaking_grows h hcall
  offline := by
    intro st after hoffline hst
    obtain ⟨new, h, hnone⟩ := hoffline
    refine hst.trans ⟨h.calls, fun id hid ↦ ?_⟩
    rcases hid with ⟨held, hheld, -⟩ | hcall
    · rw [hnone] at hheld
      cases hheld
    · exact handshaking_grows h hcall
  note := fun _ _ hst ↦ hst
  reset := fun _ hst ↦ hst

theorem step_grown {st after : Session × World} (h : Step server site st after) : Grown st after :=
  (grown_stable st site).step h ⟨Nat.le_refl _, fun _ hid ↦ .inl hid⟩

end Session

open Session

namespace SessionPool

variable {server : Server} {free : Bool} {pool pool' : SessionPool} {world world' : World}
  {phase phase' : Phase}

theorem close_grown (session : Session) (world : World) :
    Grown (session, world) (Session.close server (session, world)).2 := by
  have hstep : Step server .single (session, world) (Session.close server (session, world)).2 :=
    close_step (session, world)
  exact step_grown hstep

theorem closeAll_calls (sessions : List Session) (world : World) :
    world.calls ≤ (closeAll server sessions world).2.calls := by
  induction sessions generalizing world with
  | nil => exact Nat.le_refl _
  | cons session rest ih => exact (close_grown session world).1.trans (ih _)

theorem openSession_grown {database : Option String} {out : Result Unit} {session : Session}
    (h : pool.openSession server database world = (out, session, world')) :
    Grown (Session.new { pool.config.session with database := database }, world)
      (session, world') := by
  have hstep : Step server .single
      (Session.new { pool.config.session with database := database }, world)
      (pool.openSession server database world).2 := open_step _
  rw [h] at hstep
  exact step_grown hstep

theorem executeNonQuery_grown {sql : String} {session : Session} {out : Result Unit}
    {st : Session × World}
    (h : Session.executeNonQuery server sql (session, world) = (out, st)) :
    Grown (session, world) st := by
  have hstep : Step server .single (session, world)
      (Session.executeNonQuery server sql (session, world)).2 := executeNonQuery_step _ _
  rw [h] at hstep
  exact step_grown hstep

theorem new_touches (config : SessionConfig) (id : Nat) : ¬(Session.new config).Touches id := by
  rintro (⟨connection, hnone, -⟩ | ⟨call, hmem, -⟩)
  · cases hnone
  · cases hmem

theorem looked_touches {idle looked : List IdleEntry} (h : List.Forall₂ Looked idle looked) :
    List.Forall₂ (fun session session' : Session ↦ ∀ id, session'.Touches id → session.Touches id)
      (idle.map (·.session)) (looked.map (·.session)) := by
  induction h with
  | nil => exact .nil
  | cons hentry _ ih =>
      obtain ⟨cache, rfl⟩ := hentry
      exact .cons (fun _ hid ↦ hid) ih

/-- A step of an operation leaves every connection with one session, whoever has the other sessions. -/
theorem advances_private (h : Advances server free pool world phase phase' pool' world')
    {others : List Session}
    (hprivate : Private Touches world.calls
      (phase.sessions ++ (pool.idle.map (·.session) ++ others))) :
    Private Touches world'.calls (phase'.sessions ++ (pool'.idle.map (·.session) ++ others)) := by
  cases h with
  | devicePicked _ hpick =>
      obtain ⟨looked, hlooked, ⟨hnone, -⟩ | ⟨front, target, back, rfl, hsome, rfl⟩⟩ :=
        pickForDevice_cases hpick
      · cases hnone
      · cases hsome
        have hqueue : Private Touches world.calls (pool.idle.map (·.session) ++ others) := hprivate
        have hseen := hqueue.shrink (looked_touches hlooked)
        rw [List.map_append, List.map_cons, List.append_assoc, List.cons_append] at hseen
        rw [List.map_append, List.append_assoc]
        exact hseen.perm List.perm_middle
  | devicePassed _ hpick =>
      obtain ⟨looked, hlooked, ⟨-, rfl⟩ | ⟨_, _, _, -, hsome, -⟩⟩ := pickForDevice_cases hpick
      · have hqueue : Private Touches world.calls (pool.idle.map (·.session) ++ others) := hprivate
        exact hqueue.shrink (looked_touches hlooked)
      · cases hsome
  | sweepDone => cases ‹Sweeper› <;> exact hprivate
  | @sweepTakes _ _ i expired _ hentry =>
      -- from the middle of the queue to the end of the expired sessions
      obtain ⟨hlt, rfl⟩ := List.getElem?_eq_some_iff.mp hentry
      have hperm := ((List.getElem_cons_eraseIdx_perm hlt).map IdleEntry.session).symm
      have htaken := hprivate.perm ((hperm.append_right others).append_left expired)
      simp only [Phase.sessions, List.append_assoc, List.singleton_append]
      exact htaken
  | @expiredClosed sweeper expired =>
      have hcalls := @closeAll_calls server expired world
      have hrest := (hprivate.sublist (List.sublist_append_right _ _)).mono hcalls
      cases sweeper <;> exact hrest
  | popOpen hidle =>
      rw [hidle] at hprivate
      exact hprivate
  | popDead hidle =>
      rw [hidle] at hprivate
      exact hprivate.sublist (List.sublist_cons_self _ _)
  | @opened database session _ hopen =>
      have hgrown := openSession_grown hopen
      have hnew := hprivate.cons_empty
        (new_touches { pool.config.session with database := database })
      exact hnew.grow hgrown.2 hgrown.1
  | openFailed hopen => exact hprivate.mono (openSession_grown hopen).1
  | handedOutUsed huse =>
      have hgrown := executeNonQuery_grown huse
      exact hprivate.grow hgrown.2 hgrown.1
  | @useFailed session db e st _ huse =>
      have hcalls := (executeNonQuery_grown huse).1.trans (@close_grown server st.1 st.2).1
      exact (hprivate.sublist (List.sublist_cons_self _ _)).mono hcalls
  | @released session | @releaseSweeps session =>
      -- to the end of the queue
      have hfirst : Private Touches world.calls
          (session :: (pool.idle.map (·.session) ++ others)) := hprivate
      simp only [Phase.sessions, List.nil_append, List.map_append, List.map_cons, List.map_nil,
        List.append_assoc, List.singleton_append]
      exact hfirst.perm List.perm_middle.symm
  | @releasedShut session =>
      have hcalls := @closeAll_calls server [session] world
      exact (hprivate.sublist (List.sublist_cons_self _ _)).mono hcalls
  | closes => exact hprivate
  | @drainedShut drained =>
      have hcalls := @closeAll_calls server drained world
      exact (hprivate.sublist (List.sublist_append_right _ _)).mono hcalls
  | _ => exact hprivate

end SessionPool

namespace PoolSystem

variable {server : Server} {s s' : PoolSystem} {action : PoolAction} {config : SessionPoolConfig}

/-- No connection is in two hands. -/
def Exclusive (s : PoolSystem) : Prop := Private Touches s.world.calls s.sessions

/-- The sessions of operation `i` in front, then the queue, then those of the others. -/
theorem sessions_split {i : Nat} {phase : Phase} (hget : s.ops[i]? = some phase) :
    ∃ others : List Session,
      s.sessions.Perm (phase.sessions ++ (s.pool.idle.map (·.session) ++ others)) ∧
      ∀ (phase' : Phase) (idle : List IdleEntry),
        (idle.map (·.session) ++ (s.ops.set i phase').flatMap Phase.sessions).Perm
          (phase'.sessions ++ (idle.map (·.session) ++ others)) := by
  obtain ⟨rest, hbefore, hafter⟩ := flatMap_set Phase.sessions hget
  refine ⟨rest.toList, ?_, fun phase' idle ↦ ?_⟩
  · refine Multiset.coe_eq_coe.mp ?_
    simp only [sessions, SessionPool.sessions, ← Multiset.coe_add, hbefore, Multiset.coe_toList]
    rw [← add_assoc, add_comm]
  · refine Multiset.coe_eq_coe.mp ?_
    simp only [← Multiset.coe_add, hafter phase', Multiset.coe_toList]
    rw [← add_assoc, add_comm]

/-- An operation goes on, and what it does leaves the connections private. -/
theorem Exclusive.moves {i : Nat} {phase phase' : Phase} (hs : s.Exclusive)
    (hget : s.ops[i]? = some phase) (hops : s'.ops = s.ops.set i phase')
    (h : ∀ others, Private Touches s.world.calls
        (phase.sessions ++ (s.pool.idle.map (·.session) ++ others)) →
      Private Touches s'.world.calls
        (phase'.sessions ++ (s'.pool.idle.map (·.session) ++ others))) : s'.Exclusive := by
  obtain ⟨others, hbefore, hafter⟩ := sessions_split hget
  have hmoved := h others (hs.perm hbefore)
  unfold Exclusive sessions
  rw [hops]
  exact hmoved.perm (hafter phase' s'.pool.idle).symm

theorem Exclusive.step (hs : s.Exclusive) (h : Steps server s action s') : s'.Exclusive := by
  cases h with
  | acquires | acquiresForDevice | closes =>
      unfold Exclusive sessions at hs ⊢
      simp only [List.flatMap_append, List.flatMap_cons, List.flatMap_nil, Phase.sessions,
        List.append_nil]
      exact hs
  | advances hget h => exact hs.moves hget rfl fun _ ↦ SessionPool.advances_private h
  | notifiesNobody hget => exact hs.moves hget rfl fun _ h ↦ h
  | notifiesAll hget =>
      have hdone : Exclusive { s with ops := s.ops.set _ (.done none) } :=
        hs.moves hget rfl fun _ h ↦ h
      unfold Exclusive sessions at hdone ⊢
      rw [flatMap_wake]
      exact hdone
  | @wakesOne i j outcome deadline hget hparked =>
      have hdone : Exclusive { s with ops := s.ops.set i (.done outcome) } :=
        hs.moves hget rfl fun _ h ↦ h
      exact hdone.moves hparked rfl fun _ h ↦ h
  | wakesUp hget => exact hs.moves hget rfl fun _ h ↦ h
  | @uses i guard action owner world hget hact =>
      have hgrown := Owner.act_keeps (I := fun st ↦ Grown (guard.owner.session, s.world) st)
        (fun _ _ _ _ hstep hst ↦ hst.trans (step_grown hstep)) hact
        ⟨Nat.le_refl _, fun _ hid ↦ .inl hid⟩
      exact hs.moves hget rfl fun _ h ↦ h.grow hgrown.2 hgrown.1
  | dropsOpen hget => exact hs.moves hget rfl fun _ h ↦ h
  | dropsDead hget =>
      exact hs.moves hget rfl fun _ h ↦ h.sublist (List.sublist_cons_self _ _)
  | ticks => exact hs

theorem fill_private {n : Nat} {pool pool' : SessionPool} {world world' : World}
    (hfill : SessionPool.fill server n pool world = (.ok pool', world'))
    (hpool : Private Touches world.calls pool.sessions) :
    Private Touches world'.calls pool'.sessions := by
  induction n generalizing pool world with
  | zero =>
      cases hfill
      exact hpool
  | succ n ih =>
      simp only [SessionPool.fill] at hfill
      rcases hopen : pool.openSession server pool.database world with ⟨e | _, session, later⟩ <;>
        rw [hopen] at hfill
      · cases hfill
      · have hgrown := SessionPool.openSession_grown hopen
        have hnew := (hpool.cons_empty (SessionPool.new_touches _)).grow hgrown.2 hgrown.1
        refine ih hfill ?_
        show Private Touches later.calls ((pool.idle ++ [IdleEntry.mk session _]).map (·.session))
        rw [List.map_append]
        exact hnew.perm (List.perm_append_singleton _ _).symm

theorem reachable_exclusive (h : (machine server config).Reachable s) : s.Exclusive := by
  refine h.invariant (fun s hinit ↦ ?_) fun _ _ _ hs _ hstep ↦ hs.step (step_spec hstep)
  obtain ⟨hops, -, world, hnew⟩ := hinit
  have hpool : Private Touches s.world.calls s.pool.sessions := by
    unfold SessionPool.new at hnew
    split at hnew
    · cases hnew
    · exact fill_private hnew ⟨List.forall_mem_nil _, .nil⟩
  unfold Exclusive sessions
  rw [hops, List.flatMap_nil, List.append_nil]
  exact hpool

theorem touches_of {session : Session} {connection : Connection}
    (h : session.connection = some connection ∨
      ∃ call ∈ session.trace, call.connection = connection) : session.Touches connection.id := by
  rcases h with hheld | ⟨call, hmem, rfl⟩
  · exact .inl ⟨connection, hheld, rfl⟩
  · exact .inr ⟨call, hmem, rfl⟩

/-- In every state a pool can reach, any two of its sessions, whether idle, handed out or in the hands
of an operation, have nothing in common: no connection that one of them holds or has ever called over
is held or was ever called over by the other. -/
theorem connections_private (h : (machine server config).Reachable s) {i j : Nat} (hij : i ≠ j)
    {first second : Session} (hi : s.sessions[i]? = some first) (hj : s.sessions[j]? = some second)
    {connection connection' : Connection}
    (hfirst : first.connection = some connection ∨
      ∃ call ∈ first.trace, call.connection = connection)
    (hsecond : second.connection = some connection' ∨
      ∃ call ∈ second.trace, call.connection = connection') :
    connection ≠ connection' := by
  have hapart := List.pairwise_iff_getElem.mp (reachable_exclusive h).apart
  obtain ⟨hi', rfl⟩ := List.getElem?_eq_some_iff.mp hi
  obtain ⟨hj', rfl⟩ := List.getElem?_eq_some_iff.mp hj
  intro heq
  have hone := touches_of hfirst
  have htwo := touches_of hsecond
  rw [heq] at hone
  rcases Nat.lt_or_gt_of_ne hij with hlt | hgt
  · exact hapart i j hi' hj' hlt _ hone htwo
  · exact hapart j i hj' hi' hgt _ htwo hone

/-- Two users of one pool. -/
def twoUsers : List PoolAction := growing 0 ++ growing 1

theorem connections_private_twoUsers :
    ∃ s first second connection connection',
      (machine echoServer (smallConfig 2 (by decide) none)).run Machine.anyStep twoUsers
        (fresh (smallConfig 2 (by decide) none)) = some s ∧ s.sessions = [first, second] ∧
      first.connection = some connection ∧ second.connection = some connection' ∧
      connection ≠ connection' := by
  have hends : ((machine echoServer (smallConfig 2 (by decide) none)).run Machine.anyStep twoUsers
      (fresh (smallConfig 2 (by decide) none))).any (fun s ↦
        decide (s.sessions.length = 2) && s.sessions.all Session.isOpen) = true := by
    decide +kernel
  obtain ⟨s, hrun, hs⟩ := (Option.any_eq_true _ _).mp hends
  obtain ⟨hlen, hopen⟩ := Bool.and_eq_true_iff.mp hs
  obtain ⟨first, second, hsessions⟩ := List.length_eq_two.mp (of_decide_eq_true hlen)
  rw [hsessions, List.all_eq_true] at hopen
  obtain ⟨connection, hfirst⟩ := Option.isSome_iff_exists.mp (hopen first (by simp))
  obtain ⟨connection', hsecond⟩ := Option.isSome_iff_exists.mp (hopen second (by simp))
  have hreached := (fresh_reached echoServer Machine.anyStep 2 _ none).run hrun
  have hne := connections_private hreached.reachable Nat.zero_ne_one
    (by rw [hsessions]; rfl) (by rw [hsessions]; rfl) (.inl hfirst) (.inl hsecond)
  exact ⟨s, first, second, connection, connection', hrun, hsessions, hfirst, hsecond, hne⟩

end PoolSystem

end IotdbClient
