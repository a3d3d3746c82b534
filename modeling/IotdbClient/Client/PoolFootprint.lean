import IotdbClient.Client.Footprint
import IotdbClient.Client.PoolConnections

/-!
# What a pool asks for

All sessions of a pool have its configuration, so a pool asks for no more than its sessions do, in any
interleaving of its users.
-/

namespace IotdbClient

open Library Program Session

variable {server : Server} {config : SessionPoolConfig}

/-- The server behind the filter for the sessions of a pool. -/
abbrev Server.behindPool (server : Server) (config : SessionPoolConfig) : Server :=
  server.behind config.session anyInsert

namespace SessionPool

variable {free : Bool} {pool pool' : SessionPool} {world world' : World} {phase phase' : Phase}

theorem closeAll_behind {sessions : List Session}
    (hsessions : ∀ session ∈ sessions, session.Within config.session) (world : World) :
    closeAll (server.behindPool config) sessions world = closeAll server sessions world := by
  induction sessions generalizing world with
  | nil => rfl
  | cons session rest ih =>
      rw [List.forall_mem_cons] at hsessions
      have hsame := (@unfiltered_close server config.session anyInsert).same (session, world)
        hsessions.1
      simp only [closeAll, hsame, ih hsessions.2]

theorem openSession_behind (hconfig : pool.config = config) (database : Option String) :
    pool.openSession (server.behindPool config) database world =
      pool.openSession server database world := by
  have hnew := within_new config.session database
  unfold openSession
  rw [hconfig]
  exact (@unfiltered_open server config.session anyInsert).same _ hnew

theorem openSession_within (hconfig : pool.config = config) {database : Option String}
    {out : Result Unit} {session : Session}
    (h : pool.openSession server database world = (out, session, world')) :
    session.Within config.session := by
  have hnew := within_new config.session database
  have hkept : (Session.open server (Session.new { config.session with database := database },
      world)).2.1.Within config.session :=
    (@unfiltered_open server config.session anyInsert).kept _ hnew
  unfold openSession at h
  rw [hconfig] at h
  rw [h] at hkept
  exact hkept

theorem useDatabase_behind {session : Session} (hsession : session.Within config.session)
    (poolDb : Option String) (world : World) :
    useDatabase (server.behindPool config) session poolDb world =
      useDatabase server session poolDb world := by
  cases poolDb with
  | none => rfl
  | some db =>
      have huse := @unfiltered_executeNonQuery server config.session anyInsert s!"USE {db}"
      have hsame : executeNonQuery (server.behindPool config) s!"USE {db}" (session, world) =
          executeNonQuery server s!"USE {db}" (session, world) := huse.same (session, world) hsession
      have hkept : (executeNonQuery server s!"USE {db}" (session, world)).2.1.Within config.session :=
        huse.kept (session, world) hsession
      simp only [useDatabase, hsame]
      split
      · rfl
      · rcases hrun : executeNonQuery server s!"USE {db}" (session, world) with ⟨e | _, st⟩
        · rw [hrun] at hkept
          have hclose : Session.close (server.behindPool config) st = Session.close server st :=
            (@unfiltered_close server config.session anyInsert).same st hkept
          simp only [hclose]
        · rfl

/-- The step of an operation is not filtered. -/
theorem advance_behind (hconfig : pool.config = config)
    (hphase : ∀ session ∈ phase.sessions, session.Within config.session) :
    advance (server.behindPool config) free phase pool world =
      advance server free phase pool world := by
  cases phase with
  | closeExpired sweeper sessions | closeSessions sessions =>
      have hsessions : ∀ session ∈ sessions, session.Within config.session := hphase
      simp only [advance, closeAll_behind hsessions]
  | closeReleased session =>
      have hsession : ∀ released ∈ [session], released.Within config.session := hphase
      simp only [advance, closeAll_behind hsession]
  | openSession database => simp only [advance, openSession_behind hconfig]
  | handOutUse session poolDb =>
      have hsession := hphase session (List.mem_singleton_self _)
      simp only [advance, useDatabase_behind hsession]
  | _ => rfl

theorem looked_within {idle looked : List IdleEntry} (h : List.Forall₂ Looked idle looked)
    (hidle : ∀ entry ∈ idle, entry.session.Within config.session) :
    ∀ entry ∈ looked, entry.session.Within config.session := by
  induction h with
  | nil => exact List.forall_mem_nil _
  | cons hentry _ ih =>
      rw [List.forall_mem_cons] at hidle ⊢
      obtain ⟨cache, rfl⟩ := hentry
      exact ⟨⟨hidle.1.settings, hidle.1.endpoint⟩, ih hidle.2⟩

/-- A step passes sessions on, opens one, or runs a `USE`. -/
theorem advances_within (h : Advances server free pool world phase phase' pool' world')
    (hconfig : pool.config = config)
    (hphase : ∀ session ∈ phase.sessions, session.Within config.session)
    (hidle : ∀ entry ∈ pool.idle, entry.session.Within config.session) :
    pool'.config = config ∧ (∀ session ∈ phase'.sessions, session.Within config.session) ∧
      ∀ entry ∈ pool'.idle, entry.session.Within config.session := by
  cases h with
  | devicePicked _ hpick =>
      obtain ⟨looked, hlooked, ⟨hnone, -⟩ | ⟨front, target, back, rfl, hsome, rfl⟩⟩ :=
        pickForDevice_cases hpick
      · cases hnone
      · cases hsome
        have hseen := looked_within hlooked hidle
        simp only [List.forall_mem_append, List.forall_mem_cons] at hseen
        exact ⟨hconfig, List.forall_mem_singleton.mpr hseen.2.1,
          List.forall_mem_append.mpr ⟨hseen.1, hseen.2.2⟩⟩
  | devicePassed _ hpick =>
      obtain ⟨looked, hlooked, ⟨-, rfl⟩ | ⟨_, _, _, -, hsome, -⟩⟩ := pickForDevice_cases hpick
      · exact ⟨hconfig, List.forall_mem_nil _, looked_within hlooked hidle⟩
      · cases hsome
  | sweepDone | expiredClosed =>
      cases ‹Sweeper› <;> exact ⟨hconfig, List.forall_mem_nil _, hidle⟩
  | sweepTakes hentry =>
      have htaken := hidle _ (List.mem_of_getElem? hentry)
      exact ⟨hconfig, List.forall_mem_append.mpr ⟨hphase, List.forall_mem_singleton.mpr htaken⟩,
        fun entry hmem ↦ hidle entry (List.mem_of_mem_eraseIdx hmem)⟩
  | popOpen hqueue =>
      rw [hqueue, List.forall_mem_cons] at hidle
      exact ⟨hconfig, List.forall_mem_singleton.mpr hidle.1, hidle.2⟩
  | popDead hqueue =>
      rw [hqueue, List.forall_mem_cons] at hidle
      exact ⟨hconfig, List.forall_mem_nil _, hidle.2⟩
  | opened hopen =>
      exact ⟨hconfig, List.forall_mem_singleton.mpr (openSession_within hconfig hopen), hidle⟩
  | @handedOutUsed session _ db _ huse =>
      have hkept : (executeNonQuery server s!"USE {db}" (session, world)).2.1.Within config.session :=
        (@unfiltered_executeNonQuery server config.session anyInsert _).kept (session, world)
          (hphase session (List.mem_singleton_self _))
      rw [huse] at hkept
      exact ⟨hconfig, List.forall_mem_singleton.mpr hkept, hidle⟩
  | released | releaseSweeps =>
      have hback := hphase _ (List.mem_singleton_self _)
      exact ⟨hconfig, List.forall_mem_nil _,
        List.forall_mem_append.mpr ⟨hidle, List.forall_mem_singleton.mpr hback⟩⟩
  | closes =>
      exact ⟨hconfig, List.forall_mem_map.mpr hidle, List.forall_mem_nil _⟩
  | _ =>
      refine ⟨hconfig, ?_, hidle⟩
      first
        | exact hphase
        | exact List.forall_mem_nil _

/-! ## New pools -/

theorem fill_behind {n : Nat} (hconfig : pool.config = config)
    (hidle : ∀ entry ∈ pool.idle, entry.session.Within config.session) :
    fill (server.behindPool config) n pool world = fill server n pool world ∧
      ∀ filled later, fill server n pool world = (.ok filled, later) →
        filled.config = config ∧ ∀ entry ∈ filled.idle, entry.session.Within config.session := by
  induction n generalizing pool world with
  | zero =>
      refine ⟨rfl, fun filled later h ↦ ?_⟩
      cases h
      exact ⟨hconfig, hidle⟩
  | succ n ih =>
      simp only [fill, openSession_behind hconfig]
      rcases hopen : pool.openSession server pool.database world with ⟨e | _, session, later⟩
      · -- the sessions opened so far are closed
        have hsessions : ∀ session ∈ pool.idle.map (·.session), session.Within config.session :=
          List.forall_mem_map.mpr hidle
        simp only [closeAll_behind hsessions, true_and]
        intro filled last h
        cases h
      · have hnew := openSession_within hconfig hopen
        exact @ih { pool with
          idle := pool.idle ++ [IdleEntry.mk session later.clock]
          live := fetchAdd pool.live 1 } later hconfig
          (List.forall_mem_append.mpr ⟨hidle, List.forall_mem_singleton.mpr hnew⟩)

theorem new_behind :
    SessionPool.new (server.behindPool config) config world = SessionPool.new server config world ∧
      ∀ pool later, SessionPool.new server config world = (.ok pool, later) →
        pool.config = config ∧ ∀ entry ∈ pool.idle, entry.session.Within config.session := by
  unfold SessionPool.new
  split
  · refine ⟨rfl, fun pool later h ↦ ?_⟩
    cases h
  · exact fill_behind rfl (List.forall_mem_nil _)

end SessionPool

/-- The pool of table-dialect sessions. -/
structure TableSessionPool where
  pool : SessionPool

namespace TableSessionPool

/-- The configuration with the dialect forced. -/
def forced (config : SessionPoolConfig) : SessionPoolConfig :=
  { config with session := { config.session with sqlDialect := "table" } }

def new (server : Server) (config : SessionPoolConfig) (world : World) :
    Result TableSessionPool × World :=
  match SessionPool.new server (forced config) world with
  | (.ok pool, world) => (.ok ⟨pool⟩, world)
  | (.error e, world) => (.error e, world)

end TableSessionPool

namespace PoolSystem

variable {s s' : PoolSystem} {action : PoolAction}

/-- All sessions are within the configuration of the pool. -/
structure Within (config : SessionPoolConfig) (s : PoolSystem) : Prop where
  settings : s.pool.config = config
  sessions : ∀ session ∈ s.sessions, session.Within config.session

theorem Within.idle (hs : s.Within config) :
    ∀ entry ∈ s.pool.idle, entry.session.Within config.session := by
  intro entry hentry
  exact hs.sessions _ (List.mem_append_left _ (List.mem_map_of_mem hentry))

theorem Within.phase (hs : s.Within config) {phase : Phase} (hphase : phase ∈ s.ops) :
    ∀ session ∈ phase.sessions, session.Within config.session := by
  intro session hsession
  exact hs.sessions _ (List.mem_append_right _ (List.mem_flatMap.mpr ⟨phase, hphase, hsession⟩))

/-- Operation `i` goes on with sessions that are within the configuration. -/
theorem Within.moves {i : Nat} {phase : Phase} {s' : PoolSystem} (hs : s.Within config)
    (hops : s'.ops = s.ops.set i phase) (hconfig : s'.pool.config = config)
    (hphase : ∀ session ∈ phase.sessions, session.Within config.session)
    (hidle : ∀ entry ∈ s'.pool.idle, entry.session.Within config.session) : s'.Within config := by
  refine ⟨hconfig, fun session hsession ↦ ?_⟩
  rcases List.mem_append.mp hsession with hqueue | hheld
  · obtain ⟨entry, hentry, rfl⟩ := List.mem_map.mp hqueue
    exact hidle entry hentry
  · obtain ⟨other, hother, hin⟩ := List.mem_flatMap.mp hheld
    rw [hops] at hother
    rcases List.mem_or_eq_of_mem_set hother with hold | rfl
    · exact hs.phase hold session hin
    · exact hphase session hin

theorem act_behindPool {guard : Guard} {use : OwnerAction}
    (hguard : guard.owner.session.Within config.session) {world : World} :
    Owner.act (server.behindPool config) use (guard.owner, world) =
        Owner.act server use (guard.owner, world) ∧
      ∀ st, Owner.act server use (guard.owner, world) = some st →
        st.1.session.Within config.session :=
  Owner.act_behind hguard fun method _ _ hst ↦ method.run_behind hst

theorem Within.step (hs : s.Within config) (h : Steps server s action s') : s'.Within config := by
  cases h with
  | acquires | acquiresForDevice | closes =>
      refine ⟨hs.settings, fun session hsession ↦ hs.sessions session ?_⟩
      simpa [PoolSystem.sessions] using hsession
  | advances hget h =>
      have hphase := hs.phase (List.mem_of_getElem? hget)
      obtain ⟨hconfig, hnext, hidle⟩ :=
        SessionPool.advances_within h hs.settings hphase hs.idle
      exact hs.moves rfl hconfig hnext hidle
  | notifiesNobody hget | wakesUp hget =>
      exact hs.moves rfl hs.settings (List.forall_mem_nil _) hs.idle
  | @notifiesAll i hget =>
      have hdone : Within config { s with ops := s.ops.set i (.done none) } :=
        hs.moves rfl hs.settings (List.forall_mem_nil _) hs.idle
      refine ⟨hs.settings, fun session hsession ↦ hdone.sessions session ?_⟩
      unfold PoolSystem.sessions at hsession ⊢
      rwa [flatMap_wake] at hsession
  | @wakesOne i j outcome deadline hget hparked =>
      have hdone : Within config { s with ops := s.ops.set i (.done outcome) } :=
        hs.moves rfl hs.settings (List.forall_mem_nil _) hs.idle
      exact hdone.moves rfl hs.settings (List.forall_mem_nil _) hs.idle
  | uses hget hact =>
      have hguard := hs.phase (List.mem_of_getElem? hget) _ (List.mem_singleton_self _)
      have hused := (act_behindPool hguard).2 _ hact
      exact hs.moves rfl hs.settings (List.forall_mem_singleton.mpr hused) hs.idle
  | dropsOpen hget =>
      have hguard := hs.phase (List.mem_of_getElem? hget)
      exact hs.moves rfl hs.settings hguard hs.idle
  | dropsDead hget => exact hs.moves rfl hs.settings (List.forall_mem_nil _) hs.idle
  | ticks => exact ⟨hs.settings, hs.sessions⟩

theorem step_behind (hs : s.Within config) :
    step (server.behindPool config) s action = step server s action := by
  cases action with
  | advance i =>
      cases hget : s.ops[i]? with
      | none => simp only [step, hget]
      | some phase =>
          have hsame : SessionPool.advance (server.behindPool config) s.lockFree phase s.pool s.world =
              SessionPool.advance server s.lockFree phase s.pool s.world :=
            SessionPool.advance_behind hs.settings (hs.phase (List.mem_of_getElem? hget))
          cases phase with
          | notifyOne outcome | notifyAll => simp only [step, hget]
          | _ => simp only [step, hget, hsame]
  | use i use =>
      cases hget : s.ops[i]? with
      | none => simp only [step, hget]
      | some phase =>
          cases phase with
          | held guard =>
              have hguard := hs.phase (List.mem_of_getElem? hget) _ (List.mem_singleton_self _)
              have hsame := (@act_behindPool server config guard use hguard s.world).1
              simp only [step, hget, hsame]
          | _ => simp only [step, hget]
  | _ => rfl

theorem init_within (h : (machine server config).init s) : s.Within config := by
  obtain ⟨hops, -, world, hnew⟩ := h
  obtain ⟨hconfig, hidle⟩ := (@SessionPool.new_behind server config world).2 _ _ hnew
  refine ⟨hconfig, ?_⟩
  unfold PoolSystem.sessions
  rw [hops, List.flatMap_nil, List.append_nil]
  exact List.forall_mem_map.mpr hidle

/-- A filter that lets a pool reach the endpoints of its configuration only, and lets it open sessions
only under its own user, time zone and dialect and ask only with its fetch size and time limit, is never
noticed: with it the pool starts in the same states and every run of its users goes the same way,
whatever endpoints the answers of the server point to. -/
theorem filter_unnoticed (hinit : (machine server config).init s) (actions : List PoolAction) :
    (machine (server.behindPool config) config).init s ∧
      (machine (server.behindPool config) config).run Machine.anyStep actions s =
        (machine server config).run Machine.anyStep actions s := by
  constructor
  · obtain ⟨hops, hselected, world, hnew⟩ := hinit
    refine ⟨hops, hselected, world, ?_⟩
    rw [(@SessionPool.new_behind server config world).1]
    exact hnew
  · exact Machine.run_congr (I := fun s ↦ s.Within config) (fun _ _ hs ↦ step_behind hs)
      (fun _ _ _ hs hstep ↦ hs.step (step_spec hstep)) (init_within hinit) actions

/-- A pool of table sessions starts as a pool with the dialect forced, so its sessions are opened in
the dialect `"table"` whatever the configuration says. -/
theorem init_of_tableSessionPool {table : TableSessionPool} {world later : World}
    (h : TableSessionPool.new server config world = (.ok table, later)) :
    (machine server (TableSessionPool.forced config)).init
      ⟨table.pool, later, [], config.session.database⟩ := by
  unfold TableSessionPool.new at h
  split at h
  · rename_i hnew
    cases h
    exact ⟨rfl, rfl, world, hnew⟩
  · cases h

/-- A server that answers every insert with a redirection to an endpoint of its own. -/
def luringServer : Server where
  connect := echoServer.connect
  answer
    | _, _, .insert _ => .ok (TSStatus.mk 400 none none (some ⟨"elsewhere", 6668⟩))
    | n, connection, request => echoServer.answer n connection request

/-- The user of a guard inserts; the next user asks for a session close to the device. -/
def luredRun : List PoolAction :=
  growing 0 ++ [.use 0 (.call (.insertRecord "root.d1" 1 ["s1"] [.int32 7] false)), .dropGuard 0,
    .advance 0, .advance 0, .acquireForDevice "root.d1"] ++ List.replicate 5 (.advance 1)

-- The hint is in the cache, and the filter would stop whoever follows it.
theorem filter_unnoticed_lured :
    ∃ s, (machine (luringServer.behindPool (smallConfig 2 (by decide) none))
        (smallConfig 2 (by decide) none)).run Machine.anyStep luredRun
          (fresh (smallConfig 2 (by decide) none)) = some s ∧
      s.sessions.length = 1 ∧
      (∀ session ∈ s.sessions,
        (session.redirectHint "root.d1" s.world.clock).1 = some ⟨"elsewhere", 6668⟩) ∧
      (luringServer.behindPool (smallConfig 2 (by decide) none)).connect 0 ⟨"elsewhere", 6668⟩
        SessionConfig.default.connectionOptions = some (.client "filtered") := by
  have hends : ((machine luringServer (smallConfig 2 (by decide) none)).run Machine.anyStep luredRun
      (fresh (smallConfig 2 (by decide) none))).any (fun s ↦
        decide (s.sessions.length = 1) && s.sessions.all fun session ↦
          decide ((session.redirectHint "root.d1" s.world.clock).1 = some ⟨"elsewhere", 6668⟩)) =
      true := by
    decide +kernel
  obtain ⟨s, hrun, hs⟩ := (Option.any_eq_true _ _).mp hends
  obtain ⟨hlen, hhint⟩ := Bool.and_eq_true_iff.mp hs
  have hinit : (machine luringServer (smallConfig 2 (by decide) none)).init
      (fresh (smallConfig 2 (by decide) none)) := ⟨rfl, rfl, ⟨0, 0, 0⟩, rfl⟩
  refine ⟨s, ?_, of_decide_eq_true hlen, ?_, rfl⟩
  · rw [(filter_unnoticed hinit luredRun).2, hrun]
  · intro session hsession
    exact of_decide_eq_true (List.all_eq_true.mp hhint session hsession)

end PoolSystem

end IotdbClient
