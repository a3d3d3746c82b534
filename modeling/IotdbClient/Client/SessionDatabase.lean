import IotdbClient.Client.SessionIds

/-!
# The database of a session

Statements reach the server through `execute_non_query` and through `execute_query_raw`; either
response can name the database that the server has selected.  Only the first of the two methods
looks.  The trace says what was heard, and every handshake says what the session believed.
-/

namespace IotdbClient

open Library Program

inductive StatementKind where
  | update
  | query
deriving Repr, DecidableEq

/-- The database that a successful statement response names, with the kind of the statement. -/
def Call.heard : Call → Option (StatementKind × String)
  | ⟨_, _, .executeUpdate _, .ok resp⟩ => (Session.usedDatabase (.ok resp)).map (.update, ·)
  | ⟨_, _, .executeQuery _, .ok resp⟩ => (Session.usedDatabase (.ok resp)).map (.query, ·)
  | _ => none

/-- What the last successful statement response that named a database named; newest call first. -/
def lastHeard (calls : List Call) : Option (StatementKind × String) := calls.findSome? Call.heard

def lastSelected (calls : List Call) : Option String := (lastHeard calls).map Prod.snd

/-- The `db` entry of an `openSession`. -/
def TSOpenSessionReq.db (req : TSOpenSessionReq) : Option String := req.configuration.lookup "db"

/-- A handshake asks for the database that was selected last before it. -/
def OpensWith (configured : Option String) (call : Call) (older : List Call) : Prop :=
  ∀ req, call.request = .openSession req → req.db = (lastSelected older).or configured

theorem lastHeard_append (new old : List Call) :
    lastHeard (new ++ old) = (lastHeard new).or (lastHeard old) := List.findSome?_append

theorem lastSelected_append (new old : List Call) :
    lastSelected (new ++ old) = (lastSelected new).or (lastSelected old) := by
  rw [lastSelected, lastHeard_append, Option.map_or]
  rfl

namespace Session

theorem heard_readsAnswers : ReadsAnswers Call.heard where
  handshake := by
    rintro ⟨connection, site, request, reply⟩ h
    cases request <;> first | rfl | cases h
  error := by
    intro connection site request e
    cases request <;> rfl

theorem openSessionReq_db (session : Session) : session.openSessionReq.db = session.database := by
  unfold openSessionReq TSOpenSessionReq.db
  cases session.database <;> rfl

/-- The database is the one the server selected last, and so were those of all handshakes. -/
structure Tracked (configured : Option String) (session : Session) : Prop where
  database : session.database = (lastSelected session.trace).or configured
  handshakes : EachCall (OpensWith configured) session.trace

variable {server : Server} {site : CallSite} {configured : Option String}

/-- Handshakes select nothing and ask for the database of the moment. -/
theorem Tracked.handshaking {before after : Session × World} {new : List Call}
    (h : Tracked configured before.1) (hnew : Handshaking before after new) :
    Tracked configured after.1 := by
  have hunheard : ∀ calls, (∀ call ∈ calls, call ∈ new) → lastSelected calls = none := by
    intro calls hcalls
    have hnone : lastHeard calls = none := List.findSome?_eq_none_iff.mpr fun call hcall ↦
      heard_readsAnswers.handshake call (hnew.handshakes call (hcalls call hcall)).2
    rw [lastSelected, hnone, Option.map_none]
  have heach : ∀ calls, (∀ call ∈ calls, call ∈ new) →
      EachCall (OpensWith configured) (calls ++ before.1.trace) := by
    intro calls hcalls
    induction calls with
    | nil => exact h.handshakes
    | cons call rest ih =>
        rw [List.forall_mem_cons] at hcalls
        rw [List.cons_append]
        refine ⟨fun req hreq ↦ ?_, ih hcalls.2⟩
        rw [hnew.requests call hcalls.1 req hreq, openSessionReq_db, lastSelected_append,
          hunheard rest hcalls.2, Option.none_or]
        exact h.database
  constructor
  · rw [hnew.trace, lastSelected_append, hunheard new fun _ hcall ↦ hcall, Option.none_or,
      hnew.database]
    exact h.database
  · rw [hnew.trace]
    exact heach new fun _ hcall ↦ hcall

/-- A call that is no handshake does not touch what the handshakes asked for. -/
theorem eachCall_cons {call : Call} {older : List Call} (hkind : call.request.isHandshake = false)
    (h : EachCall (OpensWith configured) older) : EachCall (OpensWith configured) (call :: older) := by
  refine ⟨fun req hreq ↦ ?_, h⟩
  rw [hreq] at hkind
  cases hkind

theorem Tracked.failed {connection : Connection} {callSite : CallSite} {request : Request}
    {st : Session × World} {e : String} (h : Tracked configured st.1)
    (hkind : request.isHandshake = false)
    (hreply : server.answer st.2.calls connection request = .error e) :
    Tracked configured (dropped (afterCall server connection callSite request st)).1 := by
  have hadds : Adds Call.heard st.1
      (dropped (afterCall server connection callSite request st)).1 none :=
    Adds.failed heard_readsAnswers hreply
  obtain ⟨new, htrace, hdatabase, hnone⟩ := hadds
  refine ⟨?_, eachCall_cons hkind h.handshakes⟩
  rw [htrace, lastSelected_append, hdatabase, h.database]
  simp only [lastSelected, lastHeard, hnone, Option.map_none, Option.none_or]

/-- All handshakes of a retried call come before its statement is answered. -/
theorem Tracked.retried {α : Type} {mk : Session → Request}
    {out : (session : Session) → (mk session).Reply → α} {st after : Session × World}
    {result : Result α} (h : Tracked configured st.1) (hrun : Retried server mk out st result after)
    (hkind : ∀ session, (mk session).isHandshake = false) :
    EachCall (OpensWith configured) after.1.trace := by
  cases hrun with
  | notOpen => exact h.handshakes
  | first | unretried => exact eachCall_cons (hkind _) h.handshakes
  | lost _ hreply _ hafter =>
      obtain ⟨new, hnew, -⟩ := hafter
      exact ((h.failed (hkind _) hreply).handshaking hnew).handshakes
  | second _ hreply _ hmid | secondFailed _ hreply _ hmid =>
      obtain ⟨_, _, new, hnew, -⟩ := hmid
      exact eachCall_cons (hkind _) ((h.failed (hkind _) hreply).handshaking hnew).handshakes

/-- What a step does to the database: it takes over what an update named and passes over what a
query named. -/
def Listens (before after : Session) : Prop :=
  ∃ new, after.trace = new ++ before.trace ∧
    after.database = match lastHeard new with
      | some (.update, db) => some db
      | _ => before.database

theorem Listens.of_adds {before after : Session} (h : Adds Call.heard before after none) :
    Listens before after := by
  obtain ⟨new, htrace, hdatabase, hnone⟩ := h
  exact ⟨new, htrace, by rw [lastHeard, hnone, hdatabase]⟩

theorem step_listens {st after : Session × World} (h : Step server site st after) :
    Listens st.1 after.1 := by
  cases h with
  | idle | hint | closedAgain => exact ⟨[], rfl, rfl⟩
  | opened _ h =>
      obtain ⟨_, _, new, hnew, -⟩ := h
      exact .of_adds (Adds.handshaking heard_readsAnswers hnew)
  | unopened _ h =>
      obtain ⟨new, hnew, -⟩ := h
      exact .of_adds (Adds.handshaking heard_readsAnswers hnew)
  | insert h =>
      exact .of_adds
        (Retried.adds heard_readsAnswers h (fun _ ↦ none) (fun _ ↦ rfl) fun _ _ _ _ ↦ rfl)
  | query h =>
      obtain ⟨new, htrace, hdatabase, hheard⟩ := Retried.adds heard_readsAnswers h
        (fun out ↦ (usedDatabase out).map (StatementKind.query, ·)) (fun _ ↦ rfl) fun _ _ _ _ ↦ rfl
      refine ⟨new, htrace, ?_⟩
      rw [lastHeard, hheard, hdatabase]
      cases usedDatabase _ <;> rfl
  | update h =>
      obtain ⟨new, htrace, hdatabase, hheard⟩ := Retried.adds heard_readsAnswers h
        (fun out ↦ (usedDatabase out).map (StatementKind.update, ·)) (fun _ ↦ rfl) fun _ _ _ _ ↦ rfl
      refine ⟨new, htrace, ?_⟩
      rw [lastHeard, hheard, hdatabase]
      cases usedDatabase _ <;> rfl
  | fetch | closeQuery | closed => exact .of_adds (Adds.answered rfl rfl)

theorem step_handshakes {st after : Session × World} (h : Step server site st after)
    (hst : Tracked configured st.1) : EachCall (OpensWith configured) after.1.trace := by
  cases h with
  | idle | hint | closedAgain => exact hst.handshakes
  | opened _ h =>
      obtain ⟨_, _, new, hnew, -⟩ := h
      exact (hst.handshaking hnew).handshakes
  | unopened _ h =>
      obtain ⟨new, hnew, -⟩ := h
      exact (hst.handshaking hnew).handshakes
  | query h | update h | insert h =>
      have hafter := hst.retried h fun _ ↦ rfl
      exact hafter
  | fetch | closeQuery | closed => exact eachCall_cons rfl hst.handshakes

/-- Only calls were made that name no database and are no handshakes. -/
def Paged (before after : Session) : Prop :=
  ∃ new, after.trace = new ++ before.trace ∧ after.database = before.database ∧
    ∀ call ∈ new, call.heard = none ∧ call.request.isHandshake = false

theorem Paged.refl (session : Session) : Paged session session := ⟨[], rfl, rfl, by simp⟩

theorem Paged.call {before : Session} {st : Session × World} (h : Paged before st.1)
    {request : Request} (hheard : ∀ connection reply, Call.heard ⟨connection, site, request, reply⟩ = none)
    (hkind : request.isHandshake = false) (connection : Connection) :
    Paged before (afterCall server connection site request st).1 := by
  obtain ⟨new, htrace, hdatabase, hquiet⟩ := h
  refine ⟨⟨connection, site, request, server.answer st.2.calls connection request⟩ :: new, ?_,
    hdatabase, List.forall_mem_cons.mpr ⟨⟨hheard _ _, hkind⟩, hquiet⟩⟩
  rw [List.cons_append, ← htrace]
  rfl

theorem Paged.fetchResults {before : Session} (queryId : Int64) (sql : String)
    {st : Session × World} (h : Paged before st.1) :
    Paged before (fetchResults server site queryId sql st).2.1 := by
  rw [fetchResults_eq]
  cases st.1.connection with
  | none => exact h
  | some connection => exact h.call (fun _ _ ↦ rfl) rfl connection

theorem Paged.closeQuery {before : Session} (queryId : Int64) {st : Session × World}
    (h : Paged before st.1) : Paged before (Session.closeQuery server site queryId st).2.1 := by
  rw [closeQuery_eq]
  cases st.1.connection with
  | none => exact h
  | some connection => exact h.call (fun _ _ ↦ rfl) rfl connection

theorem Paged.listens {before after : Session} (h : Paged before after) : Listens before after := by
  obtain ⟨new, htrace, hdatabase, hquiet⟩ := h
  have hnone : lastHeard new = none :=
    List.findSome?_eq_none_iff.mpr fun call hcall ↦ (hquiet call hcall).1
  exact ⟨new, htrace, by rw [hnone, hdatabase]⟩

theorem Paged.handshakes {before after : Session} (h : Paged before after)
    (hbefore : EachCall (OpensWith configured) before.trace) :
    EachCall (OpensWith configured) after.trace := by
  obtain ⟨new, htrace, -, hquiet⟩ := h
  rw [htrace]
  refine EachCall.append (fun call hcall older req hreq ↦ ?_) hbefore
  have hkind := (hquiet call hcall).2
  rw [hreq] at hkind
  cases hkind

/-- The calls made between two states of a session. -/
def newCalls (before after : Session) : List Call :=
  after.trace.take (after.trace.length - before.trace.length)

theorem newCalls_of_append {before after : Session} {new : List Call}
    (h : after.trace = new ++ before.trace) : newCalls before after = new := by
  unfold newCalls
  rw [h, List.length_append, Nat.add_sub_cancel, List.take_left]

/-- What a session heard from a query is no news to it. -/
def hearsNoNews (before after : Session) : Bool :=
  match lastHeard (newCalls before after) with
  | some (.query, db) => before.database == some db
  | _ => true

/-- A session that is right stays so exactly if it heard no news from a query. -/
theorem Listens.tracked_iff {before after : Session} (h : Listens before after)
    (hright : before.database = (lastSelected before.trace).or configured) :
    hearsNoNews before after = true ↔
      after.database = (lastSelected after.trace).or configured := by
  obtain ⟨new, htrace, hdatabase⟩ := h
  have hselected : lastSelected new = (lastHeard new).map Prod.snd := rfl
  rw [hearsNoNews, newCalls_of_append htrace, hdatabase, htrace, lastSelected_append, hselected,
    Option.or_assoc, ← hright]
  rcases lastHeard new with _ | ⟨_ | _, db⟩
  · exact iff_of_true rfl rfl
  · exact iff_of_true rfl rfl
  · exact beq_iff_eq

end Session

/-! ## Runs -/

namespace Owner

variable {server : Server} {config : SessionConfig}

variable (server config) in
/-- No query of the step is answered, with a good status, with a database other than the session's. -/
def keepsDatabase (st : Owner × World) (event : OwnerEvent) : Bool :=
  ((machine server config).step st event).all fun st' ↦
    Session.hearsNoNews st.1.session st'.1.session

theorem machine_listens {st st' : Owner × World} {event : OwnerEvent}
    (h : (machine server config).step st event = some st') :
    Session.Listens st.1.session st'.1.session ∧ ∀ configured,
      Session.Tracked configured st.1.session →
      EachCall (OpensWith configured) st'.1.session.trace := by
  obtain ⟨owner, world⟩ := st
  obtain ⟨owner', world'⟩ := st'
  have hpaged : Session.Paged owner.session owner'.session → Session.Listens owner.session owner'.session ∧
      ∀ configured, Session.Tracked configured owner.session →
        EachCall (OpensWith configured) owner'.session.trace := fun hpaged ↦
    ⟨hpaged.listens, fun _ htracked ↦ hpaged.handshakes htracked.handshakes⟩
  cases event with
  | own action =>
      rcases act_step_or_pages (I := fun st ↦ Session.Paged owner.session st.1)
        (fun queryId sql _ ↦ Session.Paged.fetchResults queryId sql)
        (fun queryId _ ↦ Session.Paged.closeQuery queryId) h (Session.Paged.refl _) with hstep | hpages
      · exact ⟨Session.step_listens hstep, fun _ ↦ Session.step_handshakes hstep⟩
      · exact hpaged hpages
  | elsewhere later =>
      simp only [machine] at h
      split at h
      · cases h
        exact hpaged (.refl _)
      · cases h

/-- In every run in which no query is answered with news of the database, the session's database is
the one named by the last successful statement response that named one, and every handshake asked
for the one selected before it.  The first query answered with news breaks this. -/
theorem database_follows_server {st : Owner × World}
    (h : (machine server config).ReachableBy
      (fun st event ↦ keepsDatabase server config st event = true) st) :
    st.1.session.database = (lastSelected st.1.session.trace).or config.database ∧
      (∀ newer call older req, st.1.session.trace = newer ++ call :: older →
        call.request = .openSession req → req.db = (lastSelected older).or config.database) ∧
      ∀ event st', (machine server config).step st event = some st' →
        (keepsDatabase server config st event = true ↔
          st'.1.session.database = (lastSelected st'.1.session.trace).or config.database) := by
  have hkeeps : ∀ {st st' event}, (machine server config).step st event = some st' →
      keepsDatabase server config st event = Session.hearsNoNews st.1.session st'.1.session := by
    intro st st' event hstep
    rw [keepsDatabase, hstep, Option.all_some]
  have htracked : Session.Tracked config.database st.1.session := by
    refine h.invariant (I := fun st ↦ Session.Tracked config.database st.1.session) ?_ ?_
    · rintro ⟨owner, world⟩ rfl
      exact ⟨rfl, trivial⟩
    · intro st event st' hst hcond hstep
      obtain ⟨hlistens, hhandshakes⟩ := machine_listens hstep
      rw [hkeeps hstep] at hcond
      exact ⟨(hlistens.tracked_iff hst.database).mp hcond, hhandshakes _ hst⟩
  refine ⟨htracked.database, ?_, ?_⟩
  · intro newer call older req htrace hreq
    have heach := htracked.handshakes
    rw [htrace] at heach
    exact heach.split req hreq
  · intro event st' hstep
    rw [hkeeps hstep]
    exact (machine_listens hstep).1.tracked_iff htracked.database

/-- Every `USE` selects `db2`, whichever call it comes by; the fifth call of the process is lost. -/
def useServer : Server where
  connect _ _ _ := none
  answer
    | n, _, .openSession _ => .ok ⟨.mk 200 none none none, some (.ofNat n)⟩
    | n, _, .requestStatementId _ => .ok (.ofNat n)
    | 4, _, _ => .error "broken pipe"
    | n, _, .executeUpdate req | n, _, .executeQuery req =>
        .ok ⟨.mk 200 none none none, some (.ofNat n), none, none, none, none, none,
          if req.statement = "USE db2" then some "db2" else none, none⟩
    | _, _, _ => .error "not scripted"

def db1Config : SessionConfig := { SessionConfig.default with database := some "db1" }

/-- The `db` entries of the handshakes, oldest first. -/
def handshakeDatabases (trace : List Call) : List (Option String) :=
  trace.reverse.filterMap fun call ↦
    match call.request with
    | .openSession req => some req.db
    | _ => none

/-- `USE db2` by one of the two methods, then an update that is lost and sent again. -/
def useRun (use : SessionCall) : List OwnerEvent :=
  [.own (.call .open), .own (.call use), .own (.call (.executeNonQuery "DELETE FROM t"))]

theorem database_follows_server_updated :
    ∃ st, (machine useServer db1Config).run (keepsDatabase useServer db1Config)
        (useRun (.executeNonQuery "USE db2")) (⟨Session.new db1Config, none⟩, ⟨0, 0, 0⟩) = some st ∧
      handshakeDatabases st.1.session.trace = [some "db1", some "db2"] ∧
      st.1.session.database = some "db2" ∧
      st.1.session.database = (lastSelected st.1.session.trace).or db1Config.database := by
  have hends : ((machine useServer db1Config).run (keepsDatabase useServer db1Config)
      (useRun (.executeNonQuery "USE db2")) (⟨Session.new db1Config, none⟩, ⟨0, 0, 0⟩)).any
      (fun st ↦ decide (handshakeDatabases st.1.session.trace = [some "db1", some "db2"] ∧
        st.1.session.database = some "db2")) = true := by
    decide +kernel
  obtain ⟨st, hrun, hst⟩ := (Option.any_eq_true _ _).mp hends
  have hfacts := of_decide_eq_true hst
  have hreached := Machine.ReachableBy.run (.init rfl) hrun
  exact ⟨st, hrun, hfacts.1, hfacts.2, (database_follows_server hreached).1⟩

/-- By a query, the `USE` is not noticed, and the reconnect selects the old database again. -/
theorem use_by_query_unnoticed :
    ∃ st, (machine useServer db1Config).Reachable st ∧
      lastSelected st.1.session.trace = some "db2" ∧ st.1.session.database = some "db1" ∧
      handshakeDatabases st.1.session.trace = [some "db1", some "db1"] := by
  have hends : ((machine useServer db1Config).run Machine.anyStep
      (useRun (.executeQueryRaw "USE db2")) (⟨Session.new db1Config, none⟩, ⟨0, 0, 0⟩)).any
      (fun st ↦ decide (lastSelected st.1.session.trace = some "db2" ∧
        st.1.session.database = some "db1" ∧
        handshakeDatabases st.1.session.trace = [some "db1", some "db1"])) = true := by
    decide +kernel
  obtain ⟨st, hrun, hst⟩ := (Option.any_eq_true _ _).mp hends
  exact ⟨st, (Machine.ReachableBy.run (.init rfl) hrun).reachable, of_decide_eq_true hst⟩

end Owner

end IotdbClient
