import IotdbClient.Client.SessionFrame
import IotdbClient.Client.Endpoint

/-!
# What a session asks for

A session dials the endpoints of its configuration, with the options of its configuration, and says
in its requests who it is, in which dialect, and how much it wants at a time.  Answers cannot make it
do anything else: neither the redirection hints in them nor anything else a server says.  So a filter
in front of the server that refuses the rest goes unnoticed.
-/

namespace IotdbClient

open Library Program

namespace SessionConfig

def withNodeUrls (config : SessionConfig) (nodeUrls : List String) : Result SessionConfig := do
  let endpoints ← nodeUrls.mapM Endpoint.parse
  pure { config with endpoints := endpoints }

/-- A configuration from node urls has no endpoint but those named. -/
theorem endpoint_of_withNodeUrls {config config' : SessionConfig} {nodeUrls : List String}
    (h : config.withNodeUrls nodeUrls = .ok config') {endpoint : Endpoint}
    (hmem : endpoint ∈ config'.endpoints) :
    ∃ url ∈ nodeUrls, Endpoint.parse url = .ok endpoint := by
  obtain ⟨endpoints, hparsed, hset⟩ := Library.bind_eq_ok.mp h
  rw [← Except.ok.inj hset] at hmem
  exact mem_of_mapM_eq_ok hparsed hmem

/-- What a session of this configuration may send; `inserts` says which inserts. -/
def permits (config : SessionConfig) (inserts : InsertReq → Bool) : Request → Bool
  | .openSession req => req.zoneId = config.zoneId && req.username = config.username &&
      req.password = some config.password &&
      req.configuration.lookup "sql_dialect" = some config.sqlDialect
  | .executeUpdate req | .executeQuery req =>
      req.fetchSize = some config.fetchSize && req.timeout = some config.queryTimeoutMs
  | .fetchResults req => req.fetchSize = config.fetchSize && req.timeout = some config.queryTimeoutMs
  | .insert req => inserts req
  | .requestStatementId _ | .closeOperation _ | .closeSession _ => true

end SessionConfig

/-- The server behind a filter for the sessions of one configuration. -/
def Server.behind (server : Server) (config : SessionConfig) (inserts : InsertReq → Bool) :
    Server where
  connect n endpoint options :=
    if endpoint ∈ config.endpoints ∧ options = config.connectionOptions then
      server.connect n endpoint options
    else some (.client "filtered")
  answer n connection request :=
    if connection.endpoint ∈ config.endpoints ∧ config.permits inserts request then
      server.answer n connection request
    else .error "filtered"

theorem Server.behind_refuses {server : Server} {config : SessionConfig}
    {inserts : InsertReq → Bool} {request : Request} (n : Nat) (connection : Connection)
    (h : config.permits inserts request = false) :
    (server.behind config inserts).answer n connection request = .error "filtered" := by
  apply if_neg
  rw [h]
  exact fun hpermitted ↦ Bool.false_ne_true hpermitted.2

namespace Session

/-- A session of the configuration, whatever its database, and connected to one of the endpoints if it
is connected. -/
structure Within (config : SessionConfig) (session : Session) : Prop where
  settings : ∃ db, session.config = { config with database := db }
  endpoint : ∀ connection, session.connection = some connection →
    connection.endpoint ∈ config.endpoints

variable {server : Server} {config : SessionConfig} {inserts : InsertReq → Bool}

theorem within_new (config : SessionConfig) (db : Option String) :
    (Session.new { config with database := db }).Within config where
  settings := ⟨db, rfl⟩
  endpoint := by
    intro connection hnone
    cases hnone

/-- Nothing that `m` asks is filtered. -/
abbrev Unfiltered (server : Server) (config : SessionConfig) (inserts : InsertReq → Bool) {α : Type}
    (Q : α → Prop) (m : Server → SessionM α) : Prop :=
  Alike (fun st ↦ st.1.Within config) Q (m server) (m (server.behind config inserts))

/-- Whatever it is. -/
abbrev anyValue {α : Type} (_ : α) : Prop := True

variable {α : Type} {Q : α → Prop}

theorem alike_self : Alike (fun st ↦ st.1.Within config) (Within config) self self where
  same _ _ := rfl
  kept _ hst := hst
  value _ _ hst heq := Except.ok.inj heq ▸ hst

theorem alike_update {f : Session → Session} (h : ∀ session, Within config session →
      Within config (f session)) :
    Alike (fun st ↦ st.1.Within config) anyValue (update f) (update f) :=
  Alike.modify fun st hst ↦ h st.1 hst

/-- A change that keeps the configuration and the connection. -/
theorem alike_update_of_same {f : Session → Session} (hconfig : ∀ session,
      (f session).config = session.config)
    (hconn : ∀ session, (f session).connection = session.connection) :
    Alike (fun st ↦ st.1.Within config) anyValue (update f) (update f) := by
  apply alike_update
  intro session h
  refine ⟨?_, fun connection hheld ↦ h.endpoint connection ?_⟩
  · rw [hconfig]
    exact h.settings
  · rw [← hconn]
    exact hheld

theorem alike_disconnect : Alike (fun st ↦ st.1.Within config) anyValue
    (update fun session ↦ { session with connection := none })
    (update fun session ↦ { session with connection := none }) := by
  apply alike_update
  intro session h
  refine ⟨h.settings, fun connection hnone ↦ ?_⟩
  cases hnone

theorem alike_connectionMut : Alike (fun st ↦ st.1.Within config)
    (fun connection ↦ connection.endpoint ∈ config.endpoints) connectionMut connectionMut := by
  apply alike_self.bind
  intro session hsession
  cases hconn : session.connection with
  | none => exact Alike.raise _
  | some connection => exact Alike.pure (hsession.endpoint connection hconn)

/-! ## Calls -/

theorem unfiltered_connect {endpoint : Endpoint} {options : ConnectionOptions}
    (hendpoint : endpoint ∈ config.endpoints) (hoptions : options = config.connectionOptions) :
    Unfiltered server config inserts (fun connection ↦ connection.endpoint ∈ config.endpoints)
      fun server ↦ connect server endpoint options := by
  have hsame : ∀ n, (server.behind config inserts).connect n endpoint options =
      server.connect n endpoint options := fun n ↦ if_pos ⟨hendpoint, hoptions⟩
  constructor
  · intro st _
    simp only [connect, hsame]
  · intro st hst
    simp only [connect]
    split
    · exact hst
    · exact hst
  · intro st connection hst heq
    simp only [connect] at heq
    split at heq
    · cases heq
      exact hendpoint
    · cases heq

theorem unfiltered_call {connection : Connection} {request : Request} (site : CallSite)
    (hendpoint : connection.endpoint ∈ config.endpoints)
    (hrequest : config.permits inserts request = true) :
    Unfiltered server config inserts anyValue fun server ↦ call server connection site request := by
  have hsame : ∀ n, (server.behind config inserts).answer n connection request =
      server.answer n connection request := fun n ↦ if_pos ⟨hendpoint, hrequest⟩
  constructor
  · intro st _
    simp only [call, afterCall, hsame]
  · intro st hst
    rw [call_state]
    exact ⟨hst.settings, hst.endpoint⟩
  · intro _ _ _ _
    trivial

/-! ## The requests of a session -/

-- The database may come before the dialect in the map.
theorem permits_openSession {session : Session} (h : session.Within config) :
    config.permits inserts (.openSession session.openSessionReq) = true := by
  obtain ⟨db, hconfig⟩ := h.settings
  have hdialect : session.openSessionReq.configuration.lookup "sql_dialect" =
      some config.sqlDialect := by
    unfold openSessionReq
    rw [hconfig]
    cases session.database with
    | none => rfl
    | some db => rfl
  simp only [SessionConfig.permits, hdialect]
  simp only [openSessionReq, hconfig, decide_true, Bool.and_self]

theorem permits_statement {session : Session} (h : session.Within config) (sql : String) :
    config.permits inserts (.executeQuery (session.statementReq sql)) = true ∧
      config.permits inserts (.executeUpdate (session.statementReq sql)) = true := by
  obtain ⟨db, hconfig⟩ := h.settings
  simp only [SessionConfig.permits, statementReq, hconfig, decide_true, Bool.and_self, and_self]

theorem permits_fetch {session : Session} (h : session.Within config) (queryId : Int64)
    (sql : String) :
    config.permits inserts (.fetchResults (session.fetchReq queryId sql)) = true := by
  obtain ⟨db, hconfig⟩ := h.settings
  simp only [SessionConfig.permits, fetchReq, hconfig, decide_true, Bool.and_self]

theorem options_of_within {session : Session} (h : session.Within config) :
    session.config.connectionOptions = config.connectionOptions := by
  obtain ⟨db, hconfig⟩ := h.settings
  rw [hconfig]
  rfl

theorem endpoints_of_within {session : Session} (h : session.Within config) :
    session.config.endpoints = config.endpoints := by
  obtain ⟨db, hconfig⟩ := h.settings
  rw [hconfig]

/-! ## Opening and reconnecting -/

theorem unfiltered_authenticate {connection : Connection}
    (hendpoint : connection.endpoint ∈ config.endpoints) :
    Unfiltered server config inserts anyValue fun server ↦ authenticate server connection := by
  apply alike_self.bind
  intro session hsession
  apply (unfiltered_call .handshake hendpoint (permits_openSession hsession)).bind
  intro resp _
  apply (Alike.ofOutcome (Q := anyValue) fun _ _ ↦ trivial).bind
  intro _ _
  cases TSOpenSessionResp.sessionId resp with
  | none => exact Alike.raise _
  | some sessionId =>
      apply (unfiltered_call .handshake hendpoint rfl).bind
      intro statementId _
      exact Alike.pure trivial

theorem alike_adopt {connection : Connection} (hendpoint : connection.endpoint ∈ config.endpoints)
    (ids : Int64 × Int64) :
    Alike (fun st ↦ st.1.Within config) anyValue (adopt connection ids) (adopt connection ids) := by
  apply alike_update
  intro session h
  refine ⟨h.settings, fun held hheld ↦ ?_⟩
  rw [← Option.some.inj hheld]
  exact hendpoint

theorem unfiltered_connectFirst {options : ConnectionOptions} {endpoints : List Endpoint}
    (hendpoints : ∀ endpoint ∈ endpoints, endpoint ∈ config.endpoints)
    (hoptions : options = config.connectionOptions) (lastErr : Option Error) :
    Unfiltered server config inserts (fun connection ↦ connection.endpoint ∈ config.endpoints)
      fun server ↦ connectFirst server options endpoints lastErr := by
  induction endpoints generalizing lastErr with
  | nil => exact Alike.raise _
  | cons endpoint rest ih =>
      rw [List.forall_mem_cons] at hendpoints
      apply (unfiltered_connect hendpoints.1 hoptions).attempt.bind
      intro outcome hvalue
      match outcome with
      | .ok connection => exact Alike.pure (hvalue connection rfl)
      | .error (.error e) => exact ih hendpoints.2 (some e)
      | .error (.panic message) => exact Alike.fault _

theorem alike_nextStart (n : Nat) :
    Alike (fun st ↦ st.1.Within config) anyValue (nextStart n) (nextStart n) where
  same _ _ := rfl
  kept _ hst := hst
  value _ _ _ _ := trivial

theorem alike_sleep (duration : Nat) :
    Alike (fun st ↦ st.1.Within config) anyValue (sleep duration) (sleep duration) :=
  Alike.modify fun _ hst ↦ hst

theorem unfiltered_open : Unfiltered server config inserts anyValue fun server ↦ «open» server := by
  apply alike_self.bind
  intro session hsession
  apply (Alike.raise _).branch
  apply (Alike.raise _).branch
  apply (alike_nextStart _).bind
  intro start _
  have hendpoints : ∀ endpoint ∈ session.config.endpoints.rotate start,
      endpoint ∈ config.endpoints := by
    intro endpoint hmem
    rw [List.mem_rotate, endpoints_of_within hsession] at hmem
    exact hmem
  apply (unfiltered_connectFirst hendpoints (options_of_within hsession) none).bind
  intro connection hconn
  apply (unfiltered_authenticate hconn).bind
  intro ids _
  exact alike_adopt hconn ids

theorem unfiltered_handshake {endpoint : Endpoint} {options : ConnectionOptions}
    (hendpoint : endpoint ∈ config.endpoints) (hoptions : options = config.connectionOptions) :
    Unfiltered server config inserts (fun made ↦ made.1.endpoint ∈ config.endpoints)
      fun server ↦ handshake server options endpoint := by
  apply (unfiltered_connect hendpoint hoptions).bind
  intro connection hconn
  apply (unfiltered_authenticate hconn).bind
  intro ids _
  exact Alike.pure hconn

theorem unfiltered_reconnectPass {options : ConnectionOptions} {endpoints : List Endpoint}
    (hendpoints : ∀ endpoint ∈ endpoints, endpoint ∈ config.endpoints)
    (hoptions : options = config.connectionOptions) (lastErr : Option Error) :
    Unfiltered server config inserts anyValue
      fun server ↦ reconnectPass server options endpoints lastErr := by
  induction endpoints generalizing lastErr with
  | nil => exact Alike.pure trivial
  | cons endpoint rest ih =>
      rw [List.forall_mem_cons] at hendpoints
      apply (unfiltered_handshake hendpoints.1 hoptions).attempt.bind
      intro outcome hvalue
      match outcome with
      | .ok (connection, ids) =>
          apply (alike_adopt (hvalue _ rfl) ids).bind
          intro _ _
          exact Alike.pure trivial
      | .error (.error e) => exact ih hendpoints.2 (some e)
      | .error (.panic message) => exact Alike.fault _

theorem alike_pauseUnless (first : Bool) (interval : Nat) :
    Alike (fun st ↦ st.1.Within config) anyValue (pauseUnless first interval)
      (pauseUnless first interval) := by
  cases first with
  | true => exact Alike.pure trivial
  | false => exact alike_sleep interval

theorem unfiltered_reconnectPasses {options : ConnectionOptions} {endpoints : List Endpoint}
    (hendpoints : ∀ endpoint ∈ endpoints, endpoint ∈ config.endpoints)
    (hoptions : options = config.connectionOptions) (interval : Nat) (first : Bool) (remaining : Nat)
    (lastErr : Option Error) :
    Unfiltered server config inserts anyValue
      fun server ↦ reconnectPasses server options endpoints interval first remaining lastErr := by
  induction remaining generalizing first lastErr with
  | zero => exact Alike.raise _
  | succ remaining ih =>
      apply (alike_pauseUnless first interval).bind
      intro _ _
      apply (unfiltered_reconnectPass hendpoints hoptions lastErr).bind
      intro (done, lastErr) _
      exact (Alike.pure trivial).branch (ih false lastErr)

theorem unfiltered_reconnect :
    Unfiltered server config inserts anyValue fun server ↦ reconnect server := by
  apply alike_disconnect.bind
  intro _ _
  apply alike_self.bind
  intro session hsession
  apply (Alike.raise _).branch
  apply unfiltered_reconnectPasses
  · intro endpoint hmem
    rw [List.mem_rotate, endpoints_of_within hsession] at hmem
    exact hmem
  · exact options_of_within hsession

theorem unfiltered_withRetry {op : Server → CallSite → SessionM α}
    (hop : ∀ site, Unfiltered server config inserts Q fun server ↦ op server site) :
    Unfiltered server config inserts Q fun server ↦ withRetry server (op server) := by
  apply (hop .firstAttempt).attempt.bind
  intro outcome hvalue
  match outcome with
  | .ok a => exact Alike.ofOutcome hvalue
  | .error (.panic message) => exact Alike.ofOutcome hvalue
  | .error (.error (.thrift e)) =>
      apply alike_self.bind
      intro session _
      apply Alike.branch
      · apply unfiltered_reconnect.attempt.bind
        intro outcome _
        match outcome with
        | .ok () => exact hop .secondAttempt
        | .error (.error _) => exact Alike.raise _
        | .error (.panic message) => exact Alike.fault _
      · exact Alike.raise _
  | .error (.error (.server _ _)) | .error (.error (.client _)) | .error (.error (.decode _))
  | .error (.error (.tls _)) => exact Alike.ofOutcome hvalue

/-! ## Methods -/

theorem unfiltered_sendUpdate (sql : String) (site : CallSite) :
    Unfiltered server config inserts anyValue fun server ↦ sendUpdate server sql site := by
  apply alike_self.bind
  intro session hsession
  apply alike_connectionMut.bind
  intro connection hconn
  exact unfiltered_call site hconn (permits_statement hsession sql).2

theorem unfiltered_sendQuery (sql : String) (site : CallSite) :
    Unfiltered server config inserts anyValue fun server ↦ sendQuery server sql site := by
  apply alike_self.bind
  intro session hsession
  apply alike_connectionMut.bind
  intro connection hconn
  exact unfiltered_call site hconn (permits_statement hsession sql).1

theorem unfiltered_sendInsert {req : InsertReq}
    (hinserts : ∀ sessionId, inserts (req.withSessionId sessionId) = true) (site : CallSite) :
    Unfiltered server config inserts anyValue fun server ↦ sendInsert server req site := by
  apply alike_self.bind
  intro session _
  apply alike_connectionMut.bind
  intro connection hconn
  have hrequest : config.permits inserts (.insert (req.withSessionId session.sessionId)) = true :=
    hinserts session.sessionId
  exact unfiltered_call site hconn hrequest

theorem unfiltered_executeNonQuery (sql : String) :
    Unfiltered server config inserts anyValue fun server ↦ executeNonQuery server sql := by
  apply (unfiltered_withRetry fun site ↦ unfiltered_sendUpdate sql site).bind
  intro resp _
  apply (Alike.ofOutcome (Q := anyValue) fun _ _ ↦ trivial).bind
  intro _ _
  cases resp.database with
  | none => exact Alike.pure trivial
  | some db => exact alike_update_of_same (fun _ ↦ rfl) fun _ ↦ rfl

theorem unfiltered_executeQueryRaw (sql : String) :
    Unfiltered server config inserts anyValue fun server ↦ executeQueryRaw server sql := by
  apply (unfiltered_withRetry fun site ↦ unfiltered_sendQuery sql site).bind
  intro resp _
  apply (Alike.ofOutcome (Q := anyValue) fun _ _ ↦ trivial).bind
  intro _ _
  cases resp.queryId with
  | none => exact Alike.raise _
  | some queryId => exact Alike.pure trivial

theorem unfiltered_fetchResults (site : CallSite) (queryId : Int64) (sql : String) :
    Unfiltered server config inserts anyValue
      fun server ↦ fetchResults server site queryId sql := by
  apply alike_self.bind
  intro session hsession
  apply alike_connectionMut.bind
  intro connection hconn
  apply (unfiltered_call site hconn (permits_fetch hsession queryId sql)).bind
  intro resp _
  apply (Alike.ofOutcome (Q := anyValue) fun _ _ ↦ trivial).bind
  intro _ _
  exact Alike.pure trivial

theorem unfiltered_closeQuery (site : CallSite) (queryId : Int64) :
    Unfiltered server config inserts anyValue fun server ↦ closeQuery server site queryId := by
  apply alike_self.bind
  intro session hsession
  cases hconn : session.connection with
  | none => exact Alike.pure trivial
  | some connection =>
      apply (unfiltered_call site (hsession.endpoint connection hconn) rfl).attempt.bind
      intro _ _
      exact Alike.pure trivial

theorem unfiltered_insert {devices : List String} {req : InsertReq}
    (hinserts : ∀ sessionId, inserts (req.withSessionId sessionId) = true) :
    Unfiltered server config inserts anyValue
      fun server ↦ Session.insert server devices req := by
  apply (unfiltered_withRetry fun site ↦ unfiltered_sendInsert hinserts site).bind
  intro status _
  apply alike_self.bind
  intro session _
  have hchecked : Alike (fun st : Session × World ↦ st.1.Within config) anyValue
      (ofOutcome (checkStatus status)) (ofOutcome (checkStatus status)) :=
    Alike.ofOutcome fun _ _ ↦ trivial
  apply Alike.branch
  · -- the hints go to the cache only
    apply Alike.bind (Q := anyValue)
    · apply Alike.modify
      intro st hst
      exact ⟨hst.settings, hst.endpoint⟩
    · intro _ _
      exact hchecked
  · exact hchecked

/-- A request that cannot be built is not sent. -/
theorem unfiltered_built {β : Type} (build : Session → Result β) (wrap : β → InsertReq)
    (devices : β → List String)
    (hinserts : ∀ session b sessionId, build session = .ok b →
      inserts ((wrap b).withSessionId sessionId) = true) :
    Unfiltered server config inserts anyValue (fun server ↦ (do
      let b ← ofOutcome (build (← self))
      Session.insert server (devices b) (wrap b))) := by
  apply alike_self.bind
  intro session _
  apply (Alike.ofOutcome (Q := fun b ↦ build session = .ok b) fun _ h ↦ h).bind
  intro b hbuild
  exact unfiltered_insert fun sessionId ↦ hinserts session b sessionId hbuild

theorem unfiltered_close : Unfiltered server config inserts anyValue fun server ↦ close server := by
  apply alike_self.bind
  intro session hsession
  have hreset : Alike (fun st : Session × World ↦ st.1.Within config) anyValue
      (update fun session ↦ { session with sessionId := -1, statementId := -1 })
      (update fun session ↦ { session with sessionId := -1, statementId := -1 }) :=
    alike_update_of_same (fun _ ↦ rfl) fun _ ↦ rfl
  cases hconn : session.connection with
  | none => exact hreset
  | some connection =>
      apply alike_disconnect.bind
      intro _ _
      apply (unfiltered_call .single (hsession.endpoint connection hconn) rfl).attempt.bind
      intro _ _
      exact hreset

end Session

/-! ## The owner of a session -/

/-- Any insert. -/
def anyInsert (_ : InsertReq) : Bool := true

namespace SessionCall

open Session

variable {server : Server} {config : SessionConfig} {inserts : InsertReq → Bool}

theorem run_behind (method : SessionCall) {st : Session × World} (hst : st.1.Within config) :
    method.run (server.behind config anyInsert) st = method.run server st ∧
      (method.run server st).1.Within config := by
  have hrun : ∀ {α : Type} {m : Server → SessionM α},
      Unfiltered server config anyInsert anyValue m →
      (m (server.behind config anyInsert) st).2 = (m server st).2 ∧
        (m server st).2.1.Within config := fun h ↦ ⟨congrArg Prod.snd (h.same st hst), h.kept st hst⟩
  have hbuilt : ∀ {β : Type} (build : Session → Result β) (wrap : β → InsertReq)
      (devices : β → List String), Unfiltered server config anyInsert anyValue (fun server ↦ (do
        let b ← ofOutcome (build (← Session.self))
        Session.insert server (devices b) (wrap b))) :=
    fun build wrap devices ↦ unfiltered_built build wrap devices fun _ _ _ _ ↦ rfl
  cases method with
  | «open» => exact hrun unfiltered_open
  | executeNonQuery sql => exact hrun (unfiltered_executeNonQuery sql)
  | executeQueryRaw sql => exact hrun (unfiltered_executeQueryRaw sql)
  | fetchResults queryId sql => exact hrun (unfiltered_fetchResults .single queryId sql)
  | closeQuery queryId => exact hrun (unfiltered_closeQuery .single queryId)
  | insertTabletRaw req =>
      have hinsert : Unfiltered server config anyInsert anyValue
          fun server ↦ Session.insert server [req.prefixPath] (.tablet req) :=
        unfiltered_insert fun _ ↦ rfl
      exact hrun hinsert
  | insertTablet tablet =>
      exact hrun (hbuilt (fun session ↦ insertTabletReq session.sessionId tablet) .tablet
        fun req ↦ [req.prefixPath])
  | insertTablets tablets isAligned =>
      exact hrun (hbuilt (fun session ↦ buildInsertTabletsReq session.sessionId tablets isAligned)
        .tablets fun req ↦ req.prefixPaths)
  | insertRecord deviceId timestamp measurements values isAligned =>
      exact hrun (hbuilt (fun session ↦ insertRecordReq session.sessionId deviceId timestamp
        measurements values isAligned) .record fun _ ↦ [deviceId])
  | insertRecords deviceIds timestamps measurementsList valuesList isAligned =>
      exact hrun (hbuilt (fun session ↦ insertRecordsReq session.sessionId deviceIds timestamps
        measurementsList valuesList isAligned) .records fun req ↦ req.prefixPaths)
  | insertRecordsOfOneDevice deviceId timestamps measurementsList valuesList isAligned =>
      exact hrun (hbuilt (fun session ↦ insertRecordsOfOneDeviceReq session.sessionId deviceId
        timestamps measurementsList valuesList isAligned) .recordsOfOneDevice fun _ ↦ [deviceId])
  | redirectHint deviceId | clearRedirectCache => exact ⟨rfl, hst.settings, hst.endpoint⟩
  | close => exact hrun unfiltered_close

end SessionCall

namespace SessionDataSet

open Session

variable {server : Server} {config : SessionConfig} {inserts : InsertReq → Bool}

/-- The borrowed session stays within the configuration. -/
abbrev Borrows (config : SessionConfig) (st : DataSetState) : Prop := st.2.1.Within config

theorem alike_onSession {α : Type} {Q : α → Prop} {m m' : SessionM α}
    (h : Alike (fun st ↦ st.1.Within config) Q m m') :
    Alike (Borrows config) Q (onSession m) (onSession m') where
  same := by
    intro (ds, st) hst
    rw [onSession_apply, onSession_apply, h.same st hst]
  kept := fun (_, st) hst ↦ h.kept st hst
  value := fun (_, st) a hst heq ↦ h.value st a hst heq

theorem alike_updateDataSet (f : SessionDataSet → SessionDataSet) :
    Alike (Borrows config) anyValue (update f) (update f) :=
  Alike.modify fun _ hst ↦ hst

theorem alike_dataSet : Alike (Borrows config) anyValue self self where
  same _ _ := rfl
  kept _ hst := hst
  value _ _ _ _ := trivial

theorem alike_close :
    Alike (Borrows config) anyValue (close server) (close (server.behind config inserts)) := by
  apply alike_dataSet.bind
  intro ds _
  apply (Alike.pure trivial).branch
  apply (alike_updateDataSet _).bind
  intro _ _
  exact alike_onSession (unfiltered_closeQuery .dataSet ds.queryId)

theorem alike_finish :
    Alike (Borrows config) anyValue (finish server) (finish (server.behind config inserts)) := by
  apply alike_close.bind
  intro _ _
  exact Alike.pure trivial

theorem alike_advance :
    Alike (Borrows config) anyValue (advance server) (advance (server.behind config inserts)) := by
  apply alike_dataSet.bind
  intro ds _
  cases ds.pendingBlocks with
  | cons bytes rest =>
      apply (alike_updateDataSet _).bind
      intro _ _
      apply (Alike.ofOutcome (Q := anyValue) fun _ _ ↦ trivial).bind
      intro block _
      apply (alike_updateDataSet _).bind
      intro _ _
      exact Alike.pure trivial
  | nil =>
      apply Alike.branch
      · apply (alike_onSession (unfiltered_fetchResults .dataSet ds.queryId ds.statement)).bind
        intro (blocks, more) _
        apply (alike_updateDataSet _).bind
        intro _ _
        exact (Alike.pure trivial).branch alike_finish
      · exact alike_finish

theorem alike_turn :
    Alike (Borrows config) anyValue (turn server) (turn (server.behind config inserts)) := by
  apply alike_dataSet.bind
  intro ds _
  cases ds.current with
  | none => exact alike_advance
  | some block =>
      apply Alike.branch
      · apply (Alike.ofOutcome (Q := anyValue) fun _ _ ↦ trivial).bind
        intro row _
        apply (alike_updateDataSet _).bind
        intro _ _
        exact Alike.pure trivial
      · apply (alike_updateDataSet _).bind
        intro _ _
        exact alike_advance

end SessionDataSet

namespace Owner

open Session

variable {server : Server} {config : SessionConfig} {inserts : InsertReq → Bool} {owner : Owner}
  {world : World}

/-- An action is not filtered, if the methods it calls are not. -/
theorem act_behind {action : OwnerAction} (howner : owner.session.Within config)
    (hcall : ∀ method, action = .call method → ∀ st : Session × World, st.1.Within config →
      method.run (server.behind config inserts) st = method.run server st ∧
        (method.run server st).1.Within config) :
    act (server.behind config inserts) action (owner, world) = act server action (owner, world) ∧
      ∀ st, act server action (owner, world) = some st → st.1.session.Within config := by
  obtain ⟨session, dataSet⟩ := owner
  have hwithin : session.Within config := howner
  cases dataSet with
  | none =>
      cases action with
      | call method =>
          obtain ⟨hsame, hkept⟩ := hcall method rfl (session, world) hwithin
          simp only [act, hsame, true_and]
          intro st hst
          rw [← Option.some.inj hst]
          exact hkept
      | executeQuery sql =>
          have hquery := @unfiltered_executeQueryRaw server config inserts sql
          have hsame : executeQueryRaw (server.behind config inserts) sql (session, world) =
              executeQueryRaw server sql (session, world) := hquery.same (session, world) hwithin
          have hkept : (executeQueryRaw server sql (session, world)).2.1.Within config :=
            hquery.kept (session, world) hwithin
          simp only [act, hsame, true_and]
          intro st hst
          split at hst
          all_goals
            rename_i hrun
            rw [hrun] at hkept
            rw [← Option.some.inj hst]
            exact hkept
      | turn | closeDataSet | dropDataSet =>
          -- there is no result set
          refine ⟨rfl, fun st hst ↦ ?_⟩
          cases hst
  | some ds =>
      have hturn := @SessionDataSet.alike_turn server config inserts
      have hclose := @SessionDataSet.alike_close server config inserts
      cases action with
      | call | executeQuery =>
          -- the result set has borrowed the session
          refine ⟨rfl, fun st hst ↦ ?_⟩
          cases hst
      | turn =>
          simp only [act, hturn.same (ds, session, world) hwithin, true_and]
          intro st hst
          split at hst
          · cases hst
          · rw [← Option.some.inj hst]
            exact hturn.kept (ds, session, world) hwithin
      | closeDataSet | dropDataSet =>
          simp only [act, hclose.same (ds, session, world) hwithin, true_and]
          intro st hst
          rw [← Option.some.inj hst]
          exact hclose.kept (ds, session, world) hwithin

end Owner

end IotdbClient
