import IotdbClient.Client.Redirect
import IotdbClient.Client.Requests
import IotdbClient.Library.Program

/-!
# The session

A session owns at most one connection.  The server, the network and the clock are outside: a
`Server` answers the `n`-th call of the process in any way it likes, so quantifying over servers
covers every pattern of connect, handshake and RPC failures.  A session also keeps the list of the
calls it made; no function reads it.
-/

namespace IotdbClient

open Library Program

inductive RpcProtocol where
  | binary
  | compact
deriving Repr, DecidableEq

/-- Without the cargo feature `tls`. -/
structure ConnectionOptions where
  connectTimeout : Nat
  protocol : RpcProtocol
deriving Repr, DecidableEq

structure SessionConfig where
  endpoints : List Endpoint
  username : String
  password : String
  sqlDialect : String
  fetchSize : Int32
  zoneId : String
  connectTimeout : Nat
  queryTimeoutMs : Int64
  database : Option String
  enableAutoReconnect : Bool
  maxReconnectAttempts : Nat
  retryInterval : Nat
  enableRedirection : Bool
  enableRpcCompression : Bool
deriving Repr, DecidableEq

namespace SessionConfig

def default : SessionConfig where
  endpoints := [⟨"localhost", 6667⟩]
  username := "root"
  password := "root"
  sqlDialect := "tree"
  fetchSize := 1024
  zoneId := "UTC+8"
  connectTimeout := 10000
  queryTimeoutMs := 60000
  database := none
  enableAutoReconnect := true
  maxReconnectAttempts := 3
  retryInterval := 1000
  enableRedirection := true
  enableRpcCompression := false

def connectionOptions (config : SessionConfig) : ConnectionOptions where
  connectTimeout := config.connectTimeout
  protocol := if config.enableRpcCompression then .compact else .binary

end SessionConfig

/-! ## Connections and calls -/

/-- An open connection.  `id` tells connections to one endpoint apart. -/
structure Connection where
  id : Nat
  endpoint : Endpoint
deriving Repr, DecidableEq

inductive InsertReq where
  | tablet (req : TSInsertTabletReq)
  | tablets (req : TSInsertTabletsReq)
  | record (req : TSInsertRecordReq)
  | records (req : TSInsertRecordsReq)
  | recordsOfOneDevice (req : TSInsertRecordsOfOneDeviceReq)

/-- `req.session_id = session_id`. -/
def InsertReq.withSessionId (sessionId : Int64) : InsertReq → InsertReq
  | tablet req => tablet { req with sessionId := sessionId }
  | tablets req => tablets { req with sessionId := sessionId }
  | record req => record { req with sessionId := sessionId }
  | records req => records { req with sessionId := sessionId }
  | recordsOfOneDevice req => recordsOfOneDevice { req with sessionId := sessionId }

def InsertReq.sessionId : InsertReq → Int64
  | tablet req => req.sessionId
  | tablets req => req.sessionId
  | record req => req.sessionId
  | records req => req.sessionId
  | recordsOfOneDevice req => req.sessionId

inductive Request where
  | openSession (req : TSOpenSessionReq)
  | requestStatementId (sessionId : Int64)
  | executeUpdate (req : TSExecuteStatementReq)
  | executeQuery (req : TSExecuteStatementReq)
  | fetchResults (req : TSFetchResultsReq)
  | closeOperation (req : TSCloseOperationReq)
  | closeSession (req : TSCloseSessionReq)
  | insert (req : InsertReq)

@[reducible]
def Request.Reply : Request → Type
  | openSession _ => TSOpenSessionResp
  | requestStatementId _ => Int64
  | executeUpdate _ | executeQuery _ => TSExecuteStatementResp
  | fetchResults _ => TSFetchResultsResp
  | closeOperation _ | closeSession _ | insert _ => TSStatus

/-- Where a call comes from: the handshake, the first or the second run of a `with_retry` closure,
a result set, or a method that calls once. -/
inductive CallSite where
  | handshake
  | firstAttempt
  | secondAttempt
  | dataSet
  | single
deriving Repr, DecidableEq

/-- One call and its reply; an error is a failure at the Thrift or transport level. -/
structure Call where
  connection : Connection
  site : CallSite
  request : Request
  reply : Except String request.Reply

structure Server where
  /-- `none`: the connection is established. -/
  connect : Nat → Endpoint → ConnectionOptions → Option Error
  answer : Nat → Connection → (request : Request) → Except String request.Reply

/-- What the sessions of a process share: the number of calls made so far, `ENDPOINT_START_INDEX`
and the monotonic clock. -/
structure World where
  calls : Nat
  startIndex : Nat
  clock : Nat
deriving Repr, DecidableEq

structure QueryHandle where
  queryId : Int64
  statement : String
  columns : List String
  dataTypeList : List String
  ignoreTimeStamp : Bool
  queryResult : List Slice
  moreData : Bool
  columnIndex2TsBlockColumnIndexList : Option (List Int32)

structure Session where
  config : SessionConfig
  connection : Option Connection
  sessionId : Int64
  statementId : Int64
  database : Option String
  lastEndpoint : Option Endpoint
  redirectCache : RedirectCache
  /-- The calls of this session, newest first. -/
  trace : List Call

abbrev SessionM (α : Type) := Program (Session × World) Error α

namespace Session

def new (config : SessionConfig) : Session where
  config := config
  connection := none
  sessionId := -1
  statementId := -1
  database := config.database
  lastEndpoint := none
  redirectCache := RedirectCache.default
  trace := []

def isOpen (session : Session) : Bool := session.connection.isSome

def currentEndpoint (session : Session) : Option Endpoint :=
  session.connection.map Connection.endpoint

def redirectHint (session : Session) (deviceId : String) (now : Nat) : Option Endpoint × Session :=
  let (hint, cache) := session.redirectCache.getAt deviceId now
  (hint, { session with redirectCache := cache })

def openSessionReq (session : Session) : TSOpenSessionReq where
  zoneId := session.config.zoneId
  username := session.config.username
  password := some session.config.password
  -- A `BTreeMap`, so in the order of the keys.
  configuration :=
    match session.database with
    | some db => [("db", db), ("sql_dialect", session.config.sqlDialect)]
    | none => [("sql_dialect", session.config.sqlDialect)]

def statementReq (session : Session) (sql : String) : TSExecuteStatementReq where
  sessionId := session.sessionId
  statement := sql
  statementId := session.statementId
  fetchSize := some session.config.fetchSize
  timeout := some session.config.queryTimeoutMs
  enableRedirectQuery := some true
  jdbcQuery := some false

def fetchReq (session : Session) (queryId : Int64) (sql : String) : TSFetchResultsReq where
  sessionId := session.sessionId
  statement := sql
  fetchSize := session.config.fetchSize
  queryId := queryId
  isAlign := true
  timeout := some session.config.queryTimeoutMs
  statementId := some session.statementId

/-- `self.…`. -/
def self : SessionM Session := Prod.fst <$> get

def update (f : Session → Session) : SessionM Unit := modify fun (session, world) ↦ (f session, world)

def connectionMut : SessionM Connection := do
  match (← self).connection with
  | some connection => pure connection
  | none => raise (.client "session is not open")

variable (server : Server)

/-! ## Calls -/

/-- `Connection::open`. -/
def connect (endpoint : Endpoint) (options : ConnectionOptions) : SessionM Connection :=
  fun (session, world) ↦
    let world' := { world with calls := world.calls + 1 }
    match server.connect world.calls endpoint options with
    | none => (.ok ⟨world.calls, endpoint⟩, (session, world'))
    | some e => (.error (.error e), (session, world'))

def afterCall (connection : Connection) (site : CallSite) (request : Request) :
    Session × World → Session × World :=
  fun (session, world) ↦
    ({ session with trace :=
        ⟨connection, site, request, server.answer world.calls connection request⟩ :: session.trace },
      { world with calls := world.calls + 1 })

/-- `connection.client_mut().…(request)?`. -/
def call (connection : Connection) (site : CallSite) (request : Request) :
    SessionM request.Reply :=
  fun s ↦
    match server.answer s.2.calls connection request with
    | .ok value => (.ok value, afterCall server connection site request s)
    | .error e => (.error (.error (.thrift e)), afterCall server connection site request s)

/-! ## Opening and reconnecting -/

def authenticate (connection : Connection) : SessionM (Int64 × Int64) := do
  let session ← self
  let resp ← call server connection .handshake (.openSession session.openSessionReq)
  ofOutcome (checkStatus resp.status)
  match resp.sessionId with
  | none => raise (.client "openSession response missing sessionId")
  | some sessionId => do
      let statementId ← call server connection .handshake (.requestStatementId sessionId)
      pure (sessionId, statementId)

/-- Install a connection and the ids of its handshake. -/
def adopt (connection : Connection) (ids : Int64 × Int64) : SessionM Unit :=
  update fun session ↦ { session with
    sessionId := ids.1
    statementId := ids.2
    lastEndpoint := some connection.endpoint
    connection := some connection }

/-- The connect loop of `open`: the first endpoint that accepts wins. -/
def connectFirst (options : ConnectionOptions) : List Endpoint → Option Error → SessionM Connection
  | [], lastErr => raise (lastErr.getD (.client "no endpoints configured"))
  | endpoint :: rest, _ => do
      match ← attempt (connect server endpoint options) with
      | .ok connection => pure connection
      | .error (.error e) => connectFirst options rest (some e)
      | .error fault => throw fault

/-- `ENDPOINT_START_INDEX.fetch_add(1) % n`. -/
def nextStart (n : Nat) : SessionM Nat := fun (session, world) ↦
  (.ok (world.startIndex % n),
    (session, { world with startIndex := (world.startIndex + 1) % 2 ^ 64 }))

def «open» : SessionM Unit := do
  let session ← self
  if session.connection.isSome then raise (.client "session already open")
  else if session.config.endpoints.length = 0 then raise (.client "no endpoints configured")
  else do
    let start ← nextStart session.config.endpoints.length
    let connection ← connectFirst server session.config.connectionOptions
      (session.config.endpoints.rotate start) none
    let ids ← authenticate server connection
    adopt connection ids

/-- `Connection::open(endpoint, &options).and_then(..)`. -/
def handshake (options : ConnectionOptions) (endpoint : Endpoint) :
    SessionM (Connection × Int64 × Int64) := do
  let connection ← connect server endpoint options
  let ids ← authenticate server connection
  pure (connection, ids)

/-- One pass over the endpoints: the error of the last one, or `none` once reconnected. -/
def reconnectPass (options : ConnectionOptions) :
    List Endpoint → Option Error → SessionM (Bool × Option Error)
  | [], lastErr => pure (false, lastErr)
  | endpoint :: rest, lastErr => do
      match ← attempt (handshake server options endpoint) with
      | .ok (connection, ids) => do
          adopt connection ids
          pure (true, lastErr)
      | .error (.error e) => reconnectPass options rest (some e)
      | .error fault => throw fault

/-- `std::thread::sleep`. -/
def sleep (duration : Nat) : SessionM Unit :=
  modify fun (session, world) ↦ (session, { world with clock := world.clock + duration })

/-- Every pass but the first is preceded by a pause. -/
def pauseUnless (first : Bool) (interval : Nat) : SessionM Unit :=
  if first then pure () else sleep interval

/-- The passes that remain. -/
def reconnectPasses (options : ConnectionOptions) (endpoints : List Endpoint) (interval : Nat) :
    (first : Bool) → Nat → Option Error → SessionM Unit
  | _, 0, lastErr => raise (lastErr.getD (.client "reconnect failed"))
  | first, remaining + 1, lastErr => do
      pauseUnless first interval
      let (done, lastErr) ← reconnectPass server options endpoints lastErr
      if done then pure ()
      else reconnectPasses options endpoints interval false remaining lastErr

def reconnect : SessionM Unit := do
  update fun session ↦ { session with connection := none }
  let session ← self
  let endpoints := session.config.endpoints
  if endpoints.length = 0 then raise (.client "no endpoints configured")
  else
    let start := (session.lastEndpoint.bind fun ep ↦ endpoints.findIdx? (· == ep)).getD 0
    reconnectPasses server session.config.connectionOptions (endpoints.rotate start)
      session.config.retryInterval true (max session.config.maxReconnectAttempts 1) none

def withRetry {α : Type} (op : CallSite → SessionM α) : SessionM α := do
  match ← attempt (op .firstAttempt) with
  | .error (.error (.thrift e)) => do
      let session ← self
      if session.config.enableAutoReconnect && session.connection.isSome then do
        match ← attempt (reconnect server) with
        | .ok () => op .secondAttempt
        | .error (.error _) => raise (.thrift e)
        | .error fault => throw fault
      else raise (.thrift e)
  | other => ofOutcome other

/-! ## Statements and result sets -/

/-- The closure of `execute_non_query`. -/
def sendUpdate (sql : String) (site : CallSite) : SessionM TSExecuteStatementResp := do
  let session ← self
  let connection ← connectionMut
  call server connection site (.executeUpdate (session.statementReq sql))

def executeNonQuery (sql : String) : SessionM Unit := do
  let resp ← withRetry server (sendUpdate server sql)
  ofOutcome (checkStatus resp.status)
  match resp.database with
  | some db => update fun session ↦ { session with database := some db }
  | none => pure ()

/-- The closure of `execute_query_raw`. -/
def sendQuery (sql : String) (site : CallSite) : SessionM TSExecuteStatementResp := do
  let session ← self
  let connection ← connectionMut
  call server connection site (.executeQuery (session.statementReq sql))

def executeQueryRaw (sql : String) : SessionM QueryHandle := do
  let resp ← withRetry server (sendQuery server sql)
  ofOutcome (checkStatus resp.status)
  match resp.queryId with
  | none => raise (.client "query response missing queryId")
  | some queryId => pure {
      queryId := queryId
      statement := sql
      columns := resp.columns.getD []
      dataTypeList := resp.dataTypeList.getD []
      ignoreTimeStamp := resp.ignoreTimeStamp.getD false
      queryResult := resp.queryResult.getD []
      moreData := resp.moreData.getD false
      columnIndex2TsBlockColumnIndexList := resp.columnIndex2TsBlockColumnIndexList }

/-- What `fetch_results` makes of a response whose status is good. -/
def pageOf (resp : TSFetchResultsResp) : List Slice × Bool :=
  if !resp.hasResultSet then ([], false) else (resp.queryResult.getD [], resp.moreData.getD false)

def fetchResults (site : CallSite) (queryId : Int64) (sql : String) :
    SessionM (List Slice × Bool) := do
  let session ← self
  let req := session.fetchReq queryId sql
  let connection ← connectionMut
  let resp ← call server connection site (.fetchResults req)
  ofOutcome (checkStatus resp.status)
  pure (pageOf resp)

def closeQuery (site : CallSite) (queryId : Int64) : SessionM Unit := do
  let session ← self
  match session.connection with
  | none => pure ()
  | some connection => do
      let _ ← attempt (call server connection site
        (.closeOperation ⟨session.sessionId, some queryId, some session.statementId, none⟩))

/-! ## Inserts -/

def checkInsertStatus (devices : List String) (status : TSStatus) : SessionM Unit := do
  let session ← self
  if session.config.enableRedirection then
    modify fun (session, world) ↦ ({ session with
      redirectCache := recordRedirects session.redirectCache devices status world.clock }, world)
  else pure ()
  ofOutcome (checkStatus status)

/-- The closure of the inserts: each attempt patches a clone of the request with the session id of
the moment. -/
def sendInsert (req : InsertReq) (site : CallSite) : SessionM TSStatus := do
  let session ← self
  let connection ← connectionMut
  call server connection site (.insert (req.withSessionId session.sessionId))

/-- The tail of every insert. -/
def insert (devices : List String) (req : InsertReq) : SessionM Unit := do
  let status ← withRetry server (sendInsert server req)
  checkInsertStatus devices status

/-- `insert_tablet_raw`, its arguments bundled as the request it builds. -/
def insertTabletRaw (req : TSInsertTabletReq) : SessionM Unit :=
  insert server [req.prefixPath] (.tablet req)

def insertTablet (tablet : Tablet) : SessionM Unit := do
  let req ← ofOutcome (insertTabletReq (← self).sessionId tablet)
  insertTabletRaw server req

def insertTablets (tablets : List Tablet) (isAligned : Bool) : SessionM Unit := do
  let req ← ofOutcome (buildInsertTabletsReq (← self).sessionId tablets isAligned)
  insert server req.prefixPaths (.tablets req)

def insertRecord (deviceId : String) (timestamp : Int64) (measurements : List String)
    (values : List Value) (isAligned : Bool) : SessionM Unit := do
  let req ← ofOutcome
    (insertRecordReq (← self).sessionId deviceId timestamp measurements values isAligned)
  insert server [deviceId] (.record req)

def insertRecords (deviceIds : List String) (timestamps : List Int64)
    (measurementsList : List (List String)) (valuesList : List (List Value)) (isAligned : Bool) :
    SessionM Unit := do
  let req ← ofOutcome (insertRecordsReq (← self).sessionId deviceIds timestamps measurementsList
    valuesList isAligned)
  insert server req.prefixPaths (.records req)

def insertRecordsOfOneDevice (deviceId : String) (timestamps : List Int64)
    (measurementsList : List (List String)) (valuesList : List (List Value)) (isAligned : Bool) :
    SessionM Unit := do
  let req ← ofOutcome (insertRecordsOfOneDeviceReq (← self).sessionId deviceId timestamps
    measurementsList valuesList isAligned)
  insert server [deviceId] (.recordsOfOneDevice req)

/-! ## Closing -/

def close : SessionM Unit := do
  let session ← self
  match session.connection with
  | none => pure ()
  | some connection => do
      update fun session ↦ { session with connection := none }
      let _ ← attempt (call server connection .single (.closeSession ⟨session.sessionId⟩))
  update fun session ↦ { session with sessionId := -1, statementId := -1 }

/-! ## The single calls -/

@[simp] theorem self_apply (s : Session × World) : self s = (.ok s.1, s) := rfl

@[simp] theorem update_apply (f : Session → Session) (s : Session × World) :
    update f s = (.ok (), (f s.1, s.2)) := rfl

theorem call_state (connection : Connection) (site : CallSite) (request : Request)
    (s : Session × World) :
    (call server connection site request s).2 = afterCall server connection site request s := by
  unfold call
  split <;> rfl

/-- The outcome is swallowed: only the trace shows whether the call failed. -/
theorem closeQuery_eq (site : CallSite) (queryId : Int64) (s : Session × World) :
    closeQuery server site queryId s =
      (.ok (), match s.1.connection with
        | none => s
        | some connection => afterCall server connection site
            (.closeOperation ⟨s.1.sessionId, some queryId, some s.1.statementId, none⟩) s) := by
  simp only [closeQuery, bind_apply, self_apply]
  cases s.1.connection with
  | none => rfl
  | some connection => simp only [bind_apply, attempt_apply, pure_apply, call_state]

theorem closeQuery_ok (site : CallSite) (queryId : Int64) (s : Session × World) :
    (closeQuery server site queryId s).1 = .ok () := by
  rw [closeQuery_eq]

theorem fetchResults_eq (site : CallSite) (queryId : Int64) (sql : String) (s : Session × World) :
    fetchResults server site queryId sql s =
      match s.1.connection with
      | none => (.error (.error (.client "session is not open")), s)
      | some connection =>
          let request := Request.fetchResults (s.1.fetchReq queryId sql)
          (match server.answer s.2.calls connection request with
            | .ok resp => checkStatus (TSFetchResultsResp.status resp) >>= fun _ ↦ pure (pageOf resp)
            | .error e => .error (.error (.thrift e)),
          afterCall server connection site request s) := by
  simp only [fetchResults, bind_apply, self_apply, connectionMut]
  cases hconn : s.1.connection with
  | none => simp only [raise_apply]
  | some connection =>
      simp only [pure_apply, call]
      cases server.answer s.2.calls connection (.fetchResults (s.1.fetchReq queryId sql)) with
      | error e => rfl
      | ok resp =>
          simp only [ofOutcome_apply]
          cases checkStatus (TSFetchResultsResp.status resp) <;> rfl

end Session

end IotdbClient
