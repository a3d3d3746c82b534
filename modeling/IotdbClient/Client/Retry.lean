import IotdbClient.Client.Failover
import IotdbClient.Client.Owner

/-!
# Retry discipline

What `with_retry` may do with one RPC: send it, reconnect after a transport failure, send it once
more.  Every execute and insert method is such an RPC with a tail that only looks at the response.
-/

namespace IotdbClient

open Library Program Session

/-- The request without the two ids that belong to a connection. -/
def Request.withoutIds : Request → Request
  | .executeUpdate req => .executeUpdate { req with sessionId := 0, statementId := 0 }
  | .executeQuery req => .executeQuery { req with sessionId := 0, statementId := 0 }
  | .insert req => .insert (req.withSessionId 0)
  | request => request

/-- The calls that are not part of a handshake. -/
def sentCalls (new : List Call) : List Call := new.filter fun call ↦ !call.request.isHandshake

/-- The first attempt fails at the transport and the session may reconnect. -/
structure Lost (server : Server) (request : Request) (st : Session × World)
    (connection : Connection) (e : String) : Prop where
  connected : st.1.connection = some connection
  failed : server.answer st.2.calls connection request = .error e
  auto : st.1.config.enableAutoReconnect = true

/-- What a retried RPC did between `st` and `after`. -/
structure Disciplined {α : Type} (server : Server) (request : Request) (st : Session × World)
    (result : Result α) (after : Session × World) (new : List Call) : Prop where
  trace : after.1.trace = new ++ st.1.trace
  atMostTwice : (sentCalls new).length ≤ 2
  notSent : sentCalls new = [] ↔ st.1.connection = none
  sentAgain : (sentCalls new).length = 2 ↔ ∃ connection e mid, Lost server request st connection e ∧
    reconnect server (afterCall server connection .firstAttempt request st) = (.ok (), mid)
  sameRequest : ∀ call ∈ sentCalls new, call.request.withoutIds = request.withoutIds
  originalError : ∀ connection e fault mid, Lost server request st connection e →
    reconnect server (afterCall server connection .firstAttempt request st) = (.error fault, mid) →
    result = .error (.error (.thrift e)) ∧ after.1.connection = none
  noReconnect : (¬∃ connection e, Lost server request st connection e) →
    sentCalls new = new ∧ after.1.connection = st.1.connection ∧
      after.2 = { st.2 with calls := st.2.calls + new.length }

/-- A reconnect makes handshake calls only, whichever way it ends. -/
theorem reconnect_handshakes (server : Server) (st : Session × World) :
    ∃ new, Handshaking (dropped st) (reconnect server st).2 new ∧ sentCalls new = [] := by
  have hquiet : ∀ {before after : Session × World} {new : List Call},
      Handshaking before after new → sentCalls new = [] := by
    intro before after new h
    rw [sentCalls, List.filter_eq_nil_iff]
    intro call hcall
    simp [(h.handshakes call hcall).2]
  have hspec := reconnect_spec server st.1 st.2 st rfl
  rcases hrun : reconnect server st with ⟨fault | _, after⟩ <;> rw [hrun] at hspec
  · obtain ⟨new, hnew, -⟩ := hspec
    exact ⟨new, hnew, hquiet hnew⟩
  · obtain ⟨connection, -, new, hnew, -⟩ := hspec
    exact ⟨new, hnew, hquiet hnew⟩

/-- A reconnect that fails returns an error value and leaves no connection. -/
theorem reconnect_fails (server : Server) {st mid : Session × World} {fault : Fault Error}
    (h : reconnect server st = (.error fault, mid)) :
    (∃ e, fault = .error e) ∧ mid.1.connection = none := by
  by_cases hne : st.1.config.endpoints = []
  · have hlen : st.1.config.endpoints.length = 0 := by rw [hne]; rfl
    simp only [reconnect, bind_apply, update_apply, self_apply, branch_apply, if_pos hlen,
      raise_apply] at h
    cases h
    exact ⟨⟨_, rfl⟩, rfl⟩
  · obtain ⟨err, st', hends, hrun⟩ := reconnect_ends server st.1 st.2 hne
    rw [h] at hrun
    cases hends with
    | succeeded => cases hrun
    | failed =>
        cases hrun
        exact ⟨⟨_, rfl⟩, (Failover.stateAfter_keeps server _ _ _).1⟩

/-- What a `with_retry` closure sends: never a handshake, and the same up to ids from every session
of one configuration. -/
structure Rebuilds (mk : Session → Request) : Prop where
  plain : ∀ session, (mk session).isHandshake = false
  same : ∀ session session', session'.config = session.config →
    (mk session').withoutIds = (mk session).withoutIds

theorem sentCalls_append (newer older : List Call) :
    sentCalls (newer ++ older) = sentCalls newer ++ sentCalls older :=
  List.filter_append ..

theorem sentCalls_singleton {call : Call} (h : call.request.isHandshake = false) :
    sentCalls [call] = [call] := by
  simp [sentCalls, h]

section

variable {server : Server} {α : Type} {request : Request} {st : Session × World}
  {connection : Connection}

theorem Lost.unique {e e' : String} {connection' : Connection}
    (h : Lost server request st connection e) (h' : Lost server request st connection' e') :
    connection' = connection ∧ e' = e := by
  have hconn := h'.connected.symm.trans h.connected
  cases hconn
  have hreply := h'.failed.symm.trans h.failed
  cases hreply
  exact ⟨rfl, rfl⟩

-- One attempt and no reconnect: the outcome is whatever the caller makes of the reply.
theorem disciplined_once (hplain : request.isHandshake = false)
    (hconn : st.1.connection = some connection)
    (hkept : ¬∃ connection e, Lost server request st connection e) (result : Result α) :
    Disciplined server request st result (afterCall server connection .firstAttempt request st)
      [⟨connection, .firstAttempt, request, server.answer st.2.calls connection request⟩] where
  trace := rfl
  atMostTwice := by
    rw [sentCalls_singleton hplain]
    exact Nat.le_succ 1
  notSent := by rw [sentCalls_singleton hplain, hconn]; simp
  sentAgain := by
    rw [sentCalls_singleton hplain]
    constructor
    · intro h
      cases h
    · rintro ⟨connection, e, mid, hlost, -⟩
      exact absurd ⟨connection, e, hlost⟩ hkept
  sameRequest := by
    rw [sentCalls_singleton hplain]
    simp
  originalError := fun connection e _ _ hlost _ ↦ absurd ⟨connection, e, hlost⟩ hkept
  noReconnect := fun _ ↦ ⟨sentCalls_singleton hplain, rfl, rfl⟩

-- The reconnect fails: its calls are handshakes, the error is that of the first attempt.
theorem disciplined_lost {e : String} {fault : Fault Error} {mid : Session × World}
    (hplain : request.isHandshake = false) (hlost : Lost server request st connection e)
    (hreconnect : reconnect server (afterCall server connection .firstAttempt request st) =
      (.error fault, mid)) :
    ∃ new, Disciplined server request st (.error (.error (.thrift e)) : Result α) mid new := by
  obtain ⟨new, hnew, hquiet⟩ :=
    reconnect_handshakes server (afterCall server connection .firstAttempt request st)
  rw [hreconnect] at hnew
  let first : Call :=
    ⟨connection, .firstAttempt, request, server.answer st.2.calls connection request⟩
  have hsent : sentCalls (new ++ [first]) = [first] := by
    rw [sentCalls_append, hquiet, sentCalls_singleton hplain, List.nil_append]
  refine ⟨new ++ [first], ?_, by rw [hsent]; exact Nat.le_succ 1, ?_, ?_, ?_, ?_, ?_⟩
  · rw [hnew.trace, List.append_assoc]
    rfl
  · rw [hsent, hlost.connected]
    simp
  · rw [hsent]
    constructor
    · intro h
      cases h
    · rintro ⟨connection', e', mid', hlost', hmid'⟩
      obtain ⟨rfl, rfl⟩ := hlost.unique hlost'
      rw [hreconnect] at hmid'
      cases hmid'
  · rw [hsent]
    simp [first]
  · rintro connection' e' fault' mid' hlost' -
    obtain ⟨rfl, rfl⟩ := hlost.unique hlost'
    exact ⟨rfl, (reconnect_fails server hreconnect).2⟩
  · intro hkept
    exact absurd ⟨connection, e, hlost⟩ hkept

-- The reconnect succeeds: the second attempt is the newest call, and its result is the result.
theorem disciplined_again {e : String} {mid : Session × World} {fresh : Connection}
    {request' : Request} (hplain : request.isHandshake = false)
    (hplain' : request'.isHandshake = false) (hsame : request'.withoutIds = request.withoutIds)
    (hlost : Lost server request st connection e)
    (hreconnect : reconnect server (afterCall server connection .firstAttempt request st) =
      (.ok (), mid)) (result : Result α) :
    ∃ new, Disciplined server request st result
      (afterCall server fresh .secondAttempt request' mid) new := by
  obtain ⟨new, hnew, hquiet⟩ :=
    reconnect_handshakes server (afterCall server connection .firstAttempt request st)
  rw [hreconnect] at hnew
  let first : Call :=
    ⟨connection, .firstAttempt, request, server.answer st.2.calls connection request⟩
  let second : Call :=
    ⟨fresh, .secondAttempt, request', server.answer mid.2.calls fresh request'⟩
  have hsent : sentCalls ([second] ++ new ++ [first]) = [second, first] := by
    rw [sentCalls_append, sentCalls_append, hquiet, sentCalls_singleton hplain',
      sentCalls_singleton hplain]
    rfl
  refine ⟨[second] ++ new ++ [first], ?_, by rw [hsent]; exact Nat.le_refl 2, ?_, ?_, ?_, ?_, ?_⟩
  · change second :: mid.1.trace = _
    rw [hnew.trace, List.append_assoc, List.append_assoc]
    rfl
  · rw [hsent, hlost.connected]
    simp
  · rw [hsent]
    exact ⟨fun _ ↦ ⟨connection, e, mid, hlost, hreconnect⟩, fun _ ↦ rfl⟩
  · rw [hsent]
    simp [first, second, hsame]
  · rintro connection' e' fault' mid' hlost' hmid'
    obtain ⟨rfl, rfl⟩ := hlost.unique hlost'
    rw [hreconnect] at hmid'
    cases hmid'
  · intro hkept
    exact absurd ⟨connection, e, hlost⟩ hkept

theorem withRetry_disciplined {op : CallSite → SessionM α} {mk : Session → Request}
    {out : (session : Session) → (mk session).Reply → α} (hop : Sends server op mk out)
    (hmk : Rebuilds mk) (st : Session × World) :
    ∃ new, Disciplined server (mk st.1) st (withRetry server op st).1 (withRetry server op st).2
      new := by
  rw [withRetry_eq server hop]
  cases hconn : st.1.connection with
  | none =>
      -- nothing was sent, so nothing was lost
      have hkept : ¬∃ connection e, Lost server (mk st.1) st connection e := by
        rintro ⟨connection, e, hlost⟩
        cases hconn.symm.trans hlost.connected
      refine ⟨[], rfl, Nat.zero_le 2, ?_, ?_, by simp [sentCalls], ?_, fun _ ↦ ⟨rfl, rfl, rfl⟩⟩
      · exact ⟨fun _ ↦ hconn, fun _ ↦ rfl⟩
      · constructor
        · intro h
          cases h
        · rintro ⟨connection, e, mid, hlost, -⟩
          exact absurd ⟨connection, e, hlost⟩ hkept
      · intro connection e _ _ hlost _
        exact absurd ⟨connection, e, hlost⟩ hkept
  | some connection =>
      have hplain := hmk.plain st.1
      cases hreply : server.answer st.2.calls connection (mk st.1) with
      | ok value =>
          simp only [hreply]
          refine ⟨_, disciplined_once hplain hconn ?_ _⟩
          rintro ⟨connection', e, hlost⟩
          cases hconn.symm.trans hlost.connected
          cases hreply.symm.trans hlost.failed
      | error e =>
          simp only [hreply]
          cases hauto : st.1.config.enableAutoReconnect with
          | false =>
              refine ⟨_, disciplined_once hplain hconn ?_ _⟩
              rintro ⟨connection', e, hlost⟩
              cases hauto.symm.trans hlost.auto
          | true =>
              -- lost: the reconnect decides whether there is a second attempt
              have hlost : Lost server (mk st.1) st connection e := ⟨hconn, hreply, hauto⟩
              have hspec := reconnect_spec server
                (afterCall server connection .firstAttempt (mk st.1) st).1
                (afterCall server connection .firstAttempt (mk st.1) st).2 _ rfl
              simp only [if_true]
              rcases hrun : reconnect server (afterCall server connection .firstAttempt (mk st.1) st)
                with ⟨fault | _, mid⟩
              · obtain ⟨⟨e', rfl⟩, -⟩ := reconnect_fails server hrun
                exact disciplined_lost hplain hlost hrun
              · rw [hrun] at hspec
                obtain ⟨fresh, hfresh, new, hnew, -⟩ := hspec
                have hsecond := hop .secondAttempt mid
                rw [hfresh] at hsecond
                simp only [hsecond]
                exact disciplined_again hplain (hmk.plain mid.1) (hmk.same st.1 mid.1 hnew.config)
                  hlost hrun _

/-- A tail that makes no call keeps the discipline. -/
theorem Disciplined.tail {β : Type} {result : Result α} {mid after : Session × World}
    {result' : Result β} {new : List Call} (h : Disciplined server request st result mid new)
    (htrace : after.1.trace = mid.1.trace) (hconn : after.1.connection = mid.1.connection)
    (hworld : after.2 = mid.2) (herror : ∀ fault, result = .error fault → result' = .error fault) :
    Disciplined server request st result' after new where
  trace := htrace.trans h.trace
  atMostTwice := h.atMostTwice
  notSent := h.notSent
  sentAgain := h.sentAgain
  sameRequest := h.sameRequest
  originalError := by
    intro connection e fault mid' hlost hreconnect
    obtain ⟨hresult, hnone⟩ := h.originalError connection e fault mid' hlost hreconnect
    exact ⟨herror _ hresult, hconn.trans hnone⟩
  noReconnect := by
    intro hkept
    obtain ⟨hsent, hsame, hcalls⟩ := h.noReconnect hkept
    exact ⟨hsent, hconn.trans hsame, hworld.trans hcalls⟩

end

/-! ## The methods -/

namespace SessionCall

variable (server : Server)

/-- The RPC of a method that goes through `with_retry`, as `session` would send it; building it can
fail.  `none` for the other methods. -/
def rpc : SessionCall → Session → Option (Result Request)
  | executeNonQuery sql, session => some (pure (.executeUpdate (session.statementReq sql)))
  | executeQueryRaw sql, session => some (pure (.executeQuery (session.statementReq sql)))
  | insertTablet tablet, session => some do
      let req ← insertTabletReq session.sessionId tablet
      pure (.insert ((InsertReq.tablet req).withSessionId session.sessionId))
  | insertTabletRaw req, session =>
      some (pure (.insert ((InsertReq.tablet req).withSessionId session.sessionId)))
  | insertTablets tablets isAligned, session => some do
      let req ← buildInsertTabletsReq session.sessionId tablets isAligned
      pure (.insert ((InsertReq.tablets req).withSessionId session.sessionId))
  | insertRecord deviceId timestamp measurements values isAligned, session => some do
      let req ← insertRecordReq session.sessionId deviceId timestamp measurements values isAligned
      pure (.insert ((InsertReq.record req).withSessionId session.sessionId))
  | insertRecords deviceIds timestamps measurementsList valuesList isAligned, session => some do
      let req ← insertRecordsReq session.sessionId deviceIds timestamps measurementsList valuesList
        isAligned
      pure (.insert ((InsertReq.records req).withSessionId session.sessionId))
  | insertRecordsOfOneDevice deviceId timestamps measurementsList valuesList isAligned, session =>
      some do
        let req ← insertRecordsOfOneDeviceReq session.sessionId deviceId timestamps measurementsList
          valuesList isAligned
        pure (.insert ((InsertReq.recordsOfOneDevice req).withSessionId session.sessionId))
  | _, _ => none

/-- What the method returns, without its value. -/
def result : SessionCall → Session × World → Result Unit
  | .open, st => (Session.open server st).1
  | executeNonQuery sql, st => (Session.executeNonQuery server sql st).1
  | executeQueryRaw sql, st => (Session.executeQueryRaw server sql st).1.map fun _ ↦ ()
  | fetchResults queryId sql, st =>
      (Session.fetchResults server .single queryId sql st).1.map fun _ ↦ ()
  | closeQuery queryId, st => (Session.closeQuery server .single queryId st).1
  | insertTablet tablet, st => (Session.insertTablet server tablet st).1
  | insertTabletRaw req, st => (Session.insertTabletRaw server req st).1
  | insertTablets tablets isAligned, st => (Session.insertTablets server tablets isAligned st).1
  | insertRecord deviceId timestamp measurements values isAligned, st =>
      (Session.insertRecord server deviceId timestamp measurements values isAligned st).1
  | insertRecords deviceIds timestamps measurementsList valuesList isAligned, st =>
      (Session.insertRecords server deviceIds timestamps measurementsList valuesList isAligned st).1
  | insertRecordsOfOneDevice deviceId timestamps measurementsList valuesList isAligned, st =>
      (Session.insertRecordsOfOneDevice server deviceId timestamps measurementsList valuesList
        isAligned st).1
  | redirectHint _, _ | clearRedirectCache, _ => .ok ()
  | close, st => (Session.close server st).1

end SessionCall

theorem rebuilds_update (sql : String) :
    Rebuilds fun session ↦ .executeUpdate (session.statementReq sql) where
  plain _ := rfl
  same session session' h := by simp only [Request.withoutIds, Session.statementReq, h]

theorem rebuilds_query (sql : String) :
    Rebuilds fun session ↦ .executeQuery (session.statementReq sql) where
  plain _ := rfl
  same session session' h := by simp only [Request.withoutIds, Session.statementReq, h]

theorem rebuilds_insert (req : InsertReq) :
    Rebuilds fun session ↦ .insert (req.withSessionId session.sessionId) where
  plain _ := rfl
  same _ _ _ := by cases req <;> rfl

section

variable {server : Server}

theorem executeNonQuery_disciplined (sql : String) (st : Session × World) :
    ∃ new, Disciplined server (.executeUpdate (st.1.statementReq sql)) st
      (executeNonQuery server sql st).1 (executeNonQuery server sql st).2 new := by
  obtain ⟨new, h⟩ := withRetry_disciplined (sends_update server sql) (rebuilds_update sql) st
  refine ⟨new, ?_⟩
  simp only [executeNonQuery, bind_apply]
  generalize withRetry server (sendUpdate server sql) st = run at h ⊢
  obtain ⟨fault | resp, mid⟩ := run
  · exact h.tail rfl rfl rfl fun _ heq ↦ by cases heq; rfl
  · simp only [ofOutcome_apply]
    cases checkStatus resp.status with
    | error fault => exact h.tail rfl rfl rfl fun _ heq ↦ by cases heq
    | ok _ =>
        cases resp.database with
        | none => exact h.tail rfl rfl rfl fun _ heq ↦ by cases heq
        | some db => exact h.tail rfl rfl rfl fun _ heq ↦ by cases heq

theorem executeQueryRaw_disciplined (sql : String) (st : Session × World) :
    ∃ new, Disciplined server (.executeQuery (st.1.statementReq sql)) st
      (executeQueryRaw server sql st).1 (executeQueryRaw server sql st).2 new := by
  obtain ⟨new, h⟩ := withRetry_disciplined (sends_query server sql) (rebuilds_query sql) st
  refine ⟨new, ?_⟩
  simp only [executeQueryRaw, bind_apply]
  generalize withRetry server (sendQuery server sql) st = run at h ⊢
  obtain ⟨fault | resp, mid⟩ := run
  · exact h.tail rfl rfl rfl fun _ heq ↦ by cases heq; rfl
  · simp only [ofOutcome_apply]
    cases checkStatus resp.status with
    | error fault => exact h.tail rfl rfl rfl fun _ heq ↦ by cases heq
    | ok _ =>
        cases resp.queryId with
        | none => exact h.tail rfl rfl rfl fun _ heq ↦ by cases heq
        | some queryId => exact h.tail rfl rfl rfl fun _ heq ↦ by cases heq

theorem insert_disciplined (devices : List String) (req : InsertReq) (st : Session × World) :
    ∃ new, Disciplined server (.insert (req.withSessionId st.1.sessionId)) st
      (Session.insert server devices req st).1 (Session.insert server devices req st).2 new := by
  obtain ⟨new, h⟩ := withRetry_disciplined (sends_insert server req) (rebuilds_insert req) st
  refine ⟨new, ?_⟩
  simp only [Session.insert, bind_apply]
  generalize withRetry server (sendInsert server req) st = run at h ⊢
  obtain ⟨fault | status, mid⟩ := run
  · exact h.tail rfl rfl rfl fun _ heq ↦ by cases heq; rfl
  · obtain ⟨cache, hcache⟩ := checkInsertStatus_state devices status mid
    simp only [hcache]
    exact h.tail rfl rfl rfl fun _ heq ↦ by cases heq

/-- A method whose RPC cannot be built does nothing; otherwise its RPC is disciplined. -/
def Obeys (server : Server) (st : Session × World) (built : Result Request)
    (done : Result Unit × (Session × World)) : Prop :=
  match built with
  | .ok request => ∃ new, Disciplined server request st done.1 done.2 new
  | .error fault => done = (.error fault, st)

theorem built_obeys {β : Type} (build : Session → Result β) (wrap : β → InsertReq)
    (devices : β → List String) (st : Session × World) :
    Obeys server st
      (do let b ← build st.1; pure (.insert ((wrap b).withSessionId st.1.sessionId)))
      ((do let b ← ofOutcome (build (← self)); insert server (devices b) (wrap b) :
        SessionM Unit) st) := by
  simp only [bind_apply, self_apply, ofOutcome_apply]
  cases build st.1 with
  | error fault => exact rfl
  | ok b => exact insert_disciplined (devices b) (wrap b) st

/-- One call, or none where there is no connection; never a reconnect. -/
def SentOnce (st after : Session × World) : Prop :=
  ∃ new, after.1.trace = new ++ st.1.trace ∧ new.length ≤ 1 ∧ sentCalls new = new ∧
    after.1.connection = st.1.connection ∧ after.2 = { st.2 with calls := st.2.calls + new.length }

theorem fetchResults_sentOnce (site : CallSite) (queryId : Int64) (sql : String)
    (st : Session × World) : SentOnce st (fetchResults server site queryId sql st).2 := by
  rw [fetchResults_eq]
  cases st.1.connection with
  | none => exact ⟨[], rfl, Nat.zero_le 1, rfl, rfl, rfl⟩
  | some connection => exact ⟨[_], rfl, Nat.le_refl 1, rfl, rfl, rfl⟩

theorem closeQuery_sentOnce (site : CallSite) (queryId : Int64) (st : Session × World) :
    SentOnce st (Session.closeQuery server site queryId st).2 := by
  rw [closeQuery_eq]
  cases st.1.connection with
  | none => exact ⟨[], rfl, Nat.zero_le 1, rfl, rfl, rfl⟩
  | some connection => exact ⟨[_], rfl, Nat.le_refl 1, rfl, rfl, rfl⟩

end

/-- A second attempt follows a transport failure and a reconnect, and nothing else; fetches and
closes are sent once. -/
theorem retry_discipline (server : Server) (st : Session × World) :
    (∀ (method : SessionCall) (built : Result Request), method.rpc st.1 = some built →
      Obeys server st built (method.result server st, method.run server st)) ∧
    ∀ (site : CallSite) (queryId : Int64) (sql : String),
      SentOnce st (fetchResults server site queryId sql st).2 ∧
      SentOnce st (Session.closeQuery server site queryId st).2 := by
  refine ⟨?_, fun site queryId sql ↦
    ⟨fetchResults_sentOnce site queryId sql st, closeQuery_sentOnce site queryId st⟩⟩
  intro method built hbuilt
  cases method with
  | «open» | fetchResults | closeQuery | redirectHint | clearRedirectCache | close => cases hbuilt
  | executeNonQuery sql =>
      cases hbuilt
      exact executeNonQuery_disciplined sql st
  | executeQueryRaw sql =>
      cases hbuilt
      have hrun : ∃ new, Disciplined server (.executeQuery (st.1.statementReq sql)) st
          (executeQueryRaw server sql st).1 (executeQueryRaw server sql st).2 new :=
        executeQueryRaw_disciplined sql st
      obtain ⟨new, h⟩ := hrun
      refine ⟨new, h.tail rfl rfl rfl ?_⟩
      intro fault heq
      change (executeQueryRaw server sql st).1.map _ = _
      rw [heq]
      rfl
  | insertTabletRaw req =>
      cases hbuilt
      exact insert_disciplined _ _ st
  | insertTablet tablet =>
      cases hbuilt
      exact built_obeys (fun session ↦ insertTabletReq session.sessionId tablet) .tablet
        (fun req ↦ [req.prefixPath]) st
  | insertTablets tablets isAligned =>
      cases hbuilt
      exact built_obeys (fun session ↦ buildInsertTabletsReq session.sessionId tablets isAligned)
        .tablets (fun req ↦ req.prefixPaths) st
  | insertRecord deviceId timestamp measurements values isAligned =>
      cases hbuilt
      exact built_obeys (fun session ↦ insertRecordReq session.sessionId deviceId timestamp
        measurements values isAligned) .record (fun _ ↦ [deviceId]) st
  | insertRecords deviceIds timestamps measurementsList valuesList isAligned =>
      cases hbuilt
      exact built_obeys (fun session ↦ insertRecordsReq session.sessionId deviceIds timestamps
        measurementsList valuesList isAligned) .records (fun req ↦ req.prefixPaths) st
  | insertRecordsOfOneDevice deviceId timestamps measurementsList valuesList isAligned =>
      cases hbuilt
      exact built_obeys (fun session ↦ insertRecordsOfOneDeviceReq session.sessionId deviceId
        timestamps measurementsList valuesList isAligned) .recordsOfOneDevice (fun _ ↦ [deviceId]) st

/-- The first call fails, the handshake after it goes through, and so does the second attempt. -/
def brokenPipeServer : Server where
  connect _ _ _ := none
  answer
    | 1, _, .executeQuery _ => .error "broken pipe"
    | n, _, .openSession _ => .ok ⟨.mk 200 none none none, some (.ofNat n)⟩
    | n, _, .requestStatementId _ => .ok (.ofNat n)
    | n, _, .executeQuery _ =>
        .ok ⟨.mk 200 none none none, some (.ofNat n), none, none, none, none, none, none, none⟩
    | _, _, _ => .error "not scripted"

def connectedState : Session × World :=
  ({ Session.new .default with connection := some ⟨0, ⟨"localhost", 6667⟩⟩ }, ⟨1, 0, 0⟩)

theorem retry_discipline_resent :
    ∃ new, Disciplined brokenPipeServer
        (.executeQuery (connectedState.1.statementReq "SHOW DATABASES")) connectedState
        (SessionCall.result brokenPipeServer (.executeQueryRaw "SHOW DATABASES") connectedState)
        (SessionCall.run brokenPipeServer (.executeQueryRaw "SHOW DATABASES") connectedState) new ∧
      (sentCalls new).length = 2 := by
  obtain ⟨new, h⟩ := (retry_discipline brokenPipeServer connectedState).1
    (.executeQueryRaw "SHOW DATABASES") _ rfl
  exact ⟨new, h, h.sentAgain.mpr ⟨_, "broken pipe", _, ⟨rfl, rfl, rfl⟩, rfl⟩⟩

end IotdbClient
