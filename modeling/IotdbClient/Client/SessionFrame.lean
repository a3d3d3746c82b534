import IotdbClient.Client.Owner

/-!
# What the methods of a session leave alone

Retries change the connection of a session, its ids and its calls, and the world; a method changes
its database and its hints besides.  An invariant that survives these changes survives every method,
whatever the server answers and however often it is called.
-/

namespace IotdbClient

open Library Program

namespace Session

variable {server : Server} {I : Session × World → Prop} {α : Type}

/-- An invariant that no part of a retried call breaks. -/
structure KeptByRetries (server : Server) (I : Session × World → Prop) : Prop where
  call : ∀ st connection site request, I st → I (afterCall server connection site request st)
  world : ∀ st world, st.2.clock ≤ world.clock → I st → I (st.1, world)
  ids : ∀ st connection sessionId statementId lastEndpoint, I st → I ({ st.1 with
    connection := connection
    sessionId := sessionId
    statementId := statementId
    lastEndpoint := lastEndpoint }, st.2)

/-- Nor does any method. -/
structure KeptByMethods (server : Server) (I : Session × World → Prop) : Prop extends
    KeptByRetries server I where
  database : ∀ st database, I st → I ({ st.1 with database := database }, st.2)
  hints : ∀ st cache, I st → I ({ st.1 with redirectCache := cache }, st.2)

/-! ## Calls -/

theorem keeps_self : Keeps I self := ⟨fun _ hst ↦ hst⟩

theorem keeps_connectionMut : Keeps I connectionMut := by
  apply keeps_self.bind
  intro session
  cases session.connection with
  | none => exact Keeps.raise _
  | some connection => exact Keeps.pure _

section

variable (h : KeptByRetries server I)
include h

theorem KeptByRetries.keeps_call (connection : Connection) (site : CallSite) (request : Request) :
    Keeps I (Session.call server connection site request) where
  kept := by
    intro st hst
    rw [call_state]
    exact h.call st connection site request hst

theorem KeptByRetries.keeps_connect (endpoint : Endpoint) (options : ConnectionOptions) :
    Keeps I (connect server endpoint options) where
  kept := by
    intro st hst
    have hdialled := h.world st { st.2 with calls := st.2.calls + 1 } (Nat.le_refl _) hst
    simp only [connect]
    split
    · exact hdialled
    · exact hdialled

theorem KeptByRetries.keeps_authenticate (connection : Connection) :
    Keeps I (authenticate server connection) := by
  apply keeps_self.bind
  intro session
  apply (h.keeps_call connection .handshake (.openSession session.openSessionReq)).bind
  intro resp
  apply (Keeps.ofOutcome _).bind
  intro _
  cases TSOpenSessionResp.sessionId resp with
  | none => exact Keeps.raise _
  | some sessionId =>
      apply (h.keeps_call connection .handshake (.requestStatementId sessionId)).bind
      intro statementId
      exact Keeps.pure _

theorem KeptByRetries.keeps_adopt (connection : Connection) (ids : Int64 × Int64) :
    Keeps I (adopt connection ids) :=
  ⟨fun st hst ↦ h.ids st _ _ _ _ hst⟩

theorem KeptByRetries.keeps_connectFirst (options : ConnectionOptions) (endpoints : List Endpoint)
    (lastErr : Option Error) : Keeps I (connectFirst server options endpoints lastErr) := by
  induction endpoints generalizing lastErr with
  | nil => exact Keeps.raise _
  | cons endpoint rest ih =>
      apply (h.keeps_connect endpoint options).attempt.bind
      intro outcome
      match outcome with
      | .ok connection => exact Keeps.pure _
      | .error (.error e) => exact ih (some e)
      | .error (.panic message) => exact Keeps.throw _

theorem KeptByRetries.keeps_nextStart (n : Nat) : Keeps I (nextStart n) :=
  ⟨fun st hst ↦ h.world st _ (Nat.le_refl _) hst⟩

theorem KeptByRetries.keeps_open : Keeps I (Session.open server) := by
  apply keeps_self.bind
  intro session
  apply (Keeps.raise _).branch
  apply (Keeps.raise _).branch
  apply (h.keeps_nextStart _).bind
  intro start
  apply (h.keeps_connectFirst _ _ _).bind
  intro connection
  apply (h.keeps_authenticate connection).bind
  intro ids
  exact h.keeps_adopt connection ids

theorem KeptByRetries.keeps_handshake (options : ConnectionOptions) (endpoint : Endpoint) :
    Keeps I (handshake server options endpoint) := by
  apply (h.keeps_connect endpoint options).bind
  intro connection
  apply (h.keeps_authenticate connection).bind
  intro ids
  exact Keeps.pure _

theorem KeptByRetries.keeps_reconnectPass (options : ConnectionOptions) (endpoints : List Endpoint)
    (lastErr : Option Error) : Keeps I (reconnectPass server options endpoints lastErr) := by
  induction endpoints generalizing lastErr with
  | nil => exact Keeps.pure _
  | cons endpoint rest ih =>
      apply (h.keeps_handshake options endpoint).attempt.bind
      intro outcome
      match outcome with
      | .ok (connection, ids) =>
          apply (h.keeps_adopt connection ids).bind
          intro _
          exact Keeps.pure _
      | .error (.error e) => exact ih (some e)
      | .error (.panic message) => exact Keeps.throw _

theorem KeptByRetries.keeps_pauseUnless (first : Bool) (interval : Nat) :
    Keeps I (pauseUnless first interval) := by
  cases first with
  | true => exact Keeps.pure _
  | false => exact ⟨fun st hst ↦ h.world st _ (Nat.le_add_right _ _) hst⟩

theorem KeptByRetries.keeps_reconnectPasses (options : ConnectionOptions)
    (endpoints : List Endpoint) (interval : Nat) (first : Bool) (remaining : Nat)
    (lastErr : Option Error) :
    Keeps I (reconnectPasses server options endpoints interval first remaining lastErr) := by
  induction remaining generalizing first lastErr with
  | zero => exact Keeps.raise _
  | succ remaining ih =>
      apply (h.keeps_pauseUnless first interval).bind
      intro _
      apply (h.keeps_reconnectPass options endpoints lastErr).bind
      intro (done, lastErr)
      exact (Keeps.pure _).branch (ih false lastErr)

theorem KeptByRetries.keeps_reconnect : Keeps I (reconnect server) := by
  have hdrop : Keeps I (update fun session ↦ { session with connection := none }) :=
    ⟨fun st hst ↦ h.ids st none _ _ _ hst⟩
  apply hdrop.bind
  intro _
  apply keeps_self.bind
  intro session
  exact (Keeps.raise _).branch (h.keeps_reconnectPasses _ _ _ _ _ _)

theorem KeptByRetries.keeps_withRetry {op : CallSite → SessionM α}
    (hop : ∀ site, Keeps I (op site)) : Keeps I (withRetry server op) := by
  apply (hop .firstAttempt).attempt.bind
  intro outcome
  match outcome with
  | .ok a => exact Keeps.ofOutcome _
  | .error (.panic message) => exact Keeps.ofOutcome _
  | .error (.error (.thrift e)) =>
      apply keeps_self.bind
      intro session
      apply Keeps.branch
      · apply h.keeps_reconnect.attempt.bind
        intro outcome
        match outcome with
        | .ok () => exact hop .secondAttempt
        | .error (.error _) => exact Keeps.raise _
        | .error (.panic message) => exact Keeps.throw _
      · exact Keeps.raise _
  | .error (.error (.server _ _)) | .error (.error (.client _)) | .error (.error (.decode _))
  | .error (.error (.tls _)) => exact Keeps.ofOutcome _

/-! ## Closures of `with_retry` -/

theorem KeptByRetries.keeps_sendUpdate (sql : String) (site : CallSite) :
    Keeps I (sendUpdate server sql site) := by
  apply keeps_self.bind
  intro session
  apply keeps_connectionMut.bind
  intro connection
  exact h.keeps_call connection site _

theorem KeptByRetries.keeps_sendQuery (sql : String) (site : CallSite) :
    Keeps I (sendQuery server sql site) := by
  apply keeps_self.bind
  intro session
  apply keeps_connectionMut.bind
  intro connection
  exact h.keeps_call connection site _

theorem KeptByRetries.keeps_sendInsert (req : InsertReq) (site : CallSite) :
    Keeps I (sendInsert server req site) := by
  apply keeps_self.bind
  intro session
  apply keeps_connectionMut.bind
  intro connection
  exact h.keeps_call connection site _

/-! ## Calls without retry -/

theorem KeptByRetries.keeps_executeQueryRaw (sql : String) :
    Keeps I (executeQueryRaw server sql) := by
  apply (h.keeps_withRetry fun site ↦ h.keeps_sendQuery sql site).bind
  intro resp
  apply (Keeps.ofOutcome _).bind
  intro _
  cases resp.queryId with
  | none => exact Keeps.raise _
  | some queryId => exact Keeps.pure _

theorem KeptByRetries.keeps_fetchResults (site : CallSite) (queryId : Int64) (sql : String) :
    Keeps I (fetchResults server site queryId sql) := by
  apply keeps_self.bind
  intro session
  apply keeps_connectionMut.bind
  intro connection
  apply (h.keeps_call connection site _).bind
  intro resp
  apply (Keeps.ofOutcome _).bind
  intro _
  exact Keeps.pure _

theorem KeptByRetries.keeps_closeQuery (site : CallSite) (queryId : Int64) :
    Keeps I (closeQuery server site queryId) := by
  apply keeps_self.bind
  intro session
  cases session.connection with
  | none => exact Keeps.pure _
  | some connection =>
      apply (h.keeps_call connection site _).attempt.bind
      intro _
      exact Keeps.pure _

theorem KeptByRetries.keeps_close : Keeps I (close server) := by
  apply keeps_self.bind
  intro session
  have hreset : Keeps I (update fun session ↦ { session with sessionId := -1, statementId := -1 }) :=
    ⟨fun st hst ↦ h.ids st _ _ _ _ hst⟩
  have hdrop : Keeps I (update fun session ↦ { session with connection := none }) :=
    ⟨fun st hst ↦ h.ids st none _ _ _ hst⟩
  cases session.connection with
  | none => exact hreset
  | some connection =>
      apply hdrop.bind
      intro _
      apply (h.keeps_call connection .single _).attempt.bind
      intro _
      exact hreset

end

/-! ## Methods -/

section

variable (h : KeptByMethods server I)
include h

theorem KeptByMethods.keeps_executeNonQuery (sql : String) :
    Keeps I (executeNonQuery server sql) := by
  apply (h.keeps_withRetry fun site ↦ h.keeps_sendUpdate sql site).bind
  intro resp
  apply (Keeps.ofOutcome _).bind
  intro _
  cases resp.database with
  | none => exact Keeps.pure _
  | some db => exact ⟨fun st hst ↦ h.database st _ hst⟩

theorem KeptByMethods.keeps_insert (devices : List String) (req : InsertReq) :
    Keeps I (Session.insert server devices req) := by
  apply (h.keeps_withRetry fun site ↦ h.keeps_sendInsert req site).bind
  intro status
  apply keeps_self.bind
  intro session
  have hchecked : Keeps I (ofOutcome (checkStatus status) : SessionM Unit) := Keeps.ofOutcome _
  refine Keeps.branch (Keeps.bind ?_ fun _ ↦ hchecked) hchecked
  -- the hints are recorded
  exact ⟨fun st hst ↦ h.hints st _ hst⟩

/-- A request that cannot be built is not sent. -/
theorem KeptByMethods.keeps_built {β : Type} (build : Session → Result β) (wrap : β → InsertReq)
    (devices : β → List String) :
    Keeps I (do
      let b ← ofOutcome (build (← self))
      Session.insert server (devices b) (wrap b)) := by
  apply keeps_self.bind
  intro session
  apply (Keeps.ofOutcome _).bind
  intro b
  exact h.keeps_insert (devices b) (wrap b)

theorem KeptByMethods.run (method : SessionCall) (st : Session × World) (hst : I st) :
    I (method.run server st) := by
  cases method with
  | «open» => exact h.keeps_open.kept st hst
  | executeNonQuery sql => exact (h.keeps_executeNonQuery sql).kept st hst
  | executeQueryRaw sql => exact (h.keeps_executeQueryRaw sql).kept st hst
  | fetchResults queryId sql => exact (h.keeps_fetchResults .single queryId sql).kept st hst
  | closeQuery queryId => exact (h.keeps_closeQuery .single queryId).kept st hst
  | insertTabletRaw req => exact (h.keeps_insert _ _).kept st hst
  | insertTablet tablet =>
      exact (h.keeps_built (fun session ↦ insertTabletReq session.sessionId tablet) .tablet
        fun req ↦ [req.prefixPath]).kept st hst
  | insertTablets tablets isAligned =>
      exact (h.keeps_built
        (fun session ↦ buildInsertTabletsReq session.sessionId tablets isAligned) .tablets
        fun req ↦ req.prefixPaths).kept st hst
  | insertRecord deviceId timestamp measurements values isAligned =>
      exact (h.keeps_built (fun session ↦ insertRecordReq session.sessionId deviceId timestamp
        measurements values isAligned) .record fun _ ↦ [deviceId]).kept st hst
  | insertRecords deviceIds timestamps measurementsList valuesList isAligned =>
      exact (h.keeps_built (fun session ↦ insertRecordsReq session.sessionId deviceIds timestamps
        measurementsList valuesList isAligned) .records fun req ↦ req.prefixPaths).kept st hst
  | insertRecordsOfOneDevice deviceId timestamps measurementsList valuesList isAligned =>
      exact (h.keeps_built (fun session ↦ insertRecordsOfOneDeviceReq session.sessionId deviceId
        timestamps measurementsList valuesList isAligned) .recordsOfOneDevice
        fun _ ↦ [deviceId]).kept st hst
  | redirectHint deviceId => exact h.hints st _ hst
  | clearRedirectCache => exact h.hints st _ hst
  | close => exact h.keeps_close.kept st hst

/-- The owner of a session changes it through its methods only. -/
theorem KeptByMethods.act {action : OwnerAction} {owner owner' : Owner} {world world' : World}
    (hact : Owner.act server action (owner, world) = some (owner', world'))
    (hst : I (owner.session, world)) : I (owner'.session, world') := by
  have hclosed : ∀ queryId s, I s → I (Session.closeQuery server .dataSet queryId s).2 :=
    fun queryId s hs ↦ (h.keeps_closeQuery .dataSet queryId).kept s hs
  cases Owner.act_spec hact with
  | called method => exact h.run method _ hst
  | @queried sql session _ _ _ hrun | @queryFailed sql session _ _ _ hrun =>
      have hquery := (h.keeps_executeQueryRaw sql).kept (session, world) hst
      rw [hrun] at hquery
      exact hquery
  | turned hturn =>
      exact (Owner.turn_keeps hturn
        (fun sql s hs ↦ (h.keeps_fetchResults .dataSet _ sql).kept s hs) (hclosed _) hst).1
  | @closed ds _ _ _ heq | @dropped ds _ _ _ heq =>
      subst heq
      exact (Owner.close_keeps ds (hclosed _) hst).1

end

end Session

end IotdbClient
