import IotdbClient.Client.Session

/-!
# What the session's methods do

One description for the handshake, for `reconnect` and for a retried call.  Each says which calls
were added to the trace and what became of the connection and its ids; everything else about
sessions is derived from these.
-/

namespace IotdbClient

open Library Program

/-! ## Ids issued on a connection -/

/-- The session id an `openSession` on `connection` returned. -/
def Call.sessionIdOn (connection : Connection) : Call → Option Int64
  | ⟨c, _, .openSession _, .ok resp⟩ =>
      if c = connection then TSOpenSessionResp.sessionId resp else none
  | _ => none

/-- The statement id a `requestStatementId` on `connection` returned. -/
def Call.statementIdOn (connection : Connection) : Call → Option Int64
  | ⟨c, _, .requestStatementId _, .ok statementId⟩ => if c = connection then some statementId else none
  | _ => none

/-- The pair of ids that the handshake of `connection` returned, by the trace. -/
def issuedIds (trace : List Call) (connection : Connection) : Option (Int64 × Int64) :=
  match trace.findSome? (Call.sessionIdOn connection),
    trace.findSome? (Call.statementIdOn connection) with
  | some sessionId, some statementId => some (sessionId, statementId)
  | _, _ => none

theorem issuedIds_append {new : List Call} {connection : Connection} {ids : Int64 × Int64}
    (h : issuedIds new connection = some ids) (old : List Call) :
    issuedIds (new ++ old) connection = some ids := by
  unfold issuedIds at h ⊢
  rw [List.findSome?_append, List.findSome?_append]
  cases hsession : new.findSome? (Call.sessionIdOn connection) with
  | none => simp [hsession] at h
  | some sessionId =>
      cases hstatement : new.findSome? (Call.statementIdOn connection) with
      | none => simp [hstatement] at h
      | some statementId => simpa [hsession, hstatement] using h

/-- The two calls of a handshake issue the ids, whatever came before. -/
theorem issuedIds_handshake {connection : Connection} {req : TSOpenSessionReq}
    {resp : TSOpenSessionResp} {sessionId statementId : Int64} {old : List Call}
    (h : resp.sessionId = some sessionId) :
    issuedIds (⟨connection, .handshake, .requestStatementId sessionId, .ok statementId⟩ ::
      ⟨connection, .handshake, .openSession req, .ok resp⟩ :: old) connection =
      some (sessionId, statementId) := by
  have hsession : Call.sessionIdOn connection
      ⟨connection, .handshake, .openSession req, .ok resp⟩ = some sessionId := by
    change (if connection = connection then resp.sessionId else none) = _
    rw [if_pos rfl, h]
  have hskip : Call.sessionIdOn connection
      ⟨connection, .handshake, .requestStatementId sessionId, .ok statementId⟩ = none := rfl
  have hstatement : Call.statementIdOn connection
      ⟨connection, .handshake, .requestStatementId sessionId, .ok statementId⟩ = some statementId := by
    change (if connection = connection then some statementId else none) = _
    rw [if_pos rfl]
  unfold issuedIds
  rw [List.findSome?_cons, hskip, List.findSome?_cons, hsession, List.findSome?_cons, hstatement]

def Request.isHandshake : Request → Bool
  | openSession _ | requestStatementId _ => true
  | _ => false

/-! ## Handshakes -/

/-- From `before` to `after` only handshakes on new connections happened, with the calls `new`. -/
structure Handshaking (before after : Session × World) (new : List Call) : Prop where
  trace : after.1.trace = new ++ before.1.trace
  calls : before.2.calls ≤ after.2.calls
  handshakes : ∀ call ∈ new, call.site = .handshake ∧ call.request.isHandshake = true
  fresh : ∀ call ∈ new, before.2.calls ≤ call.connection.id ∧ call.connection.id < after.2.calls
  config : after.1.config = before.1.config
  database : after.1.database = before.1.database
  requests : ∀ call ∈ new, ∀ req, call.request = .openSession req → req = before.1.openSessionReq

/-- A connection made between the two states. -/
def MadeBetween (before after : Session × World) (connection : Connection) : Prop :=
  before.2.calls ≤ connection.id ∧ connection.id < after.2.calls

/-- No handshake has succeeded: the session holds no connection. -/
def Offline (before after : Session × World) : Prop :=
  ∃ new, Handshaking before after new ∧ after.1.connection = none

/-- The handshake of a new connection returned `ids`. -/
def Authenticated (before after : Session × World) (connection : Connection)
    (ids : Int64 × Int64) : Prop :=
  ∃ new, Handshaking before after new ∧ MadeBetween before after connection ∧
    issuedIds new connection = some ids

/-- The session holds a new connection and the ids of its handshake. -/
def Online (before after : Session × World) : Prop :=
  ∃ connection, after.1.connection = some connection ∧
    Authenticated before after connection (after.1.sessionId, after.1.statementId)

namespace Session

variable (server : Server) {before : Session × World}

theorem Handshaking.call {after : Session × World} {new : List Call} {connection : Connection}
    (h : Handshaking before after new) (hmade : MadeBetween before after connection)
    {request : Request} (hrequest : request.isHandshake = true)
    (hopen : ∀ req, request = .openSession req → req = before.1.openSessionReq) :
    Handshaking before (afterCall server connection .handshake request after)
      (⟨connection, .handshake, request, server.answer after.2.calls connection request⟩ :: new) where
  trace := by
    rw [List.cons_append, ← h.trace]
    rfl
  calls := h.calls.trans (Nat.le_succ _)
  handshakes := List.forall_mem_cons.mpr ⟨⟨rfl, hrequest⟩, h.handshakes⟩
  fresh := by
    refine List.forall_mem_cons.mpr ⟨⟨hmade.1, hmade.2.trans (Nat.lt_succ_self _)⟩, ?_⟩
    intro call hold
    exact ⟨(h.fresh call hold).1, (h.fresh call hold).2.trans (Nat.lt_succ_self _)⟩
  config := h.config
  database := h.database
  requests := List.forall_mem_cons.mpr ⟨hopen, h.requests⟩

theorem Handshaking.openSessionReq {after : Session × World} {new : List Call}
    (h : Handshaking before after new) : after.1.openSessionReq = before.1.openSessionReq := by
  simp only [Session.openSessionReq, h.config, h.database]

theorem connect_spec (endpoint : Endpoint) (options : ConnectionOptions) :
    Triple (Offline before) (connect server endpoint options)
      (fun connection after ↦ Offline before after ∧ MadeBetween before after connection)
      fun _ ↦ Offline before := by
  rintro ⟨session, world⟩ ⟨new, h, hnone⟩
  have hlater : Offline before (session, { world with calls := world.calls + 1 }) :=
    ⟨new, ⟨h.trace, h.calls.trans (Nat.le_succ _), h.handshakes,
      fun call hcall ↦ ⟨(h.fresh call hcall).1,
        (h.fresh call hcall).2.trans (Nat.lt_succ_self _)⟩, h.config, h.database, h.requests⟩, hnone⟩
  simp only [connect]
  cases server.connect world.calls endpoint options with
  | none => exact ⟨hlater, h.calls, Nat.lt_succ_self _⟩
  | some e => exact hlater

theorem authenticate_spec (connection : Connection) :
    Triple (fun st ↦ Offline before st ∧ MadeBetween before st connection)
      (authenticate server connection)
      (fun ids after ↦ Authenticated before after connection ids ∧ after.1.connection = none)
      fun _ ↦ Offline before := by
  rintro st ⟨⟨new, h, hnone⟩, hmade⟩
  have hkind : (Request.openSession st.1.openSessionReq).isHandshake = true := rfl
  have hopened := Handshaking.call server h hmade hkind (by
    rintro req ⟨⟩
    exact Handshaking.openSessionReq h)
  simp only [authenticate, bind_apply, self_apply, call]
  cases hanswer : server.answer st.2.calls connection (.openSession st.1.openSessionReq) with
  | error e => exact ⟨_, hopened, hnone⟩
  | ok resp =>
      simp only [ofOutcome_apply]
      cases checkStatus (TSOpenSessionResp.status resp) with
      | error e => exact ⟨_, hopened, hnone⟩
      | ok _ =>
          simp only
          cases hid : TSOpenSessionResp.sessionId resp with
          | none => exact ⟨_, hopened, hnone⟩
          | some sessionId =>
              -- the second call of the handshake, over the same connection
              have hlater : MadeBetween before
                  (afterCall server connection .handshake (.openSession st.1.openSessionReq) st)
                  connection := ⟨hmade.1, hmade.2.trans (Nat.lt_succ_self _)⟩
              have hoffline : (afterCall server connection .handshake
                  (.openSession st.1.openSessionReq) st).1.connection = none := hnone
              have hkind' : (Request.requestStatementId sessionId).isHandshake = true := rfl
              have hrequested := Handshaking.call server hopened hlater hkind' (by rintro req ⟨⟩)
              rw [hanswer] at hrequested
              simp only [bind_apply, call]
              generalize afterCall server connection .handshake (.openSession st.1.openSessionReq) st
                = opened at hrequested hlater hoffline ⊢
              cases hstatement : server.answer opened.2.calls connection
                (.requestStatementId sessionId) with
              | error e => exact ⟨_, hrequested, hoffline⟩
              | ok statementId =>
                  rw [hstatement] at hrequested
                  refine ⟨⟨_, hrequested, ⟨hlater.1, hlater.2.trans (Nat.lt_succ_self _)⟩, ?_⟩, hoffline⟩
                  exact issuedIds_handshake hid

theorem adopt_spec (connection : Connection) (ids : Int64 × Int64) :
    Triple (fun st ↦ Authenticated before st connection ids) (adopt connection ids)
      (fun _ after ↦ Online before after) fun _ _ ↦ False := by
  rintro st ⟨new, h, hmade, hids⟩
  exact ⟨connection, rfl, new, ⟨h.trace, h.calls, h.handshakes, h.fresh, h.config, h.database, h.requests⟩, hmade, hids⟩

/-! ## Opening and reconnecting -/

theorem connectFirst_spec (options : ConnectionOptions) (endpoints : List Endpoint)
    (lastErr : Option Error) :
    Triple (Offline before) (connectFirst server options endpoints lastErr)
      (fun connection after ↦ Offline before after ∧ MadeBetween before after connection)
      fun _ ↦ Offline before := by
  induction endpoints generalizing lastErr with
  | nil => exact Triple.raise fun _ h ↦ h
  | cons endpoint rest ih =>
      refine Triple.bind (Triple.attempt (T := fun out after ↦ Offline before after ∧
        ∀ connection, out = .ok connection → MadeBetween before after connection)
        (connect_spec server endpoint options) ?_ ?_) fun out ↦ ?_
      · rintro connection st ⟨hst, hmade⟩
        exact ⟨hst, fun _ heq ↦ by cases heq; exact hmade⟩
      · intro fault st hst
        exact ⟨hst, fun _ heq ↦ by cases heq⟩
      · rcases out with (e | message) | connection
        · exact (ih (some e)).mono (fun _ h ↦ h.1) (fun _ _ h ↦ h) fun _ _ h ↦ h
        · exact fun st h ↦ h.1
        · exact Triple.pure fun st h ↦ ⟨h.1, h.2 connection rfl⟩

theorem handshake_spec (options : ConnectionOptions) (endpoint : Endpoint) :
    Triple (Offline before) (handshake server options endpoint)
      (fun result after ↦ Authenticated before after result.1 result.2) fun _ ↦ Offline before := by
  refine (connect_spec server endpoint options).bind fun connection ↦ ?_
  refine (authenticate_spec server connection).bind fun ids ↦ ?_
  exact Triple.pure fun st h ↦ h.1

theorem reconnectPass_spec (options : ConnectionOptions) (endpoints : List Endpoint)
    (lastErr : Option Error) :
    Triple (Offline before) (reconnectPass server options endpoints lastErr)
      (fun result after ↦ if result.1 then Online before after else Offline before after)
      fun _ ↦ Offline before := by
  induction endpoints generalizing lastErr with
  | nil => exact Triple.pure fun _ h ↦ h
  | cons endpoint rest ih =>
      refine Triple.bind (Triple.attempt (T := fun out after ↦ match out with
        | .ok result => Authenticated before after result.1 result.2
        | .error _ => Offline before after)
        (handshake_spec server options endpoint) (fun _ _ h ↦ h) (fun _ _ h ↦ h)) fun out ↦ ?_
      rcases out with (e | message) | ⟨connection, ids⟩
      · exact ih (some e)
      · exact fun st h ↦ h
      · refine Triple.bind (Q := fun _ ↦ Online before)
          ((adopt_spec connection ids).mono (fun _ h ↦ h) (fun _ _ h ↦ h) (fun _ _ h ↦ h.elim))
          fun _ ↦ ?_
        exact Triple.pure fun _ h ↦ h

theorem offline_self {session : Session} {world : World} (hnone : session.connection = none) :
    Offline (session, world) (session, world) :=
  ⟨[], ⟨rfl, le_rfl, by simp, by simp, rfl, rfl, by simp⟩, hnone⟩

theorem pauseUnless_spec (first : Bool) (interval : Nat) :
    Triple (Offline before) (pauseUnless first interval) (fun _ ↦ Offline before)
      fun _ ↦ Offline before := by
  cases first with
  | true => exact Triple.pure fun _ h ↦ h
  | false =>
      rintro st ⟨new, h, hnone⟩
      exact ⟨new, ⟨h.trace, h.calls, h.handshakes, h.fresh, h.config, h.database, h.requests⟩, hnone⟩

theorem reconnectPasses_spec (options : ConnectionOptions) (endpoints : List Endpoint)
    (interval : Nat) (first : Bool) (remaining : Nat) (lastErr : Option Error) :
    Triple (Offline before)
      (reconnectPasses server options endpoints interval first remaining lastErr)
      (fun _ ↦ Online before) fun _ ↦ Offline before := by
  induction remaining generalizing first lastErr with
  | zero => exact Triple.raise fun _ h ↦ h
  | succ remaining ih =>
      refine (pauseUnless_spec first interval).bind fun _ ↦ ?_
      refine (reconnectPass_spec server options endpoints lastErr).bind ?_
      rintro ⟨done, lastErr⟩
      cases done with
      | true => exact Triple.pure fun _ h ↦ h
      | false => exact ih false lastErr

/-- A reconnect drops the connection first; then it holds a new one or none. -/
theorem reconnect_spec (session : Session) (world : World) :
    Triple (· = (session, world)) (reconnect server)
      (fun _ ↦ Online ({ session with connection := none }, world))
      fun _ ↦ Offline ({ session with connection := none }, world) := by
  rintro _ rfl
  have hself : Offline ({ session with connection := none }, world)
      ({ session with connection := none }, world) := offline_self rfl
  simp only [reconnect, bind_apply, update_apply, self_apply, branch_apply]
  by_cases hempty : session.config.endpoints.length = 0
  · rw [if_pos hempty]
    exact hself
  · rw [if_neg hempty]
    exact reconnectPasses_spec server _ _ _ true _ none _ hself

theorem open_of_connected {session : Session} {world : World}
    (h : session.connection.isSome = true) :
    Session.open server (session, world) =
      (.error (.error (.client "session already open")), (session, world)) := by
  simp only [Session.open, bind_apply, self_apply, branch_apply, if_pos h, raise_apply]

theorem nextStart_spec (n : Nat) :
    Triple (Offline before) (nextStart n) (fun _ ↦ Offline before) fun _ ↦ Offline before := by
  rintro st ⟨new, h, hnone⟩
  exact ⟨new, ⟨h.trace, h.calls, h.handshakes, h.fresh, h.config, h.database, h.requests⟩, hnone⟩

theorem open_spec {session : Session} {world : World} (hnone : session.connection = none) :
    Triple (· = (session, world)) (Session.open server) (fun _ ↦ Online (session, world))
      fun _ ↦ Offline (session, world) := by
  rintro _ rfl
  have hself : Offline (session, world) (session, world) := offline_self hnone
  have hopen : ¬session.connection.isSome = true := by rw [hnone]; decide
  unfold Session.open
  rw [bind_apply, self_apply]
  simp only [branch_apply, if_neg hopen]
  by_cases hempty : session.config.endpoints.length = 0
  · rw [if_pos hempty]
    exact hself
  · rw [if_neg hempty]
    refine (nextStart_spec session.config.endpoints.length).bind (fun start ↦ ?_) _ hself
    refine (connectFirst_spec server _ _ _).bind fun connection ↦ ?_
    refine (authenticate_spec server connection).bind fun ids ↦ ?_
    exact (adopt_spec connection ids).mono (fun _ h ↦ h.1) (fun _ _ h ↦ h) (fun _ _ h ↦ h.elim)

/-! ## Retried calls -/

variable {α : Type}

/-- A `with_retry` closure: it builds its request from the session as it finds it and sends it over
the connection of the moment. -/
def Sends (op : CallSite → SessionM α) (mk : Session → Request)
    (out : (session : Session) → (mk session).Reply → α) : Prop :=
  ∀ (site : CallSite) (st : Session × World), op site st =
    match st.1.connection with
    | none => (.error (.error (.client "session is not open")), st)
    | some connection =>
        (match server.answer st.2.calls connection (mk st.1) with
          | .ok value => .ok (out st.1 value)
          | .error e => .error (.error (.thrift e)),
        afterCall server connection site (mk st.1) st)

/-- The state in which `reconnect` starts its handshakes. -/
def dropped (st : Session × World) : Session × World := ({ st.1 with connection := none }, st.2)

/-- Every way a retried call can go. -/
inductive Retried (mk : Session → Request) (out : (session : Session) → (mk session).Reply → α)
    (st : Session × World) : Result α → Session × World → Prop where
  | notOpen (hconn : st.1.connection = none) :
      Retried mk out st (.error (.error (.client "session is not open"))) st
  | first {connection : Connection} {value : (mk st.1).Reply}
      (hconn : st.1.connection = some connection)
      (hreply : server.answer st.2.calls connection (mk st.1) = .ok value) :
      Retried mk out st (.ok (out st.1 value))
        (afterCall server connection .firstAttempt (mk st.1) st)
  | unretried {connection : Connection} {e : String} (hconn : st.1.connection = some connection)
      (hreply : server.answer st.2.calls connection (mk st.1) = .error e)
      (hauto : st.1.config.enableAutoReconnect = false) :
      Retried mk out st (.error (.error (.thrift e)))
        (afterCall server connection .firstAttempt (mk st.1) st)
  | lost {connection : Connection} {e : String} {fault : Fault Error} {after : Session × World}
      (hconn : st.1.connection = some connection)
      (hreply : server.answer st.2.calls connection (mk st.1) = .error e)
      (hauto : st.1.config.enableAutoReconnect = true)
      (hafter : Offline (dropped (afterCall server connection .firstAttempt (mk st.1) st)) after) :
      Retried mk out st (.error fault) after
  | second {connection fresh : Connection} {e : String} {mid : Session × World}
      {value : (mk mid.1).Reply} (hconn : st.1.connection = some connection)
      (hreply : server.answer st.2.calls connection (mk st.1) = .error e)
      (hauto : st.1.config.enableAutoReconnect = true)
      (hmid : Online (dropped (afterCall server connection .firstAttempt (mk st.1) st)) mid)
      (hfresh : mid.1.connection = some fresh)
      (hreply' : server.answer mid.2.calls fresh (mk mid.1) = .ok value) :
      Retried mk out st (.ok (out mid.1 value))
        (afterCall server fresh .secondAttempt (mk mid.1) mid)
  | secondFailed {connection fresh : Connection} {e e' : String} {mid : Session × World}
      (hconn : st.1.connection = some connection)
      (hreply : server.answer st.2.calls connection (mk st.1) = .error e)
      (hauto : st.1.config.enableAutoReconnect = true)
      (hmid : Online (dropped (afterCall server connection .firstAttempt (mk st.1) st)) mid)
      (hfresh : mid.1.connection = some fresh)
      (hreply' : server.answer mid.2.calls fresh (mk mid.1) = .error e') :
      Retried mk out st (.error (.error (.thrift e')))
        (afterCall server fresh .secondAttempt (mk mid.1) mid)

/-- The two attempts, with the reconnect between them. -/
theorem withRetry_eq {op : CallSite → SessionM α} {mk : Session → Request}
    {out : (session : Session) → (mk session).Reply → α} (hop : Sends server op mk out)
    (st : Session × World) :
    withRetry server op st =
      match st.1.connection with
      | none => (.error (.error (.client "session is not open")), st)
      | some connection =>
          match server.answer st.2.calls connection (mk st.1) with
          | .ok value =>
              (.ok (out st.1 value), afterCall server connection .firstAttempt (mk st.1) st)
          | .error e =>
              if st.1.config.enableAutoReconnect then
                match reconnect server (afterCall server connection .firstAttempt (mk st.1) st) with
                | (.ok (), mid) => op .secondAttempt mid
                | (.error (.error _), after) => (.error (.error (.thrift e)), after)
                | (.error fault, after) => (.error fault, after)
              else
                (.error (.error (.thrift e)),
                  afterCall server connection .firstAttempt (mk st.1) st) := by
  have hfirst := hop .firstAttempt st
  simp only [withRetry, bind_apply, attempt_apply]
  cases hconn : st.1.connection with
  | none =>
      rw [hconn] at hfirst
      rw [hfirst]
      rfl
  | some connection =>
      rw [hconn] at hfirst
      cases hreply : server.answer st.2.calls connection (mk st.1) with
      | ok value =>
          simp only [hreply] at hfirst ⊢
          rw [hfirst]
          rfl
      | error e =>
          simp only [hreply] at hfirst ⊢
          rw [hfirst]
          -- a failed call leaves the connection where it is
          have hconn' : (afterCall server connection .firstAttempt (mk st.1) st).1.connection =
            some connection := hconn
          have hconfig : (afterCall server connection .firstAttempt (mk st.1) st).1.config =
            st.1.config := rfl
          simp only [bind_apply, self_apply, branch_apply, attempt_apply, hconn', hconfig,
            Option.isSome_some, Bool.and_true]
          cases st.1.config.enableAutoReconnect with
          | false => rfl
          | true =>
              simp only [if_true]
              rcases reconnect server (afterCall server connection .firstAttempt (mk st.1) st)
                with ⟨(e' | message) | _, after⟩ <;> rfl

theorem withRetry_spec {op : CallSite → SessionM α} {mk : Session → Request}
    {out : (session : Session) → (mk session).Reply → α} (hop : Sends server op mk out)
    (st : Session × World) :
    Retried server mk out st (withRetry server op st).1 (withRetry server op st).2 := by
  rw [withRetry_eq server hop]
  cases hconn : st.1.connection with
  | none => exact .notOpen hconn
  | some connection =>
      cases hreply : server.answer st.2.calls connection (mk st.1) with
      | ok value =>
          simp only [hreply]
          exact .first hconn hreply
      | error e =>
          simp only [hreply]
          have hspec := reconnect_spec server
            (afterCall server connection .firstAttempt (mk st.1) st).1
            (afterCall server connection .firstAttempt (mk st.1) st).2 _ rfl
          cases hauto : st.1.config.enableAutoReconnect with
          | false => exact .unretried hconn hreply hauto
          | true =>
              simp only [if_true]
              rcases hrun : reconnect server (afterCall server connection .firstAttempt (mk st.1) st)
                with ⟨(e' | message) | _, after⟩ <;> rw [hrun] at hspec
              · exact .lost hconn hreply hauto hspec
              · exact .lost hconn hreply hauto hspec
              · obtain ⟨fresh, hfresh, -⟩ := id hspec
                have hsecond := hop .secondAttempt after
                rw [hfresh] at hsecond
                simp only [hsecond]
                cases hreply' : server.answer after.2.calls fresh (mk after.1) with
                | ok value => exact .second hconn hreply hauto hspec hfresh hreply'
                | error e' => exact .secondFailed hconn hreply hauto hspec hfresh hreply'

/-! ## What the calls of a method were answered -/

section Adds

variable {β : Type} {f : Call → Option β} {server}

/-- `f` reads nothing off a handshake or a failed call. -/
structure ReadsAnswers (f : Call → Option β) : Prop where
  handshake : ∀ call : Call, call.request.isHandshake = true → f call = none
  error : ∀ connection site request e, f ⟨connection, site, request, .error e⟩ = none

/-- Calls were made of which `f` reads `found` off the newest it can; the database is as before. -/
def Adds (f : Call → Option β) (before after : Session) (found : Option β) : Prop :=
  ∃ new, after.trace = new ++ before.trace ∧ after.database = before.database ∧
    new.findSome? f = found

theorem Adds.trans {first second third : Session} {found : Option β}
    (h : Adds f first second none) (h' : Adds f second third found) : Adds f first third found := by
  obtain ⟨new, htrace, hdatabase, hnone⟩ := h
  obtain ⟨newer, htrace', hdatabase', hfound⟩ := h'
  refine ⟨newer ++ new, ?_, hdatabase'.trans hdatabase, ?_⟩
  · rw [htrace', htrace, List.append_assoc]
  · rw [List.findSome?_append, hnone, hfound, Option.or_none]

theorem Adds.handshaking (hf : ReadsAnswers f) {before after : Session × World} {new : List Call}
    (h : Handshaking before after new) : Adds f before.1 after.1 none :=
  ⟨new, h.trace, h.database,
    List.findSome?_eq_none_iff.mpr fun call hcall ↦ hf.handshake call (h.handshakes call hcall).2⟩

theorem Adds.answered {connection : Connection} {callSite : CallSite} {request : Request}
    {st : Session × World} {reply : Except String request.Reply} {found : Option β}
    (hreply : server.answer st.2.calls connection request = reply)
    (hfound : f ⟨connection, callSite, request, reply⟩ = found) :
    Adds f st.1 (afterCall server connection callSite request st).1 found := by
  subst hreply
  refine ⟨[_], rfl, rfl, ?_⟩
  rw [List.findSome?_singleton, hfound]

theorem Adds.failed (hf : ReadsAnswers f) {connection : Connection} {callSite : CallSite}
    {request : Request} {st : Session × World} {e : String}
    (hreply : server.answer st.2.calls connection request = .error e) :
    Adds f st.1 (dropped (afterCall server connection callSite request st)).1 none :=
  Adds.answered hreply (hf.error _ _ _ _)

/-- A retried call was answered what its last attempt was answered. -/
theorem Retried.adds {mk : Session → Request} {out : (session : Session) → (mk session).Reply → α}
    {st after : Session × World} {result : Result α} (hf : ReadsAnswers f)
    (h : Retried server mk out st result after) (found : Result α → Option β)
    (herror : ∀ fault, found (.error fault) = none)
    (hok : ∀ connection callSite session value,
      f ⟨connection, callSite, mk session, .ok value⟩ = found (.ok (out session value))) :
    Adds f st.1 after.1 (found result) := by
  cases h with
  | notOpen => exact ⟨[], rfl, rfl, (herror _).symm⟩
  | first _ hreply => exact Adds.answered hreply (hok _ _ _ _)
  | unretried _ hreply =>
      rw [herror]
      exact Adds.failed hf hreply
  | lost _ hreply _ hafter =>
      obtain ⟨new, hnew, -⟩ := hafter
      rw [herror]
      exact (Adds.failed hf hreply).trans (Adds.handshaking hf hnew)
  | second _ hreply _ hmid _ hreply' =>
      obtain ⟨_, _, new, hnew, -⟩ := hmid
      have hagain := (Adds.failed hf hreply).trans (Adds.handshaking hf hnew)
      exact hagain.trans (Adds.answered hreply' (hok _ _ _ _))
  | secondFailed _ hreply _ hmid _ hreply' =>
      obtain ⟨_, _, new, hnew, -⟩ := hmid
      rw [herror]
      exact ((Adds.failed hf hreply).trans (Adds.handshaking hf hnew)).trans (Adds.failed hf hreply')

end Adds

theorem sends_update (sql : String) :
    Sends server (sendUpdate server sql)
      (fun session ↦ .executeUpdate (session.statementReq sql)) fun _ value ↦ value := by
  intro site st
  simp only [sendUpdate, bind_apply, self_apply, connectionMut]
  cases st.1.connection with
  | none => rfl
  | some connection =>
      simp only [pure_apply, call]
      cases server.answer st.2.calls connection (.executeUpdate (st.1.statementReq sql)) <;> rfl

theorem sends_query (sql : String) :
    Sends server (sendQuery server sql)
      (fun session ↦ .executeQuery (session.statementReq sql)) fun _ value ↦ value := by
  intro site st
  simp only [sendQuery, bind_apply, self_apply, connectionMut]
  cases st.1.connection with
  | none => rfl
  | some connection =>
      simp only [pure_apply, call]
      cases server.answer st.2.calls connection (.executeQuery (st.1.statementReq sql)) <;> rfl

theorem sends_insert (req : InsertReq) :
    Sends server (sendInsert server req)
      (fun session ↦ .insert (req.withSessionId session.sessionId)) fun _ value ↦ value := by
  intro site st
  simp only [sendInsert, bind_apply, self_apply, connectionMut]
  cases st.1.connection with
  | none => rfl
  | some connection =>
      simp only [pure_apply, call]
      cases server.answer st.2.calls connection (.insert (req.withSessionId st.1.sessionId)) <;> rfl

/-! ## Methods -/

/-- The database a response to an update selects: a good status that names one. -/
def usedDatabase : Result TSExecuteStatementResp → Option String
  | .ok resp =>
      match checkStatus resp.status with
      | .ok () => resp.database
      | .error _ => none
  | .error _ => none

/-- What a method of the session can do to it.  `site` is where fetches and `closeOperation`s come
from. -/
inductive Step (site : CallSite) (st : Session × World) : Session × World → Prop where
  | idle : Step site st st
  | opened {after : Session × World} (hconn : st.1.connection = none) (h : Online st after) :
      Step site st after
  | unopened {after : Session × World} (hconn : st.1.connection = none) (h : Offline st after) :
      Step site st after
  | query {sql : String} {out : Result TSExecuteStatementResp} {after : Session × World}
      (h : Retried server (fun session ↦ .executeQuery (session.statementReq sql))
        (fun _ value ↦ value) st out after) : Step site st after
  | update {sql : String} {out : Result TSExecuteStatementResp} {after : Session × World}
      (h : Retried server (fun session ↦ .executeUpdate (session.statementReq sql))
        (fun _ value ↦ value) st out after) :
      Step site st ({ after.1 with database := (usedDatabase out).or after.1.database }, after.2)
  | insert {req : InsertReq} {out : Result TSStatus} {after : Session × World}
      (h : Retried server (fun session ↦ .insert (req.withSessionId session.sessionId))
        (fun _ value ↦ value) st out after) (cache : RedirectCache) :
      Step site st ({ after.1 with redirectCache := cache }, after.2)
  | fetch {connection : Connection} {queryId : Int64} {sql : String}
      (hconn : st.1.connection = some connection) :
      Step site st (afterCall server connection site (.fetchResults (st.1.fetchReq queryId sql)) st)
  | closeQuery {connection : Connection} {queryId : Int64}
      (hconn : st.1.connection = some connection) :
      Step site st (afterCall server connection site
        (.closeOperation ⟨st.1.sessionId, some queryId, some st.1.statementId, none⟩) st)
  | hint (cache : RedirectCache) : Step site st ({ st.1 with redirectCache := cache }, st.2)
  | closed {connection : Connection} (hconn : st.1.connection = some connection) :
      Step site st ((fun s ↦ ({ s.1 with sessionId := -1, statementId := -1 }, s.2))
        (afterCall server connection .single (.closeSession ⟨st.1.sessionId⟩) (dropped st)))
  | closedAgain (hconn : st.1.connection = none) :
      Step site st ({ st.1 with sessionId := -1, statementId := -1 }, st.2)

variable {server} {site : CallSite}

theorem open_step (st : Session × World) : Step server site st (Session.open server st).2 := by
  obtain ⟨session, world⟩ := st
  cases hconn : session.connection with
  | none =>
      have h := open_spec server hconn (session, world) rfl
      rcases hrun : Session.open server (session, world) with ⟨_ | _, after⟩ <;> rw [hrun] at h
      · exact .unopened hconn h
      · exact .opened hconn h
  | some connection =>
      rw [open_of_connected server (by rw [hconn]; rfl)]
      exact .idle

theorem executeNonQuery_step (sql : String) (st : Session × World) :
    Step server site st (executeNonQuery server sql st).2 := by
  have h := withRetry_spec server (sends_update server sql) st
  simp only [executeNonQuery, bind_apply]
  generalize withRetry server (sendUpdate server sql) st = result at h ⊢
  obtain ⟨fault | resp, after⟩ := result
  · exact .update h
  · have hstep : Step server site st _ := .update h
    simp only [usedDatabase] at hstep
    simp only [ofOutcome_apply]
    cases hstatus : checkStatus resp.status with
    | error fault =>
        rw [hstatus] at hstep
        exact hstep
    | ok _ =>
        rw [hstatus] at hstep
        cases hdb : resp.database with
        | none =>
            simp only [hdb] at hstep
            exact hstep
        | some db =>
            simp only [hdb] at hstep
            exact hstep

theorem executeQueryRaw_step (sql : String) (st : Session × World) :
    Step server site st (executeQueryRaw server sql st).2 := by
  have h := withRetry_spec server (sends_query server sql) st
  simp only [executeQueryRaw, bind_apply]
  generalize withRetry server (sendQuery server sql) st = result at h ⊢
  obtain ⟨fault | resp, after⟩ := result
  · exact .query h
  · simp only [ofOutcome_apply]
    cases checkStatus resp.status with
    | error fault => exact .query h
    | ok _ => cases resp.queryId <;> exact .query h

theorem checkInsertStatus_state (devices : List String) (status : TSStatus) (st : Session × World) :
    ∃ cache, (checkInsertStatus devices status st).2 =
      ({ st.1 with redirectCache := cache }, st.2) := by
  simp only [checkInsertStatus, bind_apply, self_apply]
  cases st.1.config.enableRedirection with
  | false => exact ⟨st.1.redirectCache, rfl⟩
  | true => exact ⟨recordRedirects st.1.redirectCache devices status st.2.clock, rfl⟩

theorem insert_step (devices : List String) (req : InsertReq) (st : Session × World) :
    Step server site st (Session.insert server devices req st).2 := by
  have h := withRetry_spec server (sends_insert server req) st
  simp only [Session.insert, bind_apply]
  generalize withRetry server (sendInsert server req) st = result at h ⊢
  obtain ⟨fault | status, after⟩ := result
  · exact .insert h after.1.redirectCache
  · obtain ⟨cache, hcache⟩ := checkInsertStatus_state devices status after
    simp only [hcache]
    exact .insert h cache

theorem fetchResults_step (queryId : Int64) (sql : String)
    (st : Session × World) : Step server site st (fetchResults server site queryId sql st).2 := by
  rw [fetchResults_eq]
  cases hconn : st.1.connection with
  | none => exact .idle
  | some connection => exact .fetch hconn

theorem closeQuery_step (queryId : Int64) (st : Session × World) :
    Step server site st (Session.closeQuery server site queryId st).2 := by
  rw [closeQuery_eq]
  cases hconn : st.1.connection with
  | none => exact .idle
  | some connection => exact .closeQuery hconn

theorem close_step (st : Session × World) : Step server site st (close server st).2 := by
  simp only [close, bind_apply, self_apply]
  cases hconn : st.1.connection with
  | none => exact .closedAgain hconn
  | some connection =>
      simp only [update_apply, bind_apply, attempt_apply, call_state]
      exact .closed hconn

end Session

end IotdbClient
