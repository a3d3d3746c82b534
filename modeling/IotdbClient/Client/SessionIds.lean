import IotdbClient.Client.Owner
import IotdbClient.Library.Machine

/-!
# Ids belong to the connection in use

A session's trace is read from its oldest call on: every call that is not part of a handshake
carries the ids that the handshake of its own connection returned before it, and every call of a
result set uses the connection of the query that was executed last.
-/

namespace IotdbClient

open Library Program

/-- The request names the session id, and the statement id where its type has one. -/
def Request.Carries (ids : Int64 × Int64) : Request → Prop
  | openSession _ | requestStatementId _ => False
  | executeUpdate req | executeQuery req => req.sessionId = ids.1 ∧ req.statementId = ids.2
  | fetchResults req => req.sessionId = ids.1 ∧ req.statementId = some ids.2
  | closeOperation req => req.sessionId = ids.1 ∧ req.statementId = some ids.2
  | closeSession req => req.sessionId = ids.1
  | insert req => req.sessionId = ids.1

/-- The query a request goes on with. -/
def Request.queryId : Request → Option Int64
  | fetchResults req => some req.queryId
  | closeOperation req => req.queryId
  | _ => none

def Call.isQuery : Call → Bool
  | ⟨_, _, .executeQuery _, _⟩ => true
  | _ => false

/-- The query that the call opened. -/
def Call.openedQuery : Call → Option Int64
  | ⟨_, _, .executeQuery _, .ok resp⟩ => TSExecuteStatementResp.queryId resp
  | _ => none

/-! ## Reading a trace -/

/-- `P` holds of each call and the calls before it. -/
def EachCall (P : Call → List Call → Prop) : List Call → Prop
  | [] => True
  | call :: older => P call older ∧ EachCall P older

theorem EachCall.split {P : Call → List Call → Prop} {newer older : List Call} {call : Call}
    (h : EachCall P (newer ++ call :: older)) : P call older := by
  induction newer with
  | nil => exact h.1
  | cons _ _ ih => exact ih h.2

theorem EachCall.append {P : Call → List Call → Prop} {new old : List Call}
    (hnew : ∀ call ∈ new, ∀ older, P call older) (hold : EachCall P old) :
    EachCall P (new ++ old) := by
  induction new with
  | nil => exact hold
  | cons call rest ih =>
      have hrest := ih fun call hcall ↦ hnew call (List.mem_cons_of_mem _ hcall)
      exact ⟨hnew call List.mem_cons_self _, hrest⟩

/-- The call carries the ids issued on its connection. -/
def CarriesIds (call : Call) (older : List Call) : Prop :=
  call.request.isHandshake = false →
    ∃ ids, issuedIds older call.connection = some ids ∧ call.request.Carries ids

/-- A call of a result set travels over the connection of the query it belongs to. -/
def Pinned (call : Call) (older : List Call) : Prop :=
  call.site = .dataSet → ∃ query queryId, older.find? Call.isQuery = some query ∧
    query.connection = call.connection ∧ query.openedQuery = some queryId ∧
    call.request.queryId = some queryId

theorem issuedIds_cons {call : Call} {older : List Call} (connection : Connection)
    (h : call.request.isHandshake = false) :
    issuedIds (call :: older) connection = issuedIds older connection := by
  have hsession : call.sessionIdOn connection = none := by
    obtain ⟨c, site, request, reply⟩ := call
    cases request <;> first | rfl | cases h
  have hstatement : call.statementIdOn connection = none := by
    obtain ⟨c, site, request, reply⟩ := call
    cases request <;> first | rfl | cases h
  simp only [issuedIds, List.findSome?_cons, hsession, hstatement]

theorem Request.Carries.not_handshake {request : Request} {ids : Int64 × Int64}
    (h : request.Carries ids) : request.isHandshake = false := by
  cases request <;> first | rfl | cases h

/-! ## What the methods are made of -/

namespace Session

variable (server : Server)

/-- A predicate that every part of a method keeps.  Calls are made over the held connection, with
the ids of the moment. -/
structure Stable (site : CallSite) (I : Session × World → Prop) : Prop where
  call : ∀ {st : Session × World} {connection : Connection} {request : Request} (callSite : CallSite),
    (callSite = .dataSet → site = .dataSet) → st.1.connection = some connection →
    request.Carries (st.1.sessionId, st.1.statementId) → I st →
    I (afterCall server connection callSite request st)
  drop : ∀ {st : Session × World}, I st → I (dropped st)
  online : ∀ {st after : Session × World}, st.1.connection = none → Online st after → I st → I after
  offline : ∀ {st after : Session × World}, Offline st after → I st → I after
  note : ∀ {st : Session × World} (database : Option String) (cache : RedirectCache), I st →
    I ({ st.1 with database := database, redirectCache := cache }, st.2)
  reset : ∀ {st : Session × World}, st.1.connection = none → I st →
    I ({ st.1 with sessionId := -1, statementId := -1 }, st.2)

variable {server} {site : CallSite} {I : Session × World → Prop}

theorem Stable.retried {α : Type} {mk : Session → Request}
    {out : (session : Session) → (mk session).Reply → α} {st after : Session × World}
    {result : Result α} (hI : Stable server site I)
    (h : Retried server mk out st result after)
    (hmk : ∀ session, (mk session).Carries (session.sessionId, session.statementId))
    (hst : I st) : I after := by
  have hfirst : ∀ {st connection}, st.1.connection = some connection → I st →
      I (afterCall server connection .firstAttempt (mk st.1) st) := fun hconn ↦
    hI.call .firstAttempt nofun hconn (hmk _)
  have hsecond : ∀ {st connection}, st.1.connection = some connection → I st →
      I (afterCall server connection .secondAttempt (mk st.1) st) := fun hconn ↦
    hI.call .secondAttempt nofun hconn (hmk _)
  cases h with
  | notOpen => exact hst
  | first hconn | unretried hconn => exact hfirst hconn hst
  | lost hconn _ _ hafter => exact hI.offline hafter (hI.drop (hfirst hconn hst))
  | second hconn _ _ hmid hfresh | secondFailed hconn _ _ hmid hfresh =>
      exact hsecond hfresh (hI.online rfl hmid (hI.drop (hfirst hconn hst)))

theorem Stable.step (hI : Stable server site I) {st after : Session × World}
    (h : Step server site st after) (hst : I st) : I after := by
  cases h with
  | idle => exact hst
  | opened hconn h => exact hI.online hconn h hst
  | unopened _ h => exact hI.offline h hst
  | query h => exact hI.retried h (fun _ ↦ ⟨rfl, rfl⟩) hst
  | update h => exact hI.note _ _ (hI.retried h (fun _ ↦ ⟨rfl, rfl⟩) hst)
  | insert h cache =>
      refine hI.note _ cache (hI.retried h (fun session ↦ ?_) hst)
      cases ‹InsertReq› <;> rfl
  | fetch hconn => exact hI.call site id hconn ⟨rfl, rfl⟩ hst
  | closeQuery hconn => exact hI.call site id hconn ⟨rfl, rfl⟩ hst
  | hint cache => exact hI.note _ cache hst
  | closed hconn =>
      -- The connection is taken out before the call: the two orders give the same state.
      have hcalled := hI.call .single nofun hconn
        (show (Request.closeSession ⟨st.1.sessionId⟩).Carries _ from rfl) hst
      exact hI.reset rfl (hI.drop hcalled)
  | closedAgain hconn => exact hI.reset hconn hst

/-! ## The invariants -/

/-- The ids are those issued on the held connection, and every call so far carried such ids. -/
structure OwnIds (st : Session × World) : Prop where
  held : ∀ connection, st.1.connection = some connection →
    issuedIds st.1.trace connection = some (st.1.sessionId, st.1.statementId)
  carried : EachCall CarriesIds st.1.trace

theorem ownIds_stable (site : CallSite) : Stable server site OwnIds where
  call := by
    intro st connection request callSite _ hconn hcarries hst
    have hkind : request.isHandshake = false := hcarries.not_handshake
    refine ⟨fun c hc ↦ ?_, fun _ ↦ ⟨_, hst.held connection hconn, hcarries⟩, hst.carried⟩
    exact (issuedIds_cons c hkind).trans (hst.held c hc)
  drop := fun hst ↦ ⟨nofun, hst.carried⟩
  online := by
    rintro st after - ⟨connection, hconn, new, h, -, hids⟩ hst
    refine ⟨fun c hc ↦ ?_, ?_⟩
    · rw [hconn] at hc
      cases hc
      rw [h.trace]
      exact issuedIds_append hids st.1.trace
    · rw [h.trace]
      refine EachCall.append (fun call hcall older hkind ↦ ?_) hst.carried
      rw [(h.handshakes call hcall).2] at hkind
      cases hkind
  offline := by
    rintro st after ⟨new, h, hnone⟩ hst
    refine ⟨fun c hc ↦ ?_, ?_⟩
    · rw [hnone] at hc
      cases hc
    · rw [h.trace]
      refine EachCall.append (fun call hcall older hkind ↦ ?_) hst.carried
      rw [(h.handshakes call hcall).2] at hkind
      cases hkind
  note := fun _ _ hst ↦ ⟨hst.held, hst.carried⟩
  reset := by
    intro st hnone hst
    refine ⟨fun c hc ↦ ?_, hst.carried⟩
    rw [show st.1.connection = some c from hc] at hnone
    cases hnone

/-- Outside of result sets no call is made on behalf of one. -/
theorem pinned_stable : Stable server .single fun st ↦ EachCall Pinned st.1.trace where
  call := fun callSite hsite _ _ hst ↦ ⟨fun hdata ↦ (nomatch hsite hdata), hst⟩
  drop := fun hst ↦ hst
  online := by
    rintro st after - ⟨_, _, new, h, -, -⟩ hst
    rw [h.trace]
    refine EachCall.append (fun call hcall older hsite ↦ ?_) hst
    rw [(h.handshakes call hcall).1] at hsite
    cases hsite
  offline := by
    rintro st after ⟨new, h, -⟩ hst
    rw [h.trace]
    refine EachCall.append (fun call hcall older hsite ↦ ?_) hst
    rw [(h.handshakes call hcall).1] at hsite
    cases hsite
  note := fun _ _ hst ↦ hst
  reset := fun _ hst ↦ hst

/-- The session holds the connection on which the query executed last was opened. -/
def Holds (queryId : Int64) (session : Session) : Prop :=
  ∃ query, session.trace.find? Call.isQuery = some query ∧
    session.connection = some query.connection ∧ query.openedQuery = some queryId

/-- While the result set of `queryId` borrows the session. -/
def Borrowed (queryId : Int64) (st : Session × World) : Prop :=
  EachCall Pinned st.1.trace ∧ Holds queryId st.1

theorem borrowed_after_call {queryId : Int64} {request : Request} {connection : Connection}
    {st : Session × World} (hrequest : request.queryId = some queryId)
    (hconn : st.1.connection = some connection)
    (hst : Borrowed queryId st) :
    Borrowed queryId (afterCall server connection .dataSet request st) := by
  obtain ⟨htrace, query, hquery, hheld, hopened⟩ := hst
  rw [hconn] at hheld
  cases hheld
  have hkind : ∀ reply, Call.isQuery ⟨query.connection, .dataSet, request, reply⟩ = false := by
    intro reply
    cases request <;> first | rfl | cases hrequest
  refine ⟨⟨fun _ ↦ ⟨query, queryId, hquery, rfl, hopened, hrequest⟩, htrace⟩, query, ?_, hconn, hopened⟩
  exact (List.find?_cons_of_neg (by simp [hkind])).trans hquery

theorem borrowed_fetchResults (queryId : Int64) (sql : String) (st : Session × World)
    (hst : Borrowed queryId st) :
    Borrowed queryId (fetchResults server .dataSet queryId sql st).2 := by
  rw [fetchResults_eq]
  cases hconn : st.1.connection with
  | none => exact hst
  | some connection => exact borrowed_after_call rfl hconn hst

theorem borrowed_closeQuery (queryId : Int64) (st : Session × World)
    (hst : Borrowed queryId st) :
    Borrowed queryId (Session.closeQuery server .dataSet queryId st).2 := by
  rw [closeQuery_eq]
  cases hconn : st.1.connection with
  | none => exact hst
  | some connection => exact borrowed_after_call rfl hconn hst

/-- The last call of a successful `execute_query_raw` is the one that opened the query. -/
theorem holds_of_executeQueryRaw {sql : String} {st after : Session × World} {handle : QueryHandle}
    (h : executeQueryRaw server sql st = (.ok handle, after)) : Holds handle.queryId after.1 := by
  have hretried := withRetry_spec server (sends_query server sql) st
  simp only [executeQueryRaw, bind_apply] at h
  generalize withRetry server (sendQuery server sql) st = result at h hretried
  obtain ⟨fault | resp, last⟩ := result
  · cases h
  · simp only [ofOutcome_apply] at h
    cases hstatus : checkStatus resp.status with
    | error fault =>
        rw [hstatus] at h
        cases h
    | ok _ =>
        simp only [hstatus] at h
        cases hid : resp.queryId with
        | none =>
            rw [hid] at h
            cases h
        | some queryId =>
            rw [hid] at h
            cases h
            cases hretried with
            | first hconn hreply =>
                refine ⟨_, rfl, hconn, ?_⟩
                rw [hreply]
                exact hid
            | second _ _ _ _ hfresh hreply =>
                refine ⟨_, rfl, hfresh, ?_⟩
                rw [hreply]
                exact hid

end Session

/-! ## Runs of an owner -/

inductive OwnerEvent where
  | own (action : OwnerAction)
  /-- Other sessions of the process make calls, and time passes. -/
  | elsewhere (world : World)

namespace Owner

variable (server : Server)

/-- A session from its creation on. -/
def machine (config : SessionConfig) : Machine (Owner × World) OwnerEvent where
  init st := st.1 = ⟨Session.new config, none⟩
  step st
    | .own action => act server action st
    | .elsewhere world => if st.2.calls ≤ world.calls then some (st.1, world) else none

variable {server}

/-- The result set that borrows the session belongs to the query executed last. -/
structure Pinned (owner : Owner) : Prop where
  trace : EachCall IotdbClient.Pinned owner.session.trace
  dataSet : ∀ ds, owner.dataSet = some ds → Session.Holds ds.queryId owner.session

variable (server) in
theorem close_borrowed (ds : SessionDataSet) {s : Session × World}
    (hs : Session.Borrowed ds.queryId s) :
    Session.Borrowed ds.queryId (SessionDataSet.close server (ds, s)).2.2 ∧
      (SessionDataSet.close server (ds, s)).2.1.queryId = ds.queryId :=
  close_keeps ds (Session.borrowed_closeQuery ds.queryId) hs

theorem act_pinned {action : OwnerAction} {owner owner' : Owner} {world world' : World}
    (h : act server action (owner, world) = some (owner', world')) (howner : owner.Pinned) :
    owner'.Pinned := by
  cases act_spec h with
  | called method =>
      exact ⟨Session.pinned_stable.step (SessionCall.run_step method _) howner.trace,
        fun _ hds ↦ by cases hds⟩
  | queried hrun =>
      refine ⟨Session.pinned_stable.step (step_of_query hrun) howner.trace, fun ds hds ↦ ?_⟩
      cases hds
      exact Session.holds_of_executeQueryRaw hrun
  | queryFailed hrun =>
      exact ⟨Session.pinned_stable.step (step_of_query hrun) howner.trace,
        fun _ hds ↦ by cases hds⟩
  | @turned ds session _ _ _ hturn =>
      have hnext := turn_keeps hturn (Session.borrowed_fetchResults ds.queryId)
        (Session.borrowed_closeQuery ds.queryId) ⟨howner.trace, howner.dataSet ds rfl⟩
      refine ⟨hnext.1.1, fun ds' hds ↦ ?_⟩
      cases hds
      rw [hnext.2]
      exact hnext.1.2
  | @closed ds session _ _ heq =>
      have hborrowed : Session.Borrowed ds.queryId (session, world) :=
        ⟨howner.trace, howner.dataSet ds rfl⟩
      have hnext := close_borrowed server ds hborrowed
      rw [heq] at hnext
      refine ⟨hnext.1.1, fun ds' hds ↦ ?_⟩
      cases hds
      rw [hnext.2]
      exact hnext.1.2
  | @dropped ds session _ _ heq =>
      have hborrowed : Session.Borrowed ds.queryId (session, world) :=
        ⟨howner.trace, howner.dataSet ds rfl⟩
      have hnext := close_borrowed server ds hborrowed
      rw [heq] at hnext
      exact ⟨hnext.1.1, fun _ hds ↦ by cases hds⟩

theorem machine_ownIds {config : SessionConfig} {st : Owner × World}
    (h : (machine server config).Reachable st) : Session.OwnIds (st.1.session, st.2) := by
  refine h.invariant (I := fun st ↦ Session.OwnIds (st.1.session, st.2)) ?_ ?_
  · rintro ⟨owner, world⟩ rfl
    exact ⟨nofun, trivial⟩
  · rintro ⟨owner, world⟩ (action | later) ⟨owner', world'⟩ hst - hstep
    · exact act_keeps (fun site _ _ _ ↦ (Session.ownIds_stable site).step) hstep hst
    · simp only [machine] at hstep
      split at hstep
      · cases hstep
        exact ⟨hst.held, hst.carried⟩
      · cases hstep

theorem machine_pinned {config : SessionConfig} {st : Owner × World}
    (h : (machine server config).Reachable st) : st.1.Pinned := by
  refine h.invariant (I := fun st ↦ st.1.Pinned) ?_ ?_
  · rintro ⟨owner, world⟩ rfl
    exact ⟨trivial, nofun⟩
  · rintro ⟨owner, world⟩ (action | later) ⟨owner', world'⟩ hst - hstep
    · exact act_pinned hstep hst
    · simp only [machine] at hstep
      split at hstep
      · cases hstep
        exact hst
      · cases hstep

/-- In every state a session can reach, its ids are those the handshake of its connection returned;
every call carried the ids issued on the connection it was made on; and every call of a result set
was made on the connection that executed its query. -/
theorem ids_belong_to_connection {config : SessionConfig} {st : Owner × World}
    (h : (machine server config).Reachable st) :
    (∀ connection, st.1.session.connection = some connection →
      issuedIds st.1.session.trace connection =
        some (st.1.session.sessionId, st.1.session.statementId)) ∧
    ∀ newer call older, st.1.session.trace = newer ++ call :: older →
      (call.request.isHandshake = false →
        ∃ ids, issuedIds older call.connection = some ids ∧ call.request.Carries ids) ∧
      (call.site = .dataSet → ∃ query queryId, older.find? Call.isQuery = some query ∧
        query.connection = call.connection ∧ query.openedQuery = some queryId ∧
        call.request.queryId = some queryId) := by
  have hids := machine_ownIds h
  have hpinned := (machine_pinned h).trace
  refine ⟨hids.held, fun newer call older htrace ↦ ⟨?_, ?_⟩⟩
  · have hcarried := hids.carried
    rw [htrace] at hcarried
    exact hcarried.split
  · rw [htrace] at hpinned
    exact hpinned.split

/-- Every connection is accepted and every call answered, but for the first query. -/
def flakyServer : Server where
  connect _ _ _ := none
  answer
    | n, _, .openSession _ => .ok ⟨.mk 200 none none none, some (.ofNat n)⟩
    | n, _, .requestStatementId _ => .ok (.ofNat n)
    | 3, _, .executeQuery _ => .error "broken pipe"
    | n, _, .executeQuery _ =>
        .ok ⟨.mk 200 none none none, some (.ofNat n), none, none, none, none, none, none, none⟩
    | _, _, .closeOperation _ => .ok (TSStatus.mk 200 none none none)
    | _, _, _ => .error "not scripted"

def reconnectingRun : List OwnerEvent :=
  [.own (.call .open), .own (.executeQuery "SHOW DATABASES"), .own .dropDataSet]

/-- The query is sent again over a new connection, and closed there. -/
theorem ids_belong_to_connection_reconnected :
    ∃ st, (machine flakyServer .default).run Machine.anyStep reconnectingRun
        (⟨Session.new .default, none⟩, ⟨0, 0, 0⟩) = some st ∧
      st.1.session.trace.map (fun call ↦ (call.connection.id, call.site)) =
        [(4, .dataSet), (4, .secondAttempt), (4, .handshake), (4, .handshake),
          (0, .firstAttempt), (0, .handshake), (0, .handshake)] ∧
      issuedIds st.1.session.trace ⟨4, ⟨"localhost", 6667⟩⟩ =
        some (st.1.session.sessionId, st.1.session.statementId) := by
  have hstart : (machine flakyServer .default).ReachableBy (fun s a ↦ Machine.anyStep s a = true)
      (⟨Session.new .default, none⟩, ⟨0, 0, 0⟩) := .init rfl
  have hreached := hstart.run
    (show (machine flakyServer .default).run Machine.anyStep reconnectingRun _ = some _ from rfl)
  exact ⟨_, rfl, rfl, (ids_belong_to_connection hreached.reachable).1 _ rfl⟩

end Owner

end IotdbClient
