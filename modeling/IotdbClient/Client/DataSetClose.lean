import IotdbClient.Client.DataSet
import IotdbClient.Client.SessionIds

/-!
# One close per result set

A result set is closed by its last row, by its user or by its drop.  Whatever happens to it, the
calls it makes on the session are fetches, and then one `closeOperation` and nothing more.
-/

namespace IotdbClient

open Library Program

/-- A `fetch_results` of the query. -/
def Call.IsFetch (queryId : Int64) (call : Call) : Prop :=
  ∃ req, call.request = .fetchResults req ∧ req.queryId = queryId

/-- A `close_query` of the query. -/
def Call.IsClose (queryId : Int64) (call : Call) : Prop :=
  ∃ req, call.request = .closeOperation req ∧ req.queryId = some queryId

namespace SessionDataSet

/-- The calls since `start`: fetches only while the result set is open, one close after them once it
is closed. -/
structure Paging (queryId : Int64) (start : Session) (st : DataSetState) : Prop where
  ofQuery : st.1.queryId = queryId
  connected : ∃ connection, st.2.1.connection = some connection
  calls : ∃ fetches, (∀ call ∈ fetches, Call.IsFetch queryId call) ∧
    if st.1.closed then
      ∃ close, Call.IsClose queryId close ∧ st.2.1.trace = close :: (fetches ++ start.trace)
    else st.2.1.trace = fetches ++ start.trace

variable {server : Server} {queryId : Int64} {start : Session}

/-- Only the data set changes, and neither its query nor its flag. -/
theorem Paging.change {ds ds' : SessionDataSet} {s : Session × World}
    (h : Paging queryId start (ds, s)) (hid : ds'.queryId = ds.queryId)
    (hclosed : ds'.closed = ds.closed) : Paging queryId start (ds', s) := by
  refine ⟨hid.trans h.ofQuery, h.connected, ?_⟩
  have hcalls := h.calls
  rw [show (ds, s).1.closed = (ds', s).1.closed from hclosed.symm] at hcalls
  exact hcalls

variable (server) in
theorem Paging.fetch {ds : SessionDataSet} {s : Session × World}
    (h : Paging queryId start (ds, s)) (hopen : ds.closed = false) (sql : String) :
    Paging queryId start (ds, (Session.fetchResults server .dataSet ds.queryId sql s).2) := by
  obtain ⟨connection, hconn⟩ := h.connected
  obtain ⟨fetches, hfetches, htrace⟩ := h.calls
  have hnext : ∀ reply, Call.IsFetch queryId
      ⟨connection, .dataSet, .fetchResults (s.1.fetchReq ds.queryId sql), reply⟩ := fun _ ↦
    ⟨_, rfl, h.ofQuery⟩
  rw [Session.fetchResults_eq, show s.1.connection = some connection from hconn]
  refine ⟨h.ofQuery, ⟨connection, hconn⟩, _ :: fetches,
    List.forall_mem_cons.mpr ⟨hnext (server.answer s.2.calls connection _), hfetches⟩, ?_⟩
  simp only [hopen, Bool.false_eq_true, if_false] at htrace ⊢
  change _ :: s.1.trace = _
  rw [htrace]
  rfl

theorem Paging.shut {ds : SessionDataSet} {s : Session × World}
    (h : Paging queryId start (ds, s)) (hopen : ds.closed = false) :
    Paging queryId start (ds.shut, (Session.closeQuery server .dataSet ds.queryId s).2) := by
  obtain ⟨connection, hconn⟩ := h.connected
  obtain ⟨fetches, hfetches, htrace⟩ := h.calls
  have hlast : ∀ reply, Call.IsClose queryId
      ⟨connection, .dataSet, .closeOperation ⟨s.1.sessionId, some ds.queryId, some s.1.statementId, none⟩,
        reply⟩ := fun _ ↦ ⟨_, rfl, congrArg some h.ofQuery⟩
  rw [Session.closeQuery_eq, show s.1.connection = some connection from hconn]
  refine ⟨h.ofQuery, ⟨connection, hconn⟩, fetches, hfetches, ?_⟩
  simp only [hopen, Bool.false_eq_true, if_false] at htrace
  refine ⟨_, hlast (server.answer s.2.calls connection _), ?_⟩
  change _ :: s.1.trace = _
  rw [htrace]

theorem Paging.turn {st : DataSetState} (h : Paging queryId start st) (hopen : st.1.closed = false) :
    Paging queryId start (SessionDataSet.turn server st).2 := by
  obtain ⟨ds, s⟩ := st
  have hturn := turn_spec server s hopen
  generalize (SessionDataSet.turn server (ds, s)).1 = out at hturn
  generalize (SessionDataSet.turn server (ds, s)).2 = next at hturn ⊢
  cases hturn with
  | row | decoded | corrupt => exact h.change rfl rfl
  | rowFailed => exact h
  | fetchFailed _ _ _ hfetch | refilled _ _ _ hfetch =>
      have hfetched := h.fetch server hopen ds.statement
      rw [hfetch] at hfetched
      exact hfetched.change rfl rfl
  | lastPageEmpty _ _ _ hfetch =>
      have hfetched := h.fetch server hopen ds.statement
      rw [hfetch] at hfetched
      exact (hfetched.shut hopen).change rfl rfl
  | exhausted => exact h.shut hopen

variable (server) in
theorem Paging.close {st : DataSetState} (h : Paging queryId start st) :
    Paging queryId start (SessionDataSet.close server st).2 ∧
      (SessionDataSet.close server st).2.1.closed = true := by
  obtain ⟨ds, s⟩ := st
  rw [close_eq]
  cases hclosed : ds.closed with
  | true => exact ⟨h, hclosed⟩
  | false => exact ⟨h.shut hclosed, rfl⟩

theorem reaches_paging {first st : DataSetState} (h : Reaches server first st)
    (hfirst : Paging queryId start first) : Paging queryId start st := by
  induction h with
  | refl => exact hfirst
  | turn _ hopen ih => exact ih.turn hopen
  | close _ ih => exact (ih.close server).1

/-- A `next_row` that returns is made of turns. -/
theorem reaches_nextRow {first st next : DataSetState} {fuel : Nat} {result : Result (Option Row)}
    (h : Reaches server first st) (hrun : nextRow server fuel st = some (result, next)) :
    Reaches server first next := by
  unfold nextRow at hrun
  cases hclosed : st.1.closed with
  | true =>
      rw [if_pos hclosed] at hrun
      cases hrun
      exact h
  | false =>
      rw [if_neg (by rw [hclosed]; decide)] at hrun
      induction fuel generalizing st with
      | zero => cases hrun
      | succ fuel ih =>
          have hnext := h.turn hclosed
          unfold nextRowLoop at hrun
          rcases hturn : SessionDataSet.turn server st with ⟨fault | ⟨_ | row⟩, mid⟩ <;>
            rw [hturn] at hrun hnext
          · cases hrun
            exact hnext
          · exact ih hnext hrun (turn_continue server hclosed hturn)
          · cases hrun
            exact hnext

theorem nextRow_closed {st : DataSetState} (h : st.1.closed = true) (fuel : Nat) :
    nextRow server fuel st = some (.ok none, st) := if_pos h

theorem close_closed {st : DataSetState} (h : st.1.closed = true) :
    (SessionDataSet.close server st).2 = st := by
  obtain ⟨ds, s⟩ := st
  rw [close_eq, if_pos h]

end SessionDataSet

open SessionDataSet

/-- A result set that `execute_query` returns holds an open session.  Over its whole life it fetches,
then closes its query once, at the latest when it is dropped; after that it is silent. -/
theorem result_set_closed_once :
    (∀ (server : Server) (sql : String) (before after : Session × World) (handle : QueryHandle),
      Session.executeQueryRaw server sql before = (.ok handle, after) → after.1.isOpen = true) ∧
    ∀ (server : Server) (handle : QueryHandle) (s : Session × World) (st : DataSetState),
      s.1.isOpen = true → Reaches server (SessionDataSet.new handle, s) st →
      (∃ fetches, (∀ call ∈ fetches, Call.IsFetch handle.queryId call) ∧
        (st.1.closed = false → st.2.1.trace = fetches ++ s.1.trace) ∧
        (st.1.closed = true → ∃ close, Call.IsClose handle.queryId close ∧
          st.2.1.trace = close :: (fetches ++ s.1.trace))) ∧
      (∃ fetches close, (∀ call ∈ fetches, Call.IsFetch handle.queryId call) ∧
        Call.IsClose handle.queryId close ∧
        (SessionDataSet.close server st).2.2.1.trace = close :: (fetches ++ s.1.trace)) ∧
      (∀ fuel result next, nextRow server fuel st = some (result, next) →
        Reaches server (SessionDataSet.new handle, s) next) ∧
      (st.1.closed = true → (∀ fuel, nextRow server fuel st = some (.ok none, st)) ∧
        (SessionDataSet.close server st).2 = st) := by
  constructor
  · intro server sql before after handle hquery
    obtain ⟨query, -, hconn, -⟩ := Session.holds_of_executeQueryRaw hquery
    rw [Session.isOpen, hconn, Option.isSome_some]
  · intro server handle s st hopen hst
    have hfirst : Paging handle.queryId s.1 (SessionDataSet.new handle, s) :=
      ⟨rfl, Option.isSome_iff_exists.mp hopen, [], by simp, rfl⟩
    have hpaging := reaches_paging hst hfirst
    obtain ⟨hdropped, hclosed⟩ := hpaging.close server
    refine ⟨?_, ?_, fun _ _ _ ↦ reaches_nextRow hst, fun h ↦ ⟨nextRow_closed h, close_closed h⟩⟩
    · obtain ⟨fetches, hfetches, htrace⟩ := hpaging.calls
      refine ⟨fetches, hfetches, fun h ↦ ?_, fun h ↦ ?_⟩
      · simpa [h] using htrace
      · simpa [h] using htrace
    · obtain ⟨fetches, hfetches, htrace⟩ := hdropped.calls
      rw [if_pos hclosed] at htrace
      obtain ⟨close, hclose, heq⟩ := htrace
      exact ⟨fetches, close, hfetches, hclose, heq⟩

/-- A query with a page to fetch, on a session that is open. -/
def pagedQuery : SessionDataSet × Session × World :=
  (.new ⟨7, "SELECT s1 FROM root.d1", ["s1"], ["INT64"], false, [], true, none⟩,
    { Session.new .default with connection := some ⟨0, ⟨"localhost", 6667⟩⟩ }, ⟨3, 0, 0⟩)

/-- The fetch fails, the user closes the result set, and dropping it adds nothing. -/
theorem result_set_closed_once_failedFetch :
    ∃ st, Reaches Owner.flakyServer pagedQuery st ∧ st.1.closed = true ∧
      st.2.1.trace.length = 2 ∧ nextRow Owner.flakyServer 1 st = some (.ok none, st) ∧
      ∃ fetches close, (∀ call ∈ fetches, Call.IsFetch 7 call) ∧ Call.IsClose 7 close ∧
        (SessionDataSet.close Owner.flakyServer st).2.2.1.trace = close :: (fetches ++ []) := by
  have hreached : Reaches Owner.flakyServer pagedQuery
      (SessionDataSet.close Owner.flakyServer
        (SessionDataSet.turn Owner.flakyServer pagedQuery).2).2 := (Reaches.refl.turn rfl).close
  have hlife := result_set_closed_once.2 Owner.flakyServer
    ⟨7, "SELECT s1 FROM root.d1", ["s1"], ["INT64"], false, [], true, none⟩ pagedQuery.2 _ rfl hreached
  exact ⟨_, hreached, rfl, rfl, (hlife.2.2.2 rfl).1 1, hlife.2.1⟩

end IotdbClient
