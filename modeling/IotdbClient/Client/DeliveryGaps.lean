import IotdbClient.Client.Delivery

/-!
# Calling on after an error

`next_row` takes a block off the queue before it decodes it.  A caller that goes on after the decode
error gets the rows of the next block, and `Ok(None)` at the end, as if nothing were missing.  As
long as no call is made behind a block that does not decode, the rows returned are a prefix of the
result.
-/

namespace IotdbClient

open Library Program SessionDataSet

/-! ## The full sequence of a result -/

/-- What assembling each row of a block gives. -/
def blockResults (handle : QueryHandle) (block : TsBlock) : List (Result Row) :=
  (List.range block.positionCount).map ((SessionDataSet.new handle).assembleAt block)

/-- All rows of all blocks in wire order; a block that does not decode ends the sequence. -/
def fullResults (handle : QueryHandle) : List Slice → List (Result Row)
  | [] => []
  | bytes :: rest =>
      match TsBlock.decode bytes with
      | .ok block => blockResults handle block ++ fullResults handle rest
      | .error _ => []

def Decodes (bytes : Slice) : Prop := ∃ block, TsBlock.decode bytes = .ok block

/-- The blocks a call brought in. -/
def Call.page : Call → List Slice
  | ⟨_, _, .fetchResults _, .ok resp⟩ =>
      match checkStatus (TSFetchResultsResp.status resp) with
      | .ok () => pageBlocks resp
      | .error _ => []
  | _ => []

def fetchedBlocks (trace : List Call) : List Slice := trace.reverse.flatMap Call.page

/-- The blocks received since `start`, the handle's own first. -/
def received (handle : QueryHandle) (start st : DataSetState) : List Slice :=
  handle.queryResult ++
    (fetchedBlocks st.2.1.trace).drop (fetchedBlocks start.2.1.trace).length

/-- The blocks taken off the queue so far. -/
def taken (handle : QueryHandle) (start st : DataSetState) : List Slice :=
  (received handle start st).take
    ((received handle start st).length - st.1.pendingBlocks.length)

/-- The rows among the results of the calls. -/
def returnedRows (results : List (Result (Option Row))) : List Row :=
  results.filterMap fun
    | .ok (some row) => some row
    | _ => none

/-- The rows returned are a prefix of the sequence, and the end is reported only when nothing was
left out. -/
def NoGap (handle : QueryHandle) (blocks : List Slice) (results : List (Result (Option Row))) :
    Prop :=
  (returnedRows results).map Except.ok <+: fullResults handle blocks ∧
    (Except.ok none ∈ results →
      (returnedRows results).map Except.ok = fullResults handle blocks ∧
        ∀ bytes ∈ blocks, Decodes bytes)

/-- Calls of `next_row` from `start` on, each made in a state that satisfies `P`. -/
inductive Calls (server : Server) (P : DataSetState → Prop) (start : DataSetState) :
    List (Result (Option Row)) → DataSetState → Prop where
  | nil : Calls server P start [] start
  | snoc {results : List (Result (Option Row))} {st st' : DataSetState} {fuel : Nat}
      {out : Result (Option Row)} (h : Calls server P start results st) (hcond : P st)
      (hrun : nextRow server fuel st = some (out, st')) :
      Calls server P start (results ++ [out]) st'

/-- A number of calls in a row. -/
theorem Calls.of_nextRows {server : Server} {P : DataSetState → Prop} {start st : DataSetState}
    {fuel n : Nat} {results : List (Result (Option Row))}
    (hrun : nextRows server fuel n start = some (results, st))
    (hcond : ∀ k < n, ∀ results st, nextRows server fuel k start = some (results, st) → P st) :
    Calls server P start results st := by
  induction n generalizing results st with
  | zero =>
      cases hrun
      exact .nil
  | succ n ih =>
      rw [nextRows_append] at hrun
      obtain ⟨⟨front, mid⟩, hfront, hback⟩ := Option.bind_eq_some_iff.mp hrun
      obtain ⟨⟨back, last⟩, hlast, heq⟩ := Option.map_eq_some_iff.mp hback
      cases heq
      have hcalls := ih hfront fun k hk ↦ hcond k (Nat.lt_succ_of_lt hk)
      cases hnext : nextRow server fuel mid with
      | none => simp [nextRows, hnext] at hlast
      | some r =>
          obtain ⟨out, next⟩ := r
          rw [nextRows_one hnext] at hlast
          cases hlast
          exact .snoc hcalls (hcond n (Nat.lt_succ_self n) _ _ hfront) hnext

/-! ## Bookkeeping -/

theorem fullResults_append {handle : QueryHandle} {front back : List Slice}
    (h : ∀ bytes ∈ front, Decodes bytes) :
    fullResults handle (front ++ back) = fullResults handle front ++ fullResults handle back := by
  induction front with
  | nil => rfl
  | cons bytes rest ih =>
      obtain ⟨block, hdecode⟩ := h bytes List.mem_cons_self
      simp only [List.cons_append, fullResults, hdecode]
      rw [ih fun other hother ↦ h other (List.mem_cons_of_mem _ hother), List.append_assoc]

theorem fetchedBlocks_cons (call : Call) (trace : List Call) :
    fetchedBlocks (call :: trace) = fetchedBlocks trace ++ call.page := by
  simp [fetchedBlocks]

variable {server : Server} {handle : QueryHandle}

variable (server) in
theorem fetchResults_fetched (queryId : Int64) (sql : String) (s : Session × World) :
    fetchedBlocks (Session.fetchResults server .dataSet queryId sql s).2.1.trace =
      fetchedBlocks s.1.trace ++
        match (Session.fetchResults server .dataSet queryId sql s).1 with
        | .ok page => page.1
        | .error _ => [] := by
  rw [Session.fetchResults_eq]
  cases s.1.connection with
  | none => simp
  | some connection =>
      simp only [Session.afterCall, fetchedBlocks_cons, List.append_cancel_left_eq]
      cases hanswer : server.answer s.2.calls connection (.fetchResults (s.1.fetchReq queryId sql)) with
      | error e => rfl
      | ok resp =>
          simp only [Call.page, pageOf_eq]
          cases checkStatus (TSFetchResultsResp.status resp) <;> rfl

theorem closeQuery_fetched (queryId : Int64) (s : Session × World) :
    fetchedBlocks (Session.closeQuery server .dataSet queryId s).2.1.trace =
      fetchedBlocks s.1.trace := by
  rw [Session.closeQuery_eq]
  cases s.1.connection with
  | none => rfl
  | some connection =>
      simp only [Session.afterCall, fetchedBlocks_cons]
      exact List.append_nil _

theorem assembleAt_serves {ds : SessionDataSet} (h : Serves handle ds) (block : TsBlock) (i : Nat) :
    ds.assembleAt block i = (SessionDataSet.new handle).assembleAt block i := by
  obtain ⟨hcolumns, htypes, hignore, hmap⟩ := h
  have hcell : ds.assembleCell block i = (SessionDataSet.new handle).assembleCell block i := by
    funext ordinal
    simp only [assembleCell, htypes, hmap]
    rfl
  simp only [assembleAt, hcell, hcolumns, hignore]
  rfl

theorem received_fetch {start st st' : DataSetState} {page : List Slice}
    (hgrows : (fetchedBlocks start.2.1.trace).length ≤ (fetchedBlocks st.2.1.trace).length)
    (hfetched : fetchedBlocks st'.2.1.trace = fetchedBlocks st.2.1.trace ++ page) :
    received handle start st' = received handle start st ++ page := by
  unfold received
  rw [hfetched, List.drop_append_of_le_length hgrows, List.append_assoc]

/-! ## Where an iteration stands -/

/-- What assembling the unread rows of the current block will give. -/
def owed (handle : QueryHandle) (ds : SessionDataSet) : List (Result Row) :=
  match ds.current with
  | some block => (blockResults handle block).drop ds.rowIndex
  | none => []

/-- Every block taken so far decoded, and its rows were returned or are still owed. -/
structure Healthy (handle : QueryHandle) (start st : DataSetState) (rows : List Row) : Prop where
  serves : Serves handle st.1
  opened : st.1.closed = false
  grows : (fetchedBlocks start.2.1.trace).length ≤ (fetchedBlocks st.2.1.trace).length
  blocks : ∃ front, received handle start st = front ++ st.1.pendingBlocks ∧
    (∀ bytes ∈ front, Decodes bytes) ∧
    fullResults handle front = rows.map Except.ok ++ owed handle st.1

/-- The block taken last does not decode. -/
def Broken (handle : QueryHandle) (start st : DataSetState) (rows : List Row) : Prop :=
  ∃ front bad, received handle start st = front ++ bad :: st.1.pendingBlocks ∧
    (∀ bytes ∈ front, Decodes bytes) ∧ ¬Decodes bad ∧
    fullResults handle front = rows.map Except.ok

structure Finished (handle : QueryHandle) (start st : DataSetState) (rows : List Row) : Prop where
  closed : st.1.closed = true
  decodes : ∀ bytes ∈ received handle start st, Decodes bytes
  rows : fullResults handle (received handle start st) = rows.map Except.ok

theorem owed_drained {ds : SessionDataSet} (h : ds.Drained) : owed handle ds = [] := by
  unfold owed
  cases hcurrent : ds.current with
  | none => rfl
  | some block =>
      apply List.drop_eq_nil_of_le
      rw [blockResults, List.length_map, List.length_range]
      exact h block hcurrent

theorem owed_row {ds : SessionDataSet} {block : TsBlock} (hds : Serves handle ds)
    (hcurrent : ds.current = some block) (hlt : ds.rowIndex < block.positionCount) :
    owed handle ds = ds.assembleAt block ds.rowIndex ::
      owed handle { ds with rowIndex := ds.rowIndex + 1 } := by
  have hlen : ds.rowIndex < (blockResults handle block).length := by
    rw [blockResults, List.length_map, List.length_range]
    exact hlt
  have hrow : (blockResults handle block)[ds.rowIndex] = ds.assembleAt block ds.rowIndex := by
    rw [assembleAt_serves hds]
    simp [blockResults]
  simp only [owed, hcurrent]
  rw [List.drop_eq_getElem_cons hlen, hrow]

/-- The state after a turn or a call, by its result. -/
def Settled (handle : QueryHandle) (start : DataSetState) (rows : List Row) :
    Result (Option Row) × DataSetState → Prop
  | (.ok (some row), st) => Healthy handle start st (rows ++ [row])
  | (.ok none, st) => Finished handle start st rows
  | (.error _, st) => Healthy handle start st rows ∨ Broken handle start st rows

/-- Closing at the end of a healthy iteration: no block is pending, so all were taken. -/
theorem Healthy.finish {start st st' : DataSetState} {rows : List Row}
    (h : Healthy handle start st rows) (hdrained : st.1.Drained) (hpending : st.1.pendingBlocks = [])
    (hclosed : st'.1.closed = true)
    (hfetched : fetchedBlocks st'.2.1.trace = fetchedBlocks st.2.1.trace) :
    Finished handle start st' rows := by
  obtain ⟨front, hfront, hdecodes, hrows⟩ := h.blocks
  have hreceived : received handle start st' = front := by
    unfold received at hfront ⊢
    rw [hfetched, hfront, hpending, List.append_nil]
  rw [owed_drained hdrained, List.append_nil] at hrows
  exact ⟨hclosed, by rw [hreceived]; exact hdecodes, by rw [hreceived]; exact hrows⟩

/-- A fetch when everything received has been taken: `page` is the new queue. -/
theorem Healthy.refill {start st st' : DataSetState} {rows : List Row} {page : List Slice}
    (h : Healthy handle start st rows) (hdrained : st.1.Drained) (hpending : st.1.pendingBlocks = [])
    (hserves : Serves handle st'.1) (hopen : st'.1.closed = false) (hcurrent : st'.1.current = none)
    (hfetched : fetchedBlocks st'.2.1.trace = fetchedBlocks st.2.1.trace ++ page)
    (hpage : st'.1.pendingBlocks = page) : Healthy handle start st' rows := by
  obtain ⟨front, hfront, hdecodes, hrows⟩ := h.blocks
  rw [hpending, List.append_nil] at hfront
  refine ⟨hserves, hopen, ?_, front, ?_, hdecodes, ?_⟩
  · have hgrows := h.grows
    rw [hfetched, List.length_append]
    omega
  · rw [received_fetch h.grows hfetched, hfront, hpage]
  · rw [hrows, owed_drained hdrained, owed, hcurrent]

variable (server) in
theorem healthy_turn {start st : DataSetState} {rows : List Row}
    (h : Healthy handle start st rows) :
    match turn server st with
    | (.ok none, st') => Healthy handle start st' rows
    | (.ok (some out), st') => Settled handle start rows (.ok out, st')
    | (.error fault, st') => Settled handle start rows (.error fault, st') := by
  obtain ⟨ds, s⟩ := st
  have hopen : ds.closed = false := h.opened
  have hturn := turn_spec server s hopen
  generalize turn server (ds, s) = result at hturn ⊢
  obtain ⟨out, st'⟩ := result
  obtain ⟨front, hfront, hdecodes, hrows⟩ := h.blocks
  cases hturn with
  | @row _ _ block row hcurrent hlt hrow =>
      refine ⟨h.serves, h.opened, h.grows, front, hfront, hdecodes, ?_⟩
      rw [hrows, owed_row h.serves hcurrent hlt, hrow]
      simp
  | rowFailed hcurrent hlt hrow => exact .inl h
  | @decoded _ _ bytes rest block hdrained hpending hdecode =>
      -- the decoded block joins those that were used up
      refine ⟨h.serves, h.opened, h.grows, front ++ [bytes], ?_, ?_, ?_⟩
      · rw [List.append_assoc, List.singleton_append, ← hpending]
        exact hfront
      · intro other hother
        rcases List.mem_append.mp hother with hold | hnew
        · exact hdecodes other hold
        · rw [List.mem_singleton.mp hnew]
          exact ⟨block, hdecode⟩
      · rw [fullResults_append hdecodes, hrows, owed_drained hdrained]
        simp [fullResults, hdecode, owed]
  | @corrupt _ _ bytes rest fault hdrained hpending hdecode =>
      -- everything before the corrupt block has been returned
      refine .inr ⟨front, bytes, ?_, hdecodes, ?_, ?_⟩
      · rw [← hpending]
        exact hfront
      · rintro ⟨block, hblock⟩
        rw [hdecode] at hblock
        cases hblock
      · rw [hrows, owed_drained hdrained, List.append_nil]
  | @fetchFailed _ _ s' fault hdrained hpending hmore hfetch =>
      have hfetched := fetchResults_fetched server ds.queryId ds.statement s
      simp only [hfetch, List.append_nil] at hfetched
      exact .inl (h.refill hdrained hpending h.serves h.opened rfl
        (hfetched.trans (List.append_nil _).symm) hpending)
  | @refilled _ _ s' blocks more hdrained hpending hmore hfetch hcontinue =>
      have hfetched := fetchResults_fetched server ds.queryId ds.statement s
      simp only [hfetch] at hfetched
      exact h.refill hdrained hpending h.serves h.opened rfl hfetched rfl
  | @lastPageEmpty _ _ s' hdrained hpending hmore hfetch =>
      have hfetched := fetchResults_fetched server ds.queryId ds.statement s
      simp only [hfetch, List.append_nil] at hfetched
      exact h.finish hdrained hpending rfl ((closeQuery_fetched ds.queryId s').trans hfetched)
  | exhausted hdrained hpending hmore =>
      exact h.finish hdrained hpending rfl (closeQuery_fetched ds.queryId s)

theorem healthy_loop {start st st' : DataSetState} {rows : List Row} {out : Result (Option Row)}
    (fuel : Nat) (h : Healthy handle start st rows)
    (hrun : nextRowLoop server fuel st = some (out, st')) :
    Settled handle start rows (out, st') := by
  induction fuel generalizing st with
  | zero => cases hrun
  | succ fuel ih =>
      have hturn := healthy_turn server h
      unfold nextRowLoop at hrun
      rcases hst : turn server st with ⟨fault | ⟨_ | row⟩, next⟩ <;> rw [hst] at hrun hturn
      · cases hrun
        exact hturn
      · exact ih hturn hrun
      · cases hrun
        exact hturn

/-! ## Runs -/

/-- Where a run stands after its calls. -/
inductive Standing (handle : QueryHandle) (start : DataSetState)
    (results : List (Result (Option Row))) (st : DataSetState) : Prop where
  | healthy (h : Healthy handle start st (returnedRows results)) (hnone : Except.ok none ∉ results)
  | broken (h : Broken handle start st (returnedRows results)) (hnone : Except.ok none ∉ results)
  | finished (h : Finished handle start st (returnedRows results))

/-- Every block taken off the queue so far decodes. -/
def Intact (handle : QueryHandle) (start st : DataSetState) : Prop :=
  ∀ bytes ∈ taken handle start st, Decodes bytes

theorem returnedRows_append (front back : List (Result (Option Row))) :
    returnedRows (front ++ back) = returnedRows front ++ returnedRows back :=
  List.filterMap_append ..

theorem Broken.not_intact {start st : DataSetState} {rows : List Row}
    (h : Broken handle start st rows) : ¬Intact handle start st := by
  obtain ⟨front, bad, hreceived, -, hbad, -⟩ := h
  intro hintact
  apply hbad
  apply hintact
  have hsplit : received handle start st = (front ++ [bad]) ++ st.1.pendingBlocks := by
    rw [hreceived, List.append_assoc, List.singleton_append]
  rw [taken, hsplit, List.length_append, Nat.add_sub_cancel, List.take_left]
  simp

theorem calls_standing {start st : DataSetState} {results : List (Result (Option Row))}
    (hstart : Healthy handle start start [])
    (h : Calls server (Intact handle start) start results st) : Standing handle start results st := by
  induction h with
  | nil => exact .healthy hstart (by simp)
  | @snoc results st st' fuel out _ hcond hrun ih =>
      cases ih with
      | healthy hst hnone =>
          rw [nextRow_of_open hst.opened] at hrun
          have hsettled := healthy_loop fuel hst hrun
          rcases out with fault | _ | row
          · have hrows : returnedRows (results ++ [.error fault]) = returnedRows results := by
              rw [returnedRows_append]
              exact List.append_nil _
            rcases hsettled with hst' | hst'
            · exact .healthy (by rw [hrows]; exact hst') (by simpa using hnone)
            · exact .broken (by rw [hrows]; exact hst') (by simpa using hnone)
          · refine .finished ?_
            rw [returnedRows_append]
            change Finished handle start st' (returnedRows results ++ [])
            rw [List.append_nil]
            exact hsettled
          · refine .healthy ?_ (by simpa using hnone)
            rw [returnedRows_append]
            exact hsettled
      | broken hst hnone => exact absurd hcond hst.not_intact
      | finished hst =>
          rw [nextRow_of_closed hst.closed] at hrun
          cases hrun
          refine .finished ?_
          rw [returnedRows_append]
          change Finished handle start st (returnedRows results ++ [])
          rw [List.append_nil]
          exact hst

theorem Standing.noGap {start st : DataSetState} {results : List (Result (Option Row))}
    (h : Standing handle start results st) : NoGap handle (received handle start st) results := by
  cases h with
  | healthy hst hnone =>
      obtain ⟨front, hfront, hdecodes, hrows⟩ := hst.blocks
      refine ⟨?_, fun hmem ↦ absurd hmem hnone⟩
      rw [hfront, fullResults_append hdecodes, hrows, List.append_assoc]
      exact List.prefix_append _ _
  | broken hst hnone =>
      obtain ⟨front, bad, hreceived, hdecodes, -, hrows⟩ := hst
      refine ⟨?_, fun hmem ↦ absurd hmem hnone⟩
      rw [hreceived, fullResults_append hdecodes, hrows]
      exact List.prefix_append _ _
  | finished hst =>
      refine ⟨?_, fun _ ↦ ⟨hst.rows.symm, hst.decodes⟩⟩
      rw [hst.rows]

/-- In every run that makes no call behind a block that does not decode, the rows returned are a
prefix of the result, and its end is reported only when all of it was returned. -/
theorem calls_without_gap (server : Server) (handle : QueryHandle) (s : Session × World)
    (results : List (Result (Option Row))) (st : DataSetState)
    (h : Calls server (Intact handle (SessionDataSet.new handle, s)) (SessionDataSet.new handle, s)
      results st) :
    NoGap handle (received handle (SessionDataSet.new handle, s) st) results := by
  apply Standing.noGap
  refine calls_standing ⟨⟨rfl, rfl, rfl, rfl⟩, rfl, le_rfl, [], ?_, by simp, rfl⟩ h
  change handle.queryResult ++ _ = [] ++ handle.queryResult
  rw [List.drop_length, List.append_nil, List.nil_append]

/-- The first fetch fails, and the ones after it bring the pages. -/
def stalledServer : Server where
  connect _ _ _ := none
  answer
    | 0, _, _ => .error "connection reset"
    | n + 1, connection, request => pagedServer.answer n connection request

def stalledStart : DataSetState := (SessionDataSet.new twoPageHandle, openSession, ⟨0, 0, 0⟩)

def stalledResults : List (Result (Option Row)) :=
  [.ok (some ⟨some 5, [.date 7]⟩), .error (.error (.thrift "connection reset")),
    .ok (some ⟨some 6, [.date 8]⟩), .ok none]

/-- The caller goes on after a failed fetch and misses nothing. -/
theorem calls_without_gap_stalled :
    ∃ st, Calls stalledServer (Intact twoPageHandle stalledStart) stalledStart stalledResults st ∧
      NoGap twoPageHandle (received twoPageHandle stalledStart st) stalledResults := by
  have hran : ∃ st, nextRows stalledServer 8 4 stalledStart = some (stalledResults, st) := ⟨_, rfl⟩
  obtain ⟨st, hrun⟩ := hran
  have hdecode : ((List.range 4).all fun k ↦ (nextRows stalledServer 8 k stalledStart).all fun out ↦
      (received twoPageHandle stalledStart out.2).all fun bytes ↦ (TsBlock.decode bytes).isOk) =
      true := by
    decide +kernel
  have hcalls : Calls stalledServer (Intact twoPageHandle stalledStart) stalledStart stalledResults
      st := by
    refine .of_nextRows hrun fun k hk results st' hst' bytes hbytes ↦ ?_
    have hall := List.all_eq_true.mp hdecode k (List.mem_range.mpr hk)
    rw [hst', Option.all_some, List.all_eq_true] at hall
    have hone := hall bytes (List.mem_of_mem_take hbytes)
    unfold Decodes
    cases hblock : TsBlock.decode bytes with
    | ok block => exact ⟨block, rfl⟩
    | error e =>
        rw [hblock] at hone
        cases hone
  exact ⟨st, hcalls, calls_without_gap stalledServer twoPageHandle (openSession, ⟨0, 0, 0⟩) _ _ hcalls⟩

theorem cutOff_length : ([0, 0, 0, 1] : List UInt8).length < 2 ^ 63 := by
  decide

/-- A block cut off after the column count, then a good one. -/
def corruptHandle : QueryHandle :=
  ⟨1, "SELECT s1", ["s1"], ["INT32"], false, [⟨[0, 0, 0, 1], cutOff_length⟩, firstBlock], false, none⟩

def corruptStart : DataSetState := (SessionDataSet.new corruptHandle, openSession, ⟨0, 0, 0⟩)

def corruptSecond : DataSetState :=
  ({ SessionDataSet.new corruptHandle with pendingBlocks := [firstBlock] }, openSession, ⟨0, 0, 0⟩)

def corruptThird : DataSetState :=
  ({ SessionDataSet.new corruptHandle with
      pendingBlocks := []
      current := some ⟨1, [.int32], [5], [[.int32 7]]⟩
      rowIndex := 1 },
    openSession, ⟨0, 0, 0⟩)

def corruptError : Result (Option Row) :=
  .error (.error (.decode "truncated TsBlock: need 1 bytes at offset 4, have 0"))

theorem corrupt_firstCall :
    nextRow downServer 2 corruptStart = some (corruptError, corruptSecond) := by
  rfl

theorem corrupt_secondCall :
    nextRow downServer 2 corruptSecond =
      some (.ok (some ⟨some 5, [.int32 7]⟩), corruptThird) := by
  rfl

/-- The second call returns a row behind the corrupt block. -/
theorem corrupt_block_skipped :
    ∃ results st, Calls downServer (fun _ ↦ True) corruptStart results st ∧
      ¬NoGap corruptHandle (received corruptHandle corruptStart st) results := by
  refine ⟨_, _, .snoc (.snoc .nil trivial corrupt_firstCall) trivial corrupt_secondCall, ?_⟩
  intro h
  have hfull : fullResults corruptHandle (received corruptHandle corruptStart corruptThird) = [] := rfl
  have hprefix := h.1
  rw [hfull, List.prefix_nil] at hprefix
  cases hprefix

end IotdbClient
