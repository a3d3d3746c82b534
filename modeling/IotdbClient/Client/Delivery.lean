import IotdbClient.Client.DataSetSafety

/-!
# Result delivery

What a result set owes its reader, stated without its state machine: the rows of all blocks of all
pages in wire order.  The remaining rows of an iteration are accounted for exactly, turn by turn.
-/

namespace IotdbClient

open Library Program SessionDataSet

/-! ## The rows of a result -/

/-- Where an output column comes from. -/
inductive ColumnSource where
  | time
  | value (physical : Nat)
deriving Repr, DecidableEq

/-- `-1` is the time column; without a map the columns stand for themselves. -/
def columnSource (columnIndexMap : Option (List Int32)) (ordinal : Nat) : Option ColumnSource :=
  match columnIndexMap with
  | none => some (.value ordinal)
  | some map => map[ordinal]?.bind fun physical ↦
      if physical = -1 then some .time
      else if physical < 0 then none
      else some (.value physical.toInt.toNat)

def ColumnSource.InRange (block : TsBlock) : ColumnSource → Prop
  | time => True
  | value physical => physical < block.columns.length

def ColumnSource.cell (block : TsBlock) (i : Nat) : ColumnSource → Value
  | time => .timestamp (block.timestamps.getD i 0)
  | value physical => (block.columns.getD physical []).getD i .null

/-- Every output column has a source in the block. -/
def Mapped (handle : QueryHandle) (block : TsBlock) : Prop :=
  ∀ ordinal < handle.columns.length,
    ∃ source, columnSource handle.columnIndex2TsBlockColumnIndexList ordinal = some source ∧
      source.InRange block

/-- Row `i` of a block, as the caller should see it. -/
def rowOf (handle : QueryHandle) (block : TsBlock) (i : Nat) : Row where
  timestamp := if handle.ignoreTimeStamp then none else some (block.timestamps.getD i 0)
  values := (List.range handle.columns.length).map fun ordinal ↦
    match columnSource handle.columnIndex2TsBlockColumnIndexList ordinal with
    | some source => applyLogicalType (source.cell block i) handle.dataTypeList[ordinal]?
    | none => .null

def blockRows (handle : QueryHandle) (block : TsBlock) : List Row :=
  (List.range block.positionCount).map (rowOf handle block)

def sliceRows (handle : QueryHandle) (bytes : Slice) : List Row :=
  match TsBlock.decode bytes with
  | .ok block => blockRows handle block
  | .error _ => []

def Deliverable (handle : QueryHandle) (bytes : Slice) : Prop :=
  ∃ block, TsBlock.decode bytes = .ok block ∧ Mapped handle block

/-- The blocks of a page: those of a response that has a result set and names any. -/
def pageBlocks (resp : TSFetchResultsResp) : List Slice :=
  match resp.hasResultSet, resp.queryResult with
  | true, some blocks => blocks
  | _, _ => []

/-- Another page is announced.  A response without a result set ends the result, whatever it says. -/
def pageContinues (resp : TSFetchResultsResp) : Bool :=
  match resp.hasResultSet, resp.moreData with
  | true, some more => more
  | _, _ => false

theorem pageOf_eq (resp : TSFetchResultsResp) :
    Session.pageOf resp = (pageBlocks resp, pageContinues resp) := by
  obtain ⟨status, hasResultSet, queryResult, moreData⟩ := resp
  cases hasResultSet with
  | false => rfl
  | true => cases queryResult <;> cases moreData <;> rfl

/-- The responses the server will give to the fetches from call `n` on, under the `moreData` flag in
force: each page but the last announces another. -/
inductive Script (server : Server) (handle : QueryHandle) :
    Nat → Bool → List TSFetchResultsResp → Prop where
  | done (n : Nat) : Script server handle n false []
  | page {n : Nat} {resp : TSFetchResultsResp} {rest : List TSFetchResultsResp}
      (hanswer : ∀ connection req, server.answer n connection (.fetchResults req) = .ok resp)
      (hstatus : checkStatus resp.status = .ok ())
      (hblocks : ∀ bytes ∈ pageBlocks resp, Deliverable handle bytes)
      (hrest : Script server handle (n + 1) (pageContinues resp) rest) :
      Script server handle n true (resp :: rest)

def blocksRows (handle : QueryHandle) (blocks : List Slice) : List Row :=
  blocks.flatMap (sliceRows handle)

def pagesRows (handle : QueryHandle) (pages : List TSFetchResultsResp) : List Row :=
  pages.flatMap fun resp ↦ blocksRows handle (pageBlocks resp)

/-- The rows of a whole result: those of the handle's blocks, then those of the pages. -/
def resultRows (handle : QueryHandle) (pages : List TSFetchResultsResp) : List Row :=
  blocksRows handle handle.queryResult ++ pagesRows handle pages

def Call.isFetch (call : Call) : Bool :=
  match call.request with
  | .fetchResults _ => true
  | _ => false

/-- The fetches a session has issued. -/
def fetches (st : DataSetState) : Nat := st.2.1.trace.countP Call.isFetch

/-! ## Row assembly -/

/-- The fields of a data set that row assembly reads are those of its handle. -/
def Serves (handle : QueryHandle) (ds : SessionDataSet) : Prop :=
  ds.columns = handle.columns ∧ ds.dataTypeList = handle.dataTypeList ∧
    ds.ignoreTimeStamp = handle.ignoreTimeStamp ∧
    ds.columnIndexMap = handle.columnIndex2TsBlockColumnIndexList

/-- A block the result set may hold: decoded, and with every output column mapped. -/
structure Held (handle : QueryHandle) (block : TsBlock) : Prop where
  shape : block.Rectangular
  width : block.columnTypes.length < 2 ^ 31
  mapped : Mapped handle block

theorem Deliverable.held {handle : QueryHandle} {bytes : Slice} (h : Deliverable handle bytes) :
    ∃ block, TsBlock.decode bytes = .ok block ∧ Held handle block := by
  obtain ⟨block, hdecode, hmapped⟩ := h
  have hends := decode_ends bytes
  rw [hdecode] at hends
  exact ⟨block, hdecode, hends.1, hends.2, hmapped⟩

theorem applyLogicalType_timestamp (t : Int64) (logical : Option String) :
    applyLogicalType (.timestamp t) logical = .timestamp t := by
  unfold applyLogicalType
  split <;> simp_all

/-- A value column: the physical index is non-negative and within the block. -/
theorem assembleCell_value {ds : SessionDataSet} {block : TsBlock} {i ordinal p : Nat}
    {physical : Int32} (hblock : block.Rectangular) (hi : i < block.positionCount)
    (hphysical : physicalColumn ds.columnIndexMap ordinal = .ok physical)
    (hneg : ¬physical < 0) (hp : physical.toInt.toNat = p) (hlt : p < block.columns.length) :
    ds.assembleCell block i ordinal =
      .ok (applyLogicalType ((ColumnSource.value p).cell block i) ds.dataTypeList[ordinal]?) := by
  have htime : physical ≠ -1 := by
    rintro rfl
    exact hneg (by decide)
  have hcolumn : columnAt block physical = some block.columns[p] := by
    rw [columnAt, if_neg hneg, hp, List.getElem?_eq_getElem hlt]
  have hheight : i < block.columns[p].length := by
    rw [hblock.heights _ (List.getElem_mem hlt)]
    exact hi
  unfold assembleCell
  rw [hphysical]
  change (if physical = -1 then _ else _ : Result Value) = _
  rw [if_neg htime, hcolumn]
  change (index block.columns[p] i >>= _ : Result Value) = _
  rw [index_of_lt hheight, ColumnSource.cell, List.getD_eq_getElem _ _ hlt,
    List.getD_eq_getElem _ _ hheight]
  rfl

theorem assembleCell_eq {handle : QueryHandle} {ds : SessionDataSet} {block : TsBlock} {i ordinal : Nat}
    (hds : Serves handle ds) (hblock : Held handle block) (hi : i < block.positionCount)
    (hordinal : ordinal < handle.columns.length) :
    ds.assembleCell block i ordinal =
      .ok (match columnSource handle.columnIndex2TsBlockColumnIndexList ordinal with
        | some source => applyLogicalType (source.cell block i) handle.dataTypeList[ordinal]?
        | none => .null) := by
  obtain ⟨source, hsource, hrange⟩ := hblock.mapped ordinal hordinal
  obtain ⟨-, htypes, -, hmap⟩ := hds
  rw [hsource]
  simp only
  rw [← hmap] at hsource
  rw [← htypes]
  cases hcases : ds.columnIndexMap with
  | none =>
      rw [hcases] at hsource
      cases hsource
      -- the cast of the ordinal to an `i32` is exact, since the header counts columns in one
      have hsmall : ordinal < 2 ^ 31 := by
        have hwidth := hblock.width
        rw [← hblock.shape.columns] at hwidth
        exact lt_trans hrange hwidth
      exact assembleCell_value hblock.shape hi (by rw [hcases]; rfl) (usizeAsI32_nonneg hsmall)
        (usizeAsI32_toNat hsmall) hrange
  | some map =>
      rw [hcases] at hsource
      obtain ⟨physical, hentry, hphysical⟩ := Option.bind_eq_some_iff.mp hsource
      have hread : physicalColumn ds.columnIndexMap ordinal = .ok physical := by
        rw [hcases]
        simp only [physicalColumn, hentry]
        rfl
      by_cases htime : physical = -1
      · -- the time column
        rw [if_pos htime] at hphysical
        cases hphysical
        have hlt : i < block.timestamps.length := by rw [hblock.shape.times]; exact hi
        unfold assembleCell
        rw [hread, ColumnSource.cell, applyLogicalType_timestamp, List.getD_eq_getElem _ _ hlt]
        change (if physical = -1 then _ else _ : Result Value) = _
        rw [if_pos htime, index_of_lt hlt]
        rfl
      · rw [if_neg htime] at hphysical
        by_cases hneg : physical < 0
        · rw [if_pos hneg] at hphysical
          cases hphysical
        · rw [if_neg hneg] at hphysical
          cases hphysical
          exact assembleCell_value hblock.shape hi hread hneg rfl hrange

theorem assembleAt_eq {handle : QueryHandle} {ds : SessionDataSet} {block : TsBlock} {i : Nat}
    (hds : Serves handle ds) (hblock : Held handle block) (hi : i < block.positionCount) :
    ds.assembleAt block i = .ok (rowOf handle block i) := by
  have hlt : i < block.timestamps.length := by rw [hblock.shape.times]; exact hi
  have hcells := mapM_ok (l := List.range handle.columns.length) fun ordinal hordinal ↦
    assembleCell_eq hds hblock hi (List.mem_range.mp hordinal)
  unfold assembleAt rowOf
  rw [hds.1, hcells, hds.2.2.1, List.getD_eq_getElem _ _ hlt, index_of_lt hlt]
  cases handle.ignoreTimeStamp <;> rfl

/-! ## Accounting, turn by turn -/

section Accounting

variable (server : Server) (handle : QueryHandle)

/-- Rows received and not yet delivered. -/
def cached (ds : SessionDataSet) : List Row :=
  (match ds.current with
    | some block => (blockRows handle block).drop ds.rowIndex
    | none => []) ++ blocksRows handle ds.pendingBlocks

/-- An open result set with `rest` of its script still to come. -/
structure Iterating (st : DataSetState) (rest : List TSFetchResultsResp) : Prop where
  serves : Serves handle st.1
  opened : st.1.closed = false
  pending : ∀ bytes ∈ st.1.pendingBlocks, Deliverable handle bytes
  current : ∀ block, st.1.current = some block → Held handle block
  connected : rest = [] ∨ st.2.1.connection.isSome
  script : Script server handle st.2.2.calls st.1.moreData rest

/-- A bound on the turns left before the result set reports its end, rows aside. -/
def work (ds : SessionDataSet) (rest : List TSFetchResultsResp) : Nat :=
  (if ds.current.isSome then 1 else 0) + 2 * ds.pendingBlocks.length +
    (rest.map fun resp ↦ 2 * (pageBlocks resp).length + 1).sum

/-- What a turn does with the rows that are still owed. -/
inductive Turned (st : DataSetState) (rest : List TSFetchResultsResp) : Prop where
  | row {row : Row} {st' : DataSetState} (hturn : turn server st = (.ok (some (some row)), st'))
      (hcached : cached handle st.1 = row :: cached handle st'.1)
      (hnext : Iterating server handle st' rest) (hfetches : fetches st' = fetches st)
      (hwork : work st'.1 rest = work st.1 rest)
  | block {st' : DataSetState} (hturn : turn server st = (.ok none, st'))
      (hcached : cached handle st'.1 = cached handle st.1)
      (hnext : Iterating server handle st' rest) (hfetches : fetches st' = fetches st)
      (hwork : work st'.1 rest < work st.1 rest)
  | page {resp : TSFetchResultsResp} {rest' : List TSFetchResultsResp} {st' : DataSetState}
      (hrest : rest = resp :: rest') (hturn : turn server st = (.ok none, st'))
      (hempty : cached handle st.1 = [])
      (hcached : cached handle st'.1 = blocksRows handle (pageBlocks resp))
      (hnext : Iterating server handle st' rest') (hfetches : fetches st' = fetches st + 1)
      (hwork : work st'.1 rest' < work st.1 rest)
  | last {st' : DataSetState} (hturn : turn server st = (.ok (some none), st'))
      (hempty : cached handle st.1 ++ pagesRows handle rest = [])
      (hclosed : st'.1.closed = true) (hfetches : fetches st' = fetches st + rest.length)

variable {server handle} {ds : SessionDataSet} {s : Session × World}
  {rest : List TSFetchResultsResp}

theorem cached_drained (h : ds.Drained) : cached handle ds = blocksRows handle ds.pendingBlocks := by
  unfold cached
  cases hcurrent : ds.current with
  | none => rfl
  | some block =>
      have hlen : (blockRows handle block).length ≤ ds.rowIndex := by
        rw [blockRows, List.length_map, List.length_range]
        exact h block hcurrent
      simp only [List.drop_eq_nil_of_le hlen, List.nil_append]

theorem cached_row {block : TsBlock} (hcurrent : ds.current = some block)
    (hlt : ds.rowIndex < block.positionCount) :
    cached handle ds =
      rowOf handle block ds.rowIndex :: cached handle { ds with rowIndex := ds.rowIndex + 1 } := by
  have hlen : ds.rowIndex < (blockRows handle block).length := by
    rw [blockRows, List.length_map, List.length_range]
    exact hlt
  have hrow : (blockRows handle block)[ds.rowIndex] = rowOf handle block ds.rowIndex := by
    simp [blockRows]
  simp only [cached, hcurrent]
  rw [List.drop_eq_getElem_cons hlen, hrow, List.cons_append]

theorem cached_pop {bytes : Slice} {pending : List Slice} {block : TsBlock} (hdrained : ds.Drained)
    (hpending : ds.pendingBlocks = bytes :: pending) (hdecode : TsBlock.decode bytes = .ok block) :
    cached handle { ds with pendingBlocks := pending, current := some block, rowIndex := 0 } =
      cached handle ds := by
  rw [cached_drained hdrained, hpending]
  simp only [cached, List.drop_zero, blocksRows, List.flatMap_cons, sliceRows, hdecode]

/-- A fetch gets the next page of the script. -/
theorem fetch_page {resp : TSFetchResultsResp} {connection : Connection} {site : CallSite}
    {queryId : Int64} {sql : String} (hconn : s.1.connection = some connection)
    (hanswer : ∀ connection req, server.answer s.2.calls connection (.fetchResults req) = .ok resp)
    (hstatus : checkStatus resp.status = .ok ()) :
    Session.fetchResults server site queryId sql s =
      (.ok (pageBlocks resp, pageContinues resp), Session.afterCall server connection site
        (.fetchResults (s.1.fetchReq queryId sql)) s) := by
  rw [Session.fetchResults_eq, hconn]
  simp only [hanswer, hstatus, ← pageOf_eq]
  rfl

variable (server) in
theorem fetches_fetch (connection : Connection) (site : CallSite) (req : TSFetchResultsReq)
    (s : Session × World) :
    (Session.afterCall server connection site (.fetchResults req) s).1.trace.countP Call.isFetch =
      s.1.trace.countP Call.isFetch + 1 :=
  List.countP_cons_of_pos rfl

theorem fetches_closeQuery (site : CallSite) (queryId : Int64) (s : Session × World) :
    (Session.closeQuery server site queryId s).2.1.trace.countP Call.isFetch =
      s.1.trace.countP Call.isFetch := by
  rw [Session.closeQuery_eq]
  cases s.1.connection <;> rfl

theorem turned_drained (h : Iterating server handle (ds, s) rest) (hdrained : ds.Drained)
    (hpending : ds.pendingBlocks = []) : Turned server handle (ds, s) rest := by
  have hempty : cached handle ds = [] := by rw [cached_drained hdrained, hpending]; rfl
  have hnext : ds.dropCurrent.pendingBlocks = [] := hpending
  have hopen : ds.dropCurrent.closed = false := h.opened
  have hscript := h.script
  generalize hmore : (ds, s).1.moreData = more at hscript
  cases hscript with
  | done n =>
      -- nothing cached and nothing left on the server
      have hmore' : ds.dropCurrent.moreData = false := hmore
      have hturn : turn server (ds, s) =
          (.ok (some none), (ds.dropCurrent.shut,
            (Session.closeQuery server .dataSet ds.queryId s).2)) := by
        rw [turn_drained server hdrained, advance_end server hnext hmore', finish_eq server hopen]
        rfl
      refine .last hturn (by rw [hempty]; rfl) rfl ?_
      exact fetches_closeQuery _ _ _
  | @page _ resp rest' hanswer hstatus hblocks hrest =>
      have hmore' : ds.dropCurrent.moreData = true := hmore
      obtain ⟨connection, hconn⟩ := Option.isSome_iff_exists.mp
        (h.connected.resolve_left (List.cons_ne_nil _ _))
      have hfetch : Session.fetchResults server .dataSet ds.dropCurrent.queryId
          ds.dropCurrent.statement s = _ := fetch_page hconn hanswer hstatus
      have hadvance : turn server (ds, s) = advance server (ds.dropCurrent, s) :=
        turn_drained server hdrained
      rw [advance_fetch server hnext hmore', hfetch] at hadvance
      have hcount := fetches_fetch server connection .dataSet
        (s.1.fetchReq ds.dropCurrent.queryId ds.dropCurrent.statement) s
      by_cases hcontinue : (!(pageBlocks resp).isEmpty || pageContinues resp) = true
      · -- the page has blocks, or others follow it
        simp only [if_pos hcontinue] at hadvance
        refine .page rfl hadvance hempty rfl ⟨h.serves, h.opened, hblocks, ?_, ?_, hrest⟩ hcount ?_
        · intro block hblock
          cases hblock
        · exact .inr (Option.isSome_iff_exists.mpr ⟨connection, hconn⟩)
        · simp only [work, hpending, dropCurrent, List.map_cons, List.sum_cons]
          simp
          omega
      · -- an empty last page ends the result set
        have hlast : pageBlocks resp = [] ∧ pageContinues resp = false := by
          simpa using hcontinue
        rw [hlast.1, hlast.2] at hadvance
        rw [hlast.2] at hrest
        cases hrest
        have hshut : ({ ds.dropCurrent with pendingBlocks := [], moreData := false } :
          SessionDataSet).closed = false := h.opened
        simp only [List.isEmpty_nil, Bool.not_true, Bool.or_self, Bool.false_eq_true,
          if_false] at hadvance
        rw [finish_eq server hshut] at hadvance
        refine .last hadvance ?_ rfl ?_
        · rw [hempty]
          simp [pagesRows, hlast.1, blocksRows]
        · exact (fetches_closeQuery _ _ _).trans hcount

theorem turned {st : DataSetState} (h : Iterating server handle st rest) :
    Turned server handle st rest := by
  obtain ⟨ds, s⟩ := st
  by_cases hdrained : ds.Drained
  · cases hpending : ds.pendingBlocks with
    | nil => exact turned_drained h hdrained hpending
    | cons bytes pending =>
        obtain ⟨block, hdecode, hheld⟩ := (h.pending bytes (by simp [hpending])).held
        have hnext : ds.dropCurrent.pendingBlocks = bytes :: pending := hpending
        have hturn : turn server (ds, s) = (.ok none,
            ({ ds.dropCurrent with pendingBlocks := pending, current := some block, rowIndex := 0 }, s)) := by
          rw [turn_drained server hdrained, advance_pop server hnext, hdecode]
        refine .block hturn (cached_pop hdrained hpending hdecode)
          ⟨h.serves, h.opened, ?_, ?_, h.connected, h.script⟩ rfl ?_
        · intro other hother
          exact h.pending other (by simp [hpending, hother])
        · intro other hother
          cases hother
          exact hheld
        · simp only [work, hpending, List.length_cons, Option.isSome_some, if_true]
          omega
  · -- a row of the current block is left
    unfold Drained at hdrained
    push Not at hdrained
    obtain ⟨block, hcurrent, hlt⟩ := hdrained
    have hturn := turn_row server (s := s) hcurrent hlt
    rw [assembleAt_eq h.serves (h.current block hcurrent) hlt] at hturn
    exact .row hturn (cached_row hcurrent hlt)
      ⟨h.serves, h.opened, h.pending, h.current, h.connected, h.script⟩ rfl rfl

variable (server handle) in
/-- A call that returns a row: which pages it fetched on the way, and that it fetched none of them
while a row was in hand. -/
structure CallRow (st : DataSetState) (rest done : List TSFetchResultsResp) (row : Row)
    (st' : DataSetState) (rest' : List TSFetchResultsResp) : Prop where
  pages : rest = done ++ rest'
  rows : cached handle st.1 ++ pagesRows handle done = row :: cached handle st'.1
  idle : ∀ q < done.length, cached handle st.1 ++ pagesRows handle (done.take q) = []
  next : Iterating server handle st' rest'
  fetches : fetches st' = fetches st + done.length
  work : work st'.1 rest' ≤ work st.1 rest

theorem pagesRows_append (front back : List TSFetchResultsResp) :
    pagesRows handle (front ++ back) = pagesRows handle front ++ pagesRows handle back :=
  List.flatMap_append

theorem nextRowLoop_row (fuel : Nat) {st : DataSetState} {rest : List TSFetchResultsResp}
    (h : Iterating server handle st rest) (hfuel : work st.1 rest < fuel)
    (howed : cached handle st.1 ++ pagesRows handle rest ≠ []) :
    ∃ done row st' rest', nextRowLoop server fuel st = some (.ok (some row), st') ∧
      CallRow server handle st rest done row st' rest' := by
  induction fuel generalizing st rest with
  | zero => omega
  | succ fuel ih =>
      unfold nextRowLoop
      cases turned h with
      | @row row st' hturn hcached hnext hfetches hwork =>
          refine ⟨[], row, st', rest, by rw [hturn], rfl, ?_, by simp, hnext, hfetches, hwork.le⟩
          rw [hcached]
          simp [pagesRows]
      | @block st' hturn hcached hnext hfetches hwork =>
          rw [← hcached] at howed
          obtain ⟨done, row, st'', rest', hrun, hcall⟩ := ih hnext (by omega) howed
          refine ⟨done, row, st'', rest', by rw [hturn]; exact hrun, hcall.pages, ?_, ?_, hcall.next,
            by rw [hcall.fetches, hfetches], by have := hcall.work; omega⟩
          · rw [← hcached, hcall.rows]
          · rw [← hcached]
            exact hcall.idle
      | @page resp tail st' hrest hturn hempty hcached hnext hfetches hwork =>
          -- the page moves from those to come to those fetched
          subst hrest
          have hsplit : ∀ pages, cached handle st'.1 ++ pagesRows handle pages =
              cached handle st.1 ++ pagesRows handle (resp :: pages) := by
            intro pages
            rw [hcached, hempty]
            rfl
          rw [← hsplit tail] at howed
          obtain ⟨done, row, st'', rest', hrun, hcall⟩ := ih hnext (by omega) howed
          refine ⟨resp :: done, row, st'', rest', by rw [hturn]; exact hrun, by rw [hcall.pages]; rfl,
            by rw [← hsplit, hcall.rows], ?_, hcall.next, ?_, by have := hcall.work; omega⟩
          · intro q hq
            cases q with
            | zero => rw [hempty]; rfl
            | succ q =>
                rw [List.take_succ_cons, ← hsplit]
                exact hcall.idle q (by simpa using hq)
          · rw [hcall.fetches, hfetches, List.length_cons]
            omega
      | last hturn hempty hclosed hfetches => exact absurd hempty howed

theorem nextRowLoop_end (fuel : Nat) {st : DataSetState} {rest : List TSFetchResultsResp}
    (h : Iterating server handle st rest) (hfuel : work st.1 rest < fuel)
    (howed : cached handle st.1 ++ pagesRows handle rest = []) :
    ∃ st', nextRowLoop server fuel st = some (.ok none, st') ∧ st'.1.closed = true ∧
      fetches st' = fetches st + rest.length := by
  induction fuel generalizing st rest with
  | zero => omega
  | succ fuel ih =>
      unfold nextRowLoop
      cases turned h with
      | row hturn hcached hnext hfetches hwork =>
          rw [hcached] at howed
          cases howed
      | block hturn hcached hnext hfetches hwork =>
          rw [← hcached] at howed
          obtain ⟨st'', hrun, hclosed, hcount⟩ := ih hnext (by omega) howed
          exact ⟨st'', by rw [hturn]; exact hrun, hclosed, by rw [hcount, hfetches]⟩
      | @page resp tail st' hrest hturn hempty hcached hnext hfetches hwork =>
          subst hrest
          have howed' : cached handle st'.1 ++ pagesRows handle tail = [] := by
            rw [hempty] at howed
            rw [hcached]
            exact howed
          obtain ⟨st'', hrun, hclosed, hcount⟩ := ih hnext (by omega) howed'
          refine ⟨st'', by rw [hturn]; exact hrun, hclosed, ?_⟩
          rw [hcount, hfetches, List.length_cons]
          omega
      | @last st' hturn hempty hclosed hfetches => exact ⟨st', by rw [hturn], hclosed, hfetches⟩

variable (server handle) in
/-- `k` rows after `start`: the fetches made are the fewest that bring in `k` rows. -/
structure Delivered (start : DataSetState) (pages : List TSFetchResultsResp) (k : Nat)
    (st : DataSetState) (done rest : List TSFetchResultsResp) : Prop where
  next : Iterating server handle st rest
  split : pages = done ++ rest
  fetches : fetches st = fetches start + done.length
  rows : ∃ out, out.length = k ∧ cached handle start.1 ++ pagesRows handle done =
    out ++ cached handle st.1
  fewest : ∀ q < done.length, (cached handle start.1 ++ pagesRows handle (done.take q)).length < k

theorem nextRow_of_open {fuel : Nat} {st : DataSetState} (h : st.1.closed = false) :
    nextRow server fuel st = nextRowLoop server fuel st := by
  rw [nextRow, if_neg (by rw [h]; decide)]

theorem nextRow_of_closed {fuel : Nat} {st : DataSetState} (h : st.1.closed = true) :
    nextRow server fuel st = some (.ok none, st) := by
  rw [nextRow, if_pos h]

/-- One call in front of `k` others. -/
theorem CallRow.delivered {start st st' : DataSetState} {pages done rest done' rest' : List TSFetchResultsResp}
    {row : Row} {k : Nat} (hcall : CallRow server handle start pages done row st rest)
    (h : Delivered server handle st rest k st' done' rest') :
    Delivered server handle start pages (k + 1) st' (done ++ done') rest' where
  next := h.next
  split := by rw [hcall.pages, h.split, List.append_assoc]
  fetches := by rw [h.fetches, hcall.fetches, List.length_append, Nat.add_assoc]
  rows := by
    obtain ⟨out, hlen, hout⟩ := h.rows
    refine ⟨row :: out, by rw [List.length_cons, hlen], ?_⟩
    rw [pagesRows_append, ← List.append_assoc, hcall.rows, List.cons_append, hout, List.cons_append]
  fewest := by
    intro q hq
    rw [List.length_append] at hq
    by_cases hfront : q < done.length
    · rw [List.take_append_of_le_length hfront.le, hcall.idle q hfront]
      exact Nat.succ_pos k
    · have hback := h.fewest (q - done.length) (by omega)
      rw [List.take_append, List.take_of_length_le (by omega), pagesRows_append,
        ← List.append_assoc, hcall.rows, List.cons_append, List.length_cons]
      omega

theorem nextRows_rows (fuel : Nat) (k : Nat) {start : DataSetState} {pages : List TSFetchResultsResp}
    (h : Iterating server handle start pages) (hfuel : work start.1 pages < fuel)
    (hk : k ≤ (cached handle start.1 ++ pagesRows handle pages).length) :
    ∃ st done rest, Delivered server handle start pages k st done rest ∧ work st.1 rest < fuel ∧
      nextRows server fuel k start =
        some (((cached handle start.1 ++ pagesRows handle pages).take k).map fun row ↦
          .ok (some row), st) := by
  induction k generalizing start pages with
  | zero => exact ⟨start, [], pages, ⟨h, rfl, rfl, ⟨[], rfl, by simp [pagesRows]⟩, by simp⟩, hfuel, rfl⟩
  | succ k ih =>
      have howed : cached handle start.1 ++ pagesRows handle pages ≠ [] := by
        intro hnil
        rw [hnil] at hk
        cases hk
      obtain ⟨done, row, st, rest, hrun, hcall⟩ := nextRowLoop_row fuel h hfuel howed
      have hrows : cached handle start.1 ++ pagesRows handle pages =
          row :: (cached handle st.1 ++ pagesRows handle rest) := by
        rw [hcall.pages, pagesRows_append, ← List.append_assoc, hcall.rows, List.cons_append]
      rw [hrows, List.length_cons] at hk
      obtain ⟨st', done', rest', hdelivered, hwork, hcalls⟩ :=
        ih hcall.next (lt_of_le_of_lt hcall.work hfuel) (by omega)
      refine ⟨st', done ++ done', rest', hcall.delivered hdelivered, hwork, ?_⟩
      rw [nextRows, nextRow_of_open h.opened, hrun]
      change (nextRows server fuel k st >>= fun r ↦ _) = _
      rw [hcalls, hrows]
      rfl

theorem nextRows_append (fuel m n : Nat) (st : DataSetState) :
    nextRows server fuel (m + n) st =
      (nextRows server fuel m st).bind fun front ↦
        (nextRows server fuel n front.2).map fun back ↦ (front.1 ++ back.1, back.2) := by
  induction m generalizing st with
  | zero => simp [nextRows]
  | succ m ih =>
      rw [Nat.succ_add, nextRows, nextRows]
      cases nextRow server fuel st with
      | none => rfl
      | some r =>
          simp only [Option.bind_eq_bind, Option.bind_some, ih]
          cases nextRows server fuel m r.2 with
          | none => rfl
          | some front =>
              simp only [Option.bind_some, Option.pure_def]
              cases nextRows server fuel n front.2 <;> rfl

theorem nextRows_one {fuel : Nat} {st st' : DataSetState} {out : Result (Option Row)}
    (h : nextRow server fuel st = some (out, st')) :
    nextRows server fuel 1 st = some ([out], st') := by
  simp only [nextRows, h]
  rfl

end Accounting

/-- Draining a result set whose fetches follow a script.  `k` calls make the fewest fetches that
bring in `k` rows, so none is made while a row is in hand. -/
theorem resultSet_delivers_every_row (server : Server) (handle : QueryHandle) (session : Session)
    (world : World) (pages : List TSFetchResultsResp)
    (hinitial : ∀ bytes ∈ handle.queryResult, Deliverable handle bytes)
    (hscript : Script server handle world.calls handle.moreData pages)
    (hconnected : pages = [] ∨ session.connection.isSome) :
    let start : DataSetState := (SessionDataSet.new handle, session, world)
    let rows := resultRows handle pages
    ∃ enough, ∀ fuel ≥ enough,
      (∀ k ≤ rows.length, ∃ st,
        nextRows server fuel k start = some ((rows.take k).map fun row ↦ .ok (some row), st) ∧
        ∃ p ≤ pages.length, fetches st = fetches start + p ∧
          k ≤ (resultRows handle (pages.take p)).length ∧
          ∀ q < p, (resultRows handle (pages.take q)).length < k) ∧
      ∃ st, nextRows server fuel (rows.length + 1) start =
          some ((rows.map fun row ↦ .ok (some row)) ++ [.ok none], st) ∧
        fetches st = fetches start + pages.length ∧
        ∀ fuel', nextRow server fuel' st = some (.ok none, st) := by
  intro start rows
  have hstart : Iterating server handle start pages :=
    ⟨⟨rfl, rfl, rfl, rfl⟩, rfl, hinitial, (fun _ h ↦ by cases h), hconnected, hscript⟩
  refine ⟨work start.1 pages + 1, fun fuel hfuel ↦ ⟨?_, ?_⟩⟩
  · -- the first `k` rows
    intro k hk
    obtain ⟨st, done, rest, hdelivered, -, hrun⟩ := nextRows_rows fuel k hstart hfuel hk
    have htake : ∀ q ≤ done.length, pages.take q = done.take q := by
      intro q hq
      rw [hdelivered.split, List.take_append_of_le_length hq]
    refine ⟨st, hrun, done.length, ?_, hdelivered.fetches, ?_, ?_⟩
    · rw [hdelivered.split, List.length_append]
      exact Nat.le_add_right _ _
    · obtain ⟨out, hlen, hout⟩ := hdelivered.rows
      rw [htake _ le_rfl, List.take_length]
      change k ≤ (cached handle start.1 ++ pagesRows handle done).length
      rw [hout, List.length_append, hlen]
      exact Nat.le_add_right _ _
    · intro q hq
      rw [htake q hq.le]
      exact hdelivered.fewest q hq
  · -- all rows, and the call after the last one
    obtain ⟨st, done, rest, hdelivered, hwork, hrun⟩ :=
      nextRows_rows fuel rows.length hstart hfuel le_rfl
    have hnil : cached handle st.1 ++ pagesRows handle rest = [] := by
      obtain ⟨out, hlen, hout⟩ := hdelivered.rows
      have hall : rows = out ++ (cached handle st.1 ++ pagesRows handle rest) := by
        rw [← List.append_assoc, ← hout, List.append_assoc, ← pagesRows_append, ← hdelivered.split]
        rfl
      have hcount := congrArg List.length hall
      rw [List.length_append, hlen] at hcount
      exact List.length_eq_zero_iff.mp (by omega)
    obtain ⟨st', hlast, hclosed, hfetches⟩ := nextRowLoop_end fuel hdelivered.next hwork hnil
    refine ⟨st', ?_, ?_, fun fuel' ↦ nextRow_of_closed hclosed⟩
    · rw [← nextRow_of_open hdelivered.next.opened] at hlast
      rw [nextRows_append, hrun, Option.bind_some, nextRows_one hlast, Option.map_some]
      change some (List.map _ (rows.take rows.length) ++ _, _) = _
      rw [List.take_length]
    · rw [hfetches, hdelivered.fetches, hdelivered.split, List.length_append, Nat.add_assoc]

/-- One INT32 column and one row, and nothing after it. -/
def firstBlock : Slice :=
  ⟨[0, 0, 0, 1, 1, 0, 0, 0, 1, 2, 1, 0, 0, 0, 0, 0, 0, 0, 0, 5, 0, 0, 0, 0, 7], by decide⟩

def secondBlock : Slice :=
  ⟨[0, 0, 0, 1, 1, 0, 0, 0, 1, 2, 1, 0, 0, 0, 0, 0, 0, 0, 0, 6, 0, 0, 0, 0, 8], by decide⟩

def twoPageHandle : QueryHandle :=
  ⟨1, "SELECT s1", ["s1"], ["DATE"], false, [firstBlock], true, none⟩

/-- An empty page with more to come, then the last page. -/
def twoPages : List TSFetchResultsResp :=
  [⟨.mk 200 none none none, true, none, some true⟩,
   ⟨.mk 200 none none none, true, some [secondBlock], none⟩]

def pagedServer : Server where
  connect _ _ _ := none
  answer
    | n, _, .fetchResults _ =>
        match twoPages[n]? with
        | some resp => .ok resp
        | none => .error "end of script"
    | _, _, _ => .error "not scripted"

def openSession : Session :=
  { Session.new .default with connection := some ⟨0, ⟨"localhost", 6667⟩⟩ }

theorem firstBlock_decode : TsBlock.decode firstBlock = .ok ⟨1, [.int32], [5], [[.int32 7]]⟩ := by
  decide

theorem secondBlock_decode : TsBlock.decode secondBlock = .ok ⟨1, [.int32], [6], [[.int32 8]]⟩ := by
  decide

theorem mapped_oneColumn {block : TsBlock} (h : 0 < block.columns.length) :
    Mapped twoPageHandle block := by
  intro ordinal hordinal
  refine ⟨.value ordinal, rfl, ?_⟩
  have hzero : ordinal < 1 := hordinal
  change ordinal < block.columns.length
  omega

theorem twoPages_script : Script pagedServer twoPageHandle 0 true twoPages := by
  refine .page (fun _ _ ↦ rfl) rfl ?_ (.page (fun _ _ ↦ rfl) rfl ?_ (.done _))
  · intro bytes hbytes
    cases hbytes
  · intro bytes hbytes
    rw [List.mem_singleton.mp hbytes]
    exact ⟨_, secondBlock_decode, mapped_oneColumn (by decide)⟩

theorem twoPages_rows : resultRows twoPageHandle twoPages =
    [⟨some 5, [.date 7]⟩, ⟨some 6, [.date 8]⟩] := by
  have hblocks : resultRows twoPageHandle twoPages =
      sliceRows twoPageHandle firstBlock ++ sliceRows twoPageHandle secondBlock := by
    simp [resultRows, pagesRows, blocksRows, twoPages, twoPageHandle, pageBlocks]
  rw [hblocks, sliceRows, sliceRows, firstBlock_decode, secondBlock_decode]
  rfl

theorem resultSet_delivers_every_row_twoPages :
    ∃ enough, ∀ fuel ≥ enough, ∃ st : DataSetState,
      nextRows pagedServer fuel 3 (SessionDataSet.new twoPageHandle, openSession, ⟨0, 0, 0⟩) =
        some ([.ok (some ⟨some 5, [.date 7]⟩), .ok (some ⟨some 6, [.date 8]⟩), .ok none], st) ∧
      fetches st = 2 := by
  have hinitial : ∀ bytes ∈ twoPageHandle.queryResult, Deliverable twoPageHandle bytes := by
    intro bytes hbytes
    rw [List.mem_singleton.mp hbytes]
    exact ⟨_, firstBlock_decode, mapped_oneColumn (by decide)⟩
  obtain ⟨enough, h⟩ := resultSet_delivers_every_row pagedServer twoPageHandle openSession ⟨0, 0, 0⟩
    twoPages hinitial twoPages_script (.inr rfl)
  refine ⟨enough, fun fuel hfuel ↦ ?_⟩
  obtain ⟨-, st, hrun, hfetches, -⟩ := h fuel hfuel
  rw [twoPages_rows] at hrun
  exact ⟨st, hrun, hfetches⟩

end IotdbClient
