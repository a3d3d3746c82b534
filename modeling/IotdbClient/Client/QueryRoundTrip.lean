import IotdbClient.Client.Delivery
import IotdbClient.Client.LogicalTypes
import IotdbClient.Client.SessionIds

/-!
# A query returns the server's rows

The server has a result as rows of cells.  It cuts the rows into blocks, turns each block into
columns, encodes it and spreads the blocks over pages.  What the reader of the result set gets are the
rows again, whichever way they were cut, encoded and spread.
-/

namespace IotdbClient

open Library Program SessionDataSet

/-- A row of the server: its time, and a cell for each column of the block. -/
structure TableRow where
  time : Int64
  cells : List Value
deriving Repr, DecidableEq

/-- A result as the server has it. -/
structure ResultTable where
  types : List TSDataType
  rows : List TableRow
  width : types.length < 2 ^ 31
  insertable : ∀ ty ∈ types, ty.insertable = true
  typed : ∀ row ∈ rows, List.Forall₂ CellOf types row.cells

/-! ## From rows to blocks -/

/-- The rows of a block, turned into columns. -/
def blockOf (types : List TSDataType) (rows : List TableRow) : TsBlock where
  positionCount := rows.length
  columnTypes := types
  timestamps := rows.map TableRow.time
  columns := (List.range types.length).map fun c ↦ rows.map fun row ↦ row.cells.getD c .null

/-- The bytes are some encoding of the rows, each column under its own type or its carrier. -/
def Carries (types : List TSDataType) (rows : List TableRow) (bytes : Slice) : Prop :=
  rows.length < 2 ^ 31 ∧ ∃ header encoded trailing,
    List.Forall₂ TSDataType.CarriedBy types header ∧
      EncodesUnder header (blockOf types rows) encoded ∧ bytes.val = encoded ++ trailing

theorem cell_typed {types : List TSDataType} {row : TableRow} {c : Nat} {ty : TSDataType}
    (hrow : List.Forall₂ CellOf types row.cells) (hty : types[c]? = some ty) :
    CellOf ty (row.cells.getD c .null) := by
  obtain ⟨hc, rfl⟩ := List.getElem?_eq_some_iff.mp hty
  have hc' : c < row.cells.length := hrow.length_eq ▸ hc
  rw [List.getD_eq_getElem _ _ hc']
  exact hrow.get hc hc'

theorem column_blockOf {types : List TSDataType} {rows : List TableRow} {c : Nat}
    (hc : c < types.length) :
    (blockOf types rows).columns[c]? = some (rows.map fun row ↦ row.cells.getD c .null) := by
  simp only [blockOf, List.getElem?_map, List.getElem?_range hc, Option.map_some]

theorem blockOf_wellFormed {types : List TSDataType} {rows : List TableRow}
    (hrows : rows.length < 2 ^ 31) (hwidth : types.length < 2 ^ 31)
    (hinsertable : ∀ ty ∈ types, ty.insertable = true)
    (htyped : ∀ row ∈ rows, List.Forall₂ CellOf types row.cells) :
    (blockOf types rows).WellFormed where
  rows := hrows
  width := hwidth
  times := List.length_map _
  columns := by simp only [blockOf, List.length_map, List.length_range]
  heights := by
    intro col hcol
    obtain ⟨c, -, rfl⟩ := List.mem_map.mp hcol
    exact List.length_map _
  types := hinsertable
  cells := by
    intro c ty col hty hcol v hv
    have hc : c < types.length := (List.getElem?_eq_some_iff.mp hty).1
    rw [column_blockOf hc, Option.some.injEq] at hcol
    rw [← hcol] at hv
    obtain ⟨row, hrow, rfl⟩ := List.mem_map.mp hv
    exact cell_typed (htyped row hrow) hty

/-! ## From blocks to pages -/

/-- The rows that the responses to the fetches from call `n` on carry. -/
inductive PagesOf (server : Server) (types : List TSDataType) :
    Nat → Bool → List TSFetchResultsResp → List TableRow → Prop where
  | done (n : Nat) : PagesOf server types n false [] []
  | page {n : Nat} {resp : TSFetchResultsResp} {chunks : List (List TableRow)}
      {rest : List TSFetchResultsResp} {rows : List TableRow}
      (hanswer : ∀ connection req, server.answer n connection (.fetchResults req) = .ok resp)
      (hstatus : checkStatus resp.status = .ok ())
      (hblocks : List.Forall₂ (Carries types) chunks (pageBlocks resp))
      (hrest : PagesOf server types (n + 1) (pageContinues resp) rest rows) :
      PagesOf server types n true (resp :: rest) (chunks.flatten ++ rows)

/-! ## From the table to the reader -/

/-- What the reader should see of a row in an output column. -/
def ColumnSource.shown (row : TableRow) : ColumnSource → Value
  | time => .timestamp row.time
  | value physical => row.cells.getD physical .null

def TableRow.shown (sources : List ColumnSource) (ignoreTimeStamp : Bool) (row : TableRow) : Row where
  timestamp := if ignoreTimeStamp then none else some row.time
  values := sources.map (ColumnSource.shown row)

/-- The handle names a source for each output column, and the logical type of each value column. -/
structure Describes (types : List TSDataType) (sources : List ColumnSource)
    (handle : QueryHandle) : Prop where
  columns : handle.columns.length = sources.length
  source : ∀ (k : Nat) (source : ColumnSource), sources[k]? = some source →
    columnSource handle.columnIndex2TsBlockColumnIndexList k = some source
  logical : ∀ k physical : Nat, sources[k]? = some (ColumnSource.value physical) →
    ∃ ty, types[physical]? = some ty ∧ handle.dataTypeList[k]? = some (TSDataType.name ty)

/-- What `execute_query_raw` makes of a good response. -/
def queryHandle (sql : String) (queryId : Int64) (resp : TSExecuteStatementResp) : QueryHandle where
  queryId := queryId
  statement := sql
  columns := resp.columns.getD []
  dataTypeList := resp.dataTypeList.getD []
  ignoreTimeStamp := resp.ignoreTimeStamp.getD false
  queryResult := resp.queryResult.getD []
  moreData := resp.moreData.getD false
  columnIndex2TsBlockColumnIndexList := resp.columnIndex2TsBlockColumnIndexList

section Blocks

variable {types : List TSDataType} {sources : List ColumnSource} {handle : QueryHandle}
  {rows : List TableRow}

-- The decoder leaves a cell under its header type; the name in `dataTypeList` brings it back.
theorem shown_value {header : List TSDataType} {i k physical : Nat}
    (htyped : ∀ row ∈ rows, List.Forall₂ CellOf types row.cells)
    (hheader : List.Forall₂ TSDataType.CarriedBy types header) (hi : i < rows.length)
    (hlogical : ∃ ty, types[physical]? = some ty ∧ handle.dataTypeList[k]? = some ty.name) :
    applyLogicalType ((ColumnSource.value physical).cell ((blockOf types rows).under header) i)
        handle.dataTypeList[k]? =
      (ColumnSource.value physical).shown rows[i] := by
  obtain ⟨ty, hty, hname⟩ := hlogical
  obtain ⟨hp, rfl⟩ := List.getElem?_eq_some_iff.mp hty
  have hp' : physical < header.length := hheader.length_eq ▸ hp
  have hcolumn : ((blockOf types rows).under header).columns[physical]? =
      some ((rows.map fun row ↦ row.cells.getD physical .null).map (Value.under header[physical])) := by
    rw [TsBlock.under, List.getElem?_zipWith, List.getElem?_eq_getElem hp', column_blockOf hp]
  have hcell : (ColumnSource.value physical).cell ((blockOf types rows).under header) i =
      (rows[i].cells.getD physical .null).under header[physical] := by
    simp only [ColumnSource.cell, List.getD_eq_getElem?_getD, hcolumn, Option.getD_some,
      List.getElem?_map, List.getElem?_eq_getElem hi, Option.map_some]
  rw [hcell, hname]
  exact applyLogicalType_under (cell_typed (htyped _ (List.getElem_mem hi)) hty)
    (hheader.get hp hp')

theorem rowOf_under {header : List TSDataType} {i : Nat}
    (htyped : ∀ row ∈ rows, List.Forall₂ CellOf types row.cells)
    (hheader : List.Forall₂ TSDataType.CarriedBy types header)
    (hdescribes : Describes types sources handle) (hi : i < rows.length) :
    rowOf handle ((blockOf types rows).under header) i =
      rows[i].shown sources handle.ignoreTimeStamp := by
  have htime : ((blockOf types rows).under header).timestamps.getD i 0 = rows[i].time := by
    have hlt : i < (rows.map TableRow.time).length := by rwa [List.length_map]
    change (rows.map TableRow.time).getD i 0 = _
    rw [List.getD_eq_getElem _ _ hlt, List.getElem_map]
  have hvalues : (rowOf handle ((blockOf types rows).under header) i).values =
      sources.map (ColumnSource.shown rows[i]) := by
    apply List.ext_getElem
    · simp only [rowOf, List.length_map, List.length_range, hdescribes.columns]
    · intro k hk hk'
      rw [List.length_map] at hk'
      have hsource : sources[k]? = some sources[k] := List.getElem?_eq_getElem hk'
      simp only [rowOf, List.getElem_map, List.getElem_range, hdescribes.source k _ hsource]
      cases hcase : sources[k] with
      | time =>
          change applyLogicalType (.timestamp _) _ = Value.timestamp _
          rw [applyLogicalType_timestamp, htime]
      | value physical =>
          rw [hcase] at hsource
          exact shown_value htyped hheader hi (hdescribes.logical k physical hsource)
  have hstamp : (rowOf handle ((blockOf types rows).under header) i).timestamp =
      (rows[i].shown sources handle.ignoreTimeStamp).timestamp := by
    simp only [rowOf, TableRow.shown, htime]
  exact (Row.mk.injEq ..).mpr ⟨hstamp, hvalues⟩

end Blocks

variable {table : ResultTable} {sources : List ColumnSource} {handle : QueryHandle}

theorem sliceRows_of_carries {rows : List TableRow} {bytes : Slice}
    (hdescribes : Describes table.types sources handle) (hmem : ∀ row ∈ rows, row ∈ table.rows)
    (h : Carries table.types rows bytes) :
    Deliverable handle bytes ∧
      sliceRows handle bytes = rows.map (TableRow.shown sources handle.ignoreTimeStamp) := by
  obtain ⟨hrows, header, encoded, trailing, hheader, hencodes, hbytes⟩ := h
  have htyped : ∀ row ∈ rows, List.Forall₂ CellOf table.types row.cells :=
    fun row hrow ↦ table.typed row (hmem row hrow)
  have hwell := blockOf_wellFormed hrows table.width table.insertable htyped
  have hdecode : TsBlock.decode bytes = .ok ((blockOf table.types rows).under header) :=
    decode_of_consumes (consumes_block_under hwell hheader hencodes) hbytes
  constructor
  · refine ⟨_, hdecode, ?_⟩
    intro ordinal hordinal
    rw [hdescribes.columns] at hordinal
    have hsource : sources[ordinal]? = some sources[ordinal] := List.getElem?_eq_getElem hordinal
    refine ⟨sources[ordinal], hdescribes.source ordinal _ hsource, ?_⟩
    cases hcase : sources[ordinal] with
    | time => trivial
    | value physical =>
        rw [hcase] at hsource
        obtain ⟨ty, hty, -⟩ := hdescribes.logical ordinal physical hsource
        have hp : physical < table.types.length := (List.getElem?_eq_some_iff.mp hty).1
        have hlen : table.types.length = header.length := hheader.length_eq
        show physical < ((blockOf table.types rows).under header).columns.length
        simp only [TsBlock.under, blockOf, List.length_zipWith, List.length_map, List.length_range]
        omega
  · rw [sliceRows, hdecode]
    apply List.ext_getElem
    · simp only [blockRows, TsBlock.under, blockOf, List.length_map, List.length_range]
    · intro i hi hi'
      rw [List.length_map] at hi'
      simp only [blockRows, List.getElem_map, List.getElem_range]
      exact rowOf_under htyped hheader hdescribes hi'

theorem blocksRows_of_carries {chunks : List (List TableRow)} {blocks : List Slice}
    (hdescribes : Describes table.types sources handle)
    (hmem : ∀ row ∈ chunks.flatten, row ∈ table.rows)
    (h : List.Forall₂ (Carries table.types) chunks blocks) :
    (∀ bytes ∈ blocks, Deliverable handle bytes) ∧ blocksRows handle blocks =
      chunks.flatten.map (TableRow.shown sources handle.ignoreTimeStamp) := by
  induction h with
  | nil =>
      constructor
      · intro bytes hbytes
        cases hbytes
      · rfl
  | @cons chunk bytes chunks blocks hcarries _ ih =>
      rw [List.flatten_cons, List.forall_mem_append] at hmem
      have hhead := sliceRows_of_carries hdescribes hmem.1 hcarries
      have htail := ih hmem.2
      constructor
      · exact List.forall_mem_cons.mpr ⟨hhead.1, htail.1⟩
      · change sliceRows handle bytes ++ blocksRows handle blocks = _
        rw [hhead.2, htail.2, List.flatten_cons, List.map_append]

theorem PagesOf.script {server : Server} {n : Nat} {more : Bool} {pages : List TSFetchResultsResp}
    {rows : List TableRow} (hdescribes : Describes table.types sources handle)
    (h : PagesOf server table.types n more pages rows) (hmem : ∀ row ∈ rows, row ∈ table.rows) :
    Script server handle n more pages ∧
      pagesRows handle pages = rows.map (TableRow.shown sources handle.ignoreTimeStamp) := by
  induction h with
  | done n => exact ⟨.done n, rfl⟩
  | @page n resp chunks rest rows hanswer hstatus hblocks _ ih =>
      rw [List.forall_mem_append] at hmem
      have hpage := blocksRows_of_carries hdescribes hmem.1 hblocks
      have hrest := ih hmem.2
      constructor
      · exact .page hanswer hstatus hpage.1 hrest.1
      · change blocksRows handle (pageBlocks resp) ++ pagesRows handle rest = _
        rw [hpage.2, hrest.2, List.map_append]

/-! ## The whole query -/

-- Every row that is owed, then the end, and every page fetched once.
theorem nextRows_all {server : Server} {fuel : Nat} {start : DataSetState}
    {pages : List TSFetchResultsResp} (h : Iterating server handle start pages)
    (hfuel : work start.1 pages < fuel) :
    ∃ st, nextRows server fuel
        ((cached handle start.1 ++ pagesRows handle pages).length + 1) start =
        some ((cached handle start.1 ++ pagesRows handle pages).map (fun row ↦ .ok (some row)) ++
          [.ok none], st) ∧
      st.1.closed = true ∧ fetches st = fetches start + pages.length := by
  obtain ⟨st, done, rest, hdelivered, hwork, hrun⟩ := nextRows_rows fuel _ h hfuel le_rfl
  have hnil : cached handle st.1 ++ pagesRows handle rest = [] := by
    obtain ⟨out, hlen, hout⟩ := hdelivered.rows
    have hsplit : cached handle start.1 ++ pagesRows handle pages =
        out ++ (cached handle st.1 ++ pagesRows handle rest) := by
      rw [hdelivered.split, pagesRows_append, ← List.append_assoc, hout, List.append_assoc]
    have hcount := congrArg List.length hsplit
    rw [@List.length_append _ out, hlen] at hcount
    exact List.length_eq_zero_iff.mp (by omega)
  obtain ⟨st', hlast, hclosed, hfetches⟩ := nextRowLoop_end fuel hdelivered.next hwork hnil
  rw [← nextRow_of_open hdelivered.next.opened] at hlast
  refine ⟨st', ?_, hclosed, ?_⟩
  · rw [nextRows_append, hrun, Option.bind_some, nextRows_one hlast, Option.map_some,
      List.take_length]
  · rw [hfetches, hdelivered.fetches, hdelivered.split, List.length_append, Nat.add_assoc]

-- Whichever attempt got through, its response was the server's.
theorem executeQueryRaw_answered {server : Server} {sql : String} {before after : Session × World}
    {resp : TSExecuteStatementResp}
    (hanswer : ∀ n connection req resp',
      server.answer n connection (.executeQuery req) = .ok resp' → resp' = resp)
    (h : Session.executeQueryRaw server sql before = (.ok handle, after)) :
    ∃ queryId, handle = queryHandle sql queryId resp := by
  have hretried := Session.withRetry_spec server (Session.sends_query server sql) before
  simp only [Session.executeQueryRaw, bind_apply] at h
  generalize Session.withRetry server (Session.sendQuery server sql) before = result at h hretried
  obtain ⟨fault | answered, last⟩ := result
  · cases h
  · have hresp : answered = resp := by
      cases hretried with
      | first hconn hreply => exact hanswer _ _ _ _ hreply
      | second _ _ _ _ hfresh hreply => exact hanswer _ _ _ _ hreply
    rw [hresp] at h
    simp only [ofOutcome_apply] at h
    cases hstatus : checkStatus resp.status with
    | error fault =>
        rw [hstatus] at h
        cases h
    | ok _ =>
        simp only [hstatus] at h
        cases hid : resp.queryId with
        | none =>
            rw [hid] at h
            cases h
        | some queryId =>
            rw [hid] at h
            cases h
            exact ⟨queryId, rfl⟩

/-- A query that succeeds returns the rows of the server's table, however the server cuts them into
blocks, encodes the blocks and spreads them over pages: each row once and in order, its cells as they
were, then the end. -/
theorem query_returns_table {server : Server} {sql : String} {before after : Session × World}
    {handle : QueryHandle} {resp : TSExecuteStatementResp} {table : ResultTable}
    {sources : List ColumnSource} {chunks : List (List TableRow)} {pages : List TSFetchResultsResp}
    {paged : List TableRow}
    (hanswer : ∀ n connection req resp',
      server.answer n connection (.executeQuery req) = .ok resp' → resp' = resp)
    (hquery : Session.executeQueryRaw server sql before = (.ok handle, after))
    (hdescribes : ∀ queryId, Describes table.types sources (queryHandle sql queryId resp))
    (hfirst : List.Forall₂ (Carries table.types) chunks (resp.queryResult.getD []))
    (hpages : PagesOf server table.types after.2.calls (resp.moreData.getD false) pages paged)
    (hrows : table.rows = chunks.flatten ++ paged) :
    ∃ enough, ∀ fuel ≥ enough, ∃ st,
      nextRows server fuel (table.rows.length + 1) (SessionDataSet.new handle, after) =
        some ((table.rows.map fun row ↦
            .ok (some (row.shown sources (resp.ignoreTimeStamp.getD false)))) ++ [.ok none], st) ∧
      fetches st = fetches (SessionDataSet.new handle, after) + pages.length ∧
      ∀ fuel', nextRow server fuel' st = some (.ok none, st) := by
  obtain ⟨query, -, hconn, -⟩ := Session.holds_of_executeQueryRaw hquery
  obtain ⟨queryId, rfl⟩ := executeQueryRaw_answered hanswer hquery
  have hmem : ∀ row ∈ chunks.flatten ++ paged, row ∈ table.rows := fun row hrow ↦ hrows ▸ hrow
  rw [List.forall_mem_append] at hmem
  have hblocks := blocksRows_of_carries (hdescribes queryId) hmem.1 hfirst
  have hscript := hpages.script (hdescribes queryId) hmem.2
  have hstart : Iterating server (queryHandle sql queryId resp)
      (SessionDataSet.new (queryHandle sql queryId resp), after) pages :=
    ⟨⟨rfl, rfl, rfl, rfl⟩, rfl, hblocks.1, (fun _ h ↦ by cases h),
      .inr (Option.isSome_iff_exists.mpr ⟨_, hconn⟩), hscript.1⟩
  -- what the first response and the pages hold is the table
  have howed : cached (queryHandle sql queryId resp)
      (SessionDataSet.new (queryHandle sql queryId resp)) ++
        pagesRows (queryHandle sql queryId resp) pages =
      table.rows.map (TableRow.shown sources (resp.ignoreTimeStamp.getD false)) := by
    change blocksRows _ (resp.queryResult.getD []) ++ _ = _
    rw [hblocks.2, hscript.2, hrows, List.map_append]
    rfl
  refine ⟨work (SessionDataSet.new (queryHandle sql queryId resp)) pages + 1, fun fuel hfuel ↦ ?_⟩
  obtain ⟨st, hrun, hclosed, hfetches⟩ := nextRows_all hstart hfuel
  rw [howed, List.length_map, List.map_map] at hrun
  exact ⟨st, hrun, hfetches, fun fuel' ↦ nextRow_of_closed hclosed⟩

/-! ### A table sent twice over -/

def peopleRows : List TableRow :=
  [⟨5, [.blob [255], .null, .timestamp 3, .string "a"]⟩,
    ⟨9, [.blob [97], .date 20260713, .timestamp 3, .null]⟩]

def peopleTypes : List TSDataType := [.blob, .date, .timestamp, .string]

theorem peopleRows_typed : ∀ row ∈ peopleRows ++ peopleRows,
    List.Forall₂ CellOf peopleTypes row.cells := by
  have hfirst : List.Forall₂ CellOf peopleTypes [.blob [255], .null, .timestamp 3, .string "a"] :=
    .cons ⟨.inr rfl, by decide⟩ (.cons ⟨.inl rfl, by decide⟩ (.cons ⟨.inr rfl, by decide⟩
      (.cons ⟨.inr rfl, by decide⟩ .nil)))
  have hsecond : List.Forall₂ CellOf peopleTypes
      [.blob [97], .date 20260713, .timestamp 3, .null] :=
    .cons ⟨.inr rfl, by decide⟩ (.cons ⟨.inr rfl, by decide⟩ (.cons ⟨.inr rfl, by decide⟩
      (.cons ⟨.inl rfl, by decide⟩ .nil)))
  intro row hrow
  simp only [peopleRows, List.cons_append, List.nil_append, List.mem_cons, List.not_mem_nil,
    or_false] at hrow
  rcases hrow with rfl | rfl | rfl | rfl
  · exact hfirst
  · exact hsecond
  · exact hfirst
  · exact hsecond

theorem peopleTypes_width : peopleTypes.length < 2 ^ 31 := by decide

theorem peopleTypes_insertable : ∀ ty ∈ peopleTypes, ty.insertable = true := by decide

def peopleTable : ResultTable where
  types := peopleTypes
  rows := peopleRows ++ peopleRows
  width := peopleTypes_width
  insertable := peopleTypes_insertable
  typed := peopleRows_typed

def peopleSlice : Slice := ⟨sampleLogicalBytes, by decide⟩

theorem carries_peopleSlice : Carries peopleTypes peopleRows peopleSlice := by
  have hheader : List.Forall₂ TSDataType.CarriedBy peopleTypes [.text, .int32, .int64, .string] :=
    .cons (.inr rfl) (.cons (.inr rfl) (.cons (.inr rfl) (.cons (.inl rfl) .nil)))
  exact ⟨by decide, _, _, [], hheader, sampleLogicalBlock_encodes, (List.append_nil _).symm⟩

/-- The columns in another order, the time among them and one left out. -/
def peopleResp : TSExecuteStatementResp where
  status := .mk 200 none none none
  queryId := some 7
  columns := some ["Time", "name", "photo", "born"]
  ignoreTimeStamp := some true
  dataTypeList := some ["TIMESTAMP", "STRING", "BLOB", "DATE"]
  queryResult := some [peopleSlice]
  moreData := some true
  database := none
  columnIndex2TsBlockColumnIndexList := some [-1, 3, 0, 1]

/-- A page without a result set, then one with a block. -/
def peoplePages : List TSFetchResultsResp :=
  [⟨.mk 200 none none none, true, none, some true⟩,
    ⟨.mk 200 none none none, true, some [peopleSlice], none⟩]

def peopleServer : Server where
  connect _ _ _ := none
  answer
    | _, _, .executeQuery _ => .ok peopleResp
    | 1, _, .fetchResults _ => .ok ⟨.mk 200 none none none, true, none, some true⟩
    | 2, _, .fetchResults _ => .ok ⟨.mk 200 none none none, true, some [peopleSlice], none⟩
    | _, _, _ => .error "not scripted"

def peopleSources : List ColumnSource := [.time, .value 3, .value 0, .value 1]

theorem describes_people (queryId : Int64) :
    Describes peopleTypes peopleSources (queryHandle "SELECT" queryId peopleResp) where
  columns := rfl
  source := by
    intro k source hsource
    have hk : k < 4 := (List.getElem?_eq_some_iff.mp hsource).1
    interval_cases k <;> cases hsource <;> rfl
  logical := by
    intro k physical hsource
    have hk : k < 4 := (List.getElem?_eq_some_iff.mp hsource).1
    interval_cases k <;> cases hsource
    · exact ⟨.string, rfl, rfl⟩
    · exact ⟨.blob, rfl, rfl⟩
    · exact ⟨.date, rfl, rfl⟩

theorem peoplePages_rows : PagesOf peopleServer peopleTypes 1 true peoplePages peopleRows := by
  have hempty : List.Forall₂ (Carries peopleTypes) [] [] := .nil
  have hblock : List.Forall₂ (Carries peopleTypes) [peopleRows] [peopleSlice] :=
    .cons carries_peopleSlice .nil
  have hlast : PagesOf peopleServer peopleTypes 2 true (peoplePages.drop 1)
      ([peopleRows].flatten ++ []) :=
    .page (fun _ _ ↦ rfl) rfl hblock (.done 3)
  have hpages : PagesOf peopleServer peopleTypes 1 true peoplePages
      ([].flatten ++ ([peopleRows].flatten ++ [])) :=
    .page (fun _ _ ↦ rfl) rfl hempty hlast
  exact hpages

theorem query_returns_table_sample :
    ∃ handle after enough, Session.executeQueryRaw peopleServer "SELECT" (openSession, ⟨0, 0, 0⟩) =
        (.ok handle, after) ∧
      ∀ fuel ≥ enough, ∃ st, nextRows peopleServer fuel 5 (SessionDataSet.new handle, after) =
        some ([.ok (some ⟨none, [.timestamp 5, .string "a", .blob [255], .null]⟩),
          .ok (some ⟨none, [.timestamp 9, .null, .blob [97], .date 20260713]⟩),
          .ok (some ⟨none, [.timestamp 5, .string "a", .blob [255], .null]⟩),
          .ok (some ⟨none, [.timestamp 9, .null, .blob [97], .date 20260713]⟩), .ok none], st) := by
  have hanswer : ∀ n connection req resp',
      peopleServer.answer n connection (.executeQuery req) = .ok resp' → resp' = peopleResp := by
    intro n connection req resp' h
    exact (Except.ok.inj h).symm
  have hfirst : List.Forall₂ (Carries peopleTable.types) [peopleRows] [peopleSlice] :=
    .cons carries_peopleSlice .nil
  have hquery : Session.executeQueryRaw peopleServer "SELECT" (openSession, ⟨0, 0, 0⟩) =
      (.ok (queryHandle "SELECT" 7 peopleResp), _) := rfl
  obtain ⟨enough, h⟩ := @query_returns_table _ _ _ _ _ _ peopleTable _ _ _ _ hanswer hquery
    describes_people hfirst peoplePages_rows rfl
  refine ⟨_, _, enough, hquery, fun fuel hfuel ↦ ?_⟩
  obtain ⟨st, hrun, -⟩ := h fuel hfuel
  exact ⟨st, hrun⟩

end IotdbClient
