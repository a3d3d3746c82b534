import IotdbClient.Client.Protocol
import IotdbClient.Data.Record
import IotdbClient.Data.TabletServer

/-!
# Insert requests

How the insert calls turn their arguments into requests, before anything is sent.
-/

namespace IotdbClient

open Library

/-- The request `insert_tablet` hands to its RPC, by way of `insert_tablet_raw`. -/
def insertTabletReq (sessionId : Int64) (tablet : Tablet) : Result TSInsertTabletReq := do
  let (values, tablet) ← tablet.serializeValues
  let (timestamps, tablet) ← tablet.serializeTimestamps
  let (writeToTable, columnCategories) :=
    match tablet.columnCategories with
    | some categories => (some true, some (categories.map ColumnCategory.code))
    | none => (none, none)
  pure {
    sessionId := sessionId
    prefixPath := tablet.target
    measurements := tablet.measurements
    values := values
    timestamps := timestamps
    types := tablet.types.map TSDataType.code
    size := usizeAsI32 tablet.rowCount
    isAligned := some tablet.aligned
    writeToTable := writeToTable
    columnCategories := columnCategories }

/-- The loop body of `build_insert_tablets_req`: one entry for each of its parallel lists. -/
def pushTablet (req : TSInsertTabletsReq) (tablet : Tablet) : Result TSInsertTabletsReq :=
  if tablet.isTableModel then
    fail (.client <| s!"insert_tablets is tree-model only; tablet for table {strDebug tablet.target} " ++
      "must go through insert_tablet")
  else do
    let (values, tablet) ← tablet.serializeValues
    let (timestamps, tablet) ← tablet.serializeTimestamps
    pure { req with
      prefixPaths := req.prefixPaths ++ [tablet.target]
      measurementsList := req.measurementsList ++ [tablet.measurements]
      valuesList := req.valuesList ++ [values]
      timestampsList := req.timestampsList ++ [timestamps]
      typesList := req.typesList ++ [tablet.types.map TSDataType.code]
      sizeList := req.sizeList ++ [usizeAsI32 tablet.rowCount] }

def buildInsertTabletsReq (sessionId : Int64) (tablets : List Tablet) (isAligned : Bool) :
    Result TSInsertTabletsReq :=
  if tablets.isEmpty then fail (.client "insert_tablets called with no tablets")
  else tablets.foldlM pushTablet ⟨sessionId, [], [], [], [], [], [], some isAligned⟩

/-- One record row must pair each measurement with exactly one value. -/
def checkRecordArity (measurements : List String) (values : List Value) : Result Unit :=
  if measurements.length ≠ values.length then
    fail (.client s!"record has {values.length} values for {measurements.length} measurements")
  else pure ()

def filterNullCells (measurements : List String) (values : List Value) :
    List String × List Value :=
  if !values.any Value.isNull then (measurements, values)
  else ((measurements.zip values).filter fun (_, v) ↦ !v.isNull).unzip

/-- `sort_one_device_rows`. -/
def sortOneDeviceRows (timestamps : List Int64) (measurementsList : List (List String))
    (valuesList : List (List Value)) :
    Result (List Int64 × List (List String) × List (List UInt8)) :=
  let order := sortByKey (fun i ↦ (timestamps.getD i 0).toInt) (List.range timestamps.length)
  if order.zipIdx.all fun (i, pos) ↦ pos == i then
    pure (timestamps, measurementsList, valuesList.map serializeRecordValues)
  else do
    let sortedTimestamps ← order.mapM (index timestamps)
    let sortedMeasurements ← order.mapM (index measurementsList)
    let sortedValues ← order.mapM (index valuesList)
    pure (sortedTimestamps, sortedMeasurements, sortedValues.map serializeRecordValues)

/-- The request of `insert_record`. -/
def insertRecordReq (sessionId : Int64) (deviceId : String) (timestamp : Int64)
    (measurements : List String) (values : List Value) (isAligned : Bool) :
    Result TSInsertRecordReq := do
  checkRecordArity measurements values
  let (measurements, values) := filterNullCells measurements values
  if values.isEmpty then fail (.client "all insert values are null")
  else pure {
    sessionId := sessionId
    prefixPath := deviceId
    measurements := measurements
    values := serializeRecordValues values
    timestamp := timestamp
    isAligned := some isAligned }

/-- The filtering loop of `insert_records`: a fully-null row is dropped. -/
def keepRecords : List (((String × Int64) × List String) × List Value) →
    Result (List (String × Int64 × List String × List UInt8))
  | [] => pure []
  | (((device, ts), measurements), values) :: rest => do
      checkRecordArity measurements values
      let (measurements, values) := filterNullCells measurements values
      let kept ← keepRecords rest
      if values.isEmpty then pure kept
      else pure ((device, ts, measurements, serializeRecordValues values) :: kept)

/-- The request of `insert_records`. -/
def insertRecordsReq (sessionId : Int64) (deviceIds : List String) (timestamps : List Int64)
    (measurementsList : List (List String)) (valuesList : List (List Value)) (isAligned : Bool) :
    Result TSInsertRecordsReq := do
  let n := deviceIds.length
  if timestamps.length ≠ n ∨ measurementsList.length ≠ n ∨ valuesList.length ≠ n then
    fail (.client <| s!"insert_records length mismatch: {n} devices, {timestamps.length} timestamps, " ++
      s!"{measurementsList.length} measurement lists, {valuesList.length} value lists")
  else do
    let kept ← keepRecords (((deviceIds.zip timestamps).zip measurementsList).zip valuesList)
    if kept.isEmpty then fail (.client "all insert values are null")
    else pure {
      sessionId := sessionId
      prefixPaths := kept.map fun (device, _, _, _) ↦ device
      measurementsList := kept.map fun (_, _, measurements, _) ↦ measurements
      valuesList := kept.map fun (_, _, _, buffer) ↦ buffer
      timestamps := kept.map fun (_, ts, _, _) ↦ ts
      isAligned := some isAligned }

/-- The filtering loop of `insert_records_of_one_device`. -/
def keepRows : List ((Int64 × List String) × List Value) →
    Result (List (Int64 × List String × List Value))
  | [] => pure []
  | ((ts, measurements), values) :: rest => do
      checkRecordArity measurements values
      let (measurements, values) := filterNullCells measurements values
      let kept ← keepRows rest
      if values.isEmpty then pure kept else pure ((ts, measurements, values) :: kept)

/-- The request of `insert_records_of_one_device`. -/
def insertRecordsOfOneDeviceReq (sessionId : Int64) (deviceId : String) (timestamps : List Int64)
    (measurementsList : List (List String)) (valuesList : List (List Value)) (isAligned : Bool) :
    Result TSInsertRecordsOfOneDeviceReq := do
  let n := timestamps.length
  if measurementsList.length ≠ n ∨ valuesList.length ≠ n then
    fail (.client <| s!"insert_records_of_one_device length mismatch: {n} timestamps, " ++
      s!"{measurementsList.length} measurement lists, {valuesList.length} value lists")
  else do
    let kept ← keepRows ((timestamps.zip measurementsList).zip valuesList)
    if kept.isEmpty then fail (.client "all insert values are null")
    else do
      let (timestamps, measurementsList, valuesBuffers) ← sortOneDeviceRows
        (kept.map fun (ts, _, _) ↦ ts) (kept.map fun (_, measurements, _) ↦ measurements)
        (kept.map fun (_, _, values) ↦ values)
      pure {
        sessionId := sessionId
        prefixPath := deviceId
        measurementsList := measurementsList
        valuesList := valuesBuffers
        timestamps := timestamps
        isAligned := some isAligned }

/-! ## Tablets on the wire -/

open TabletServer

/-- A tablet of the public API that the wire format can carry, with the rows added to it. -/
structure WireReady (t : Tablet) (rows : List TabletRow) : Prop where
  built : Tablet.Built t rows
  insertable : ∀ ty ∈ t.types, ty.insertable = true
  payload : ∀ row ∈ rows, ∀ v, some v ∈ row.2 → v.payload.length < 2 ^ 31
  count : rows.length < 2 ^ 31

theorem WireReady.encodable {t : Tablet} {rows : List TabletRow} (h : WireReady t rows) :
    Encodable t.types rows where
  insertable := h.insertable
  fits := h.built.image.2.2
  payload := h.payload

theorem WireReady.serialize {t : Tablet} {rows : List TabletRow} (h : WireReady t rows) :
    ∃ values timestamps, t.serializeValues = .ok (values, Tablet.ofRows t (sortByKey Tablet.timeKey rows)) ∧
      (Tablet.ofRows t (sortByKey Tablet.timeKey rows)).serializeTimestamps =
        .ok (timestamps, Tablet.ofRows t (sortByKey Tablet.timeKey rows)) ∧
      decodeTablet (t.types.map TSDataType.code) (usizeAsI32 rows.length) values timestamps =
        some (sortByKey Tablet.timeKey (rows.map normalizeRow), [], []) := by
  obtain ⟨hvalues, htimes⟩ := serialize_built h.built h.encodable
  have hsorted : Encodable t.types (sortByKey Tablet.timeKey rows) :=
    h.encodable.perm fun _ ↦ mem_sortByKey
  have hdecode := decodeTablet_image hsorted (by rw [sortByKey_length]; exact h.count)
  have hnorm := sortByKey_map Tablet.timeKey normalizeRow rows
  change (sortByKey Tablet.timeKey rows).map normalizeRow = _ at hnorm
  rw [sortByKey_length, hnorm] at hdecode
  exact ⟨_, _, hvalues, htimes, hdecode⟩

/-- What the server makes of one tablet's four request fields: it consumes both buffers and returns
the rows added, stably sorted by timestamp, with the cells given as null decoded as null. -/
def DecodesTo (rows : List TabletRow) (types : List Int32) (size : Int32)
    (values timestamps : List UInt8) : Prop :=
  ∃ out, decodeTablet types size values timestamps = some (out, [], []) ∧
    StablySorted Tablet.timeKey (rows.map normalizeRow) out

theorem rowCount_sorted (t : Tablet) (rows : List TabletRow) :
    (Tablet.ofRows t (sortByKey Tablet.timeKey rows)).rowCount = rows.length := by
  simp [Tablet.rowCount, Tablet.ofRows]

theorem insertTabletReq_decodes {t : Tablet} {rows : List TabletRow} (h : WireReady t rows)
    (sessionId : Int64) :
    ∃ req, insertTabletReq sessionId t = .ok req ∧
      DecodesTo rows req.types req.size req.values req.timestamps := by
  obtain ⟨values, timestamps, hvalues, htimes, hdecode⟩ := h.serialize
  have hcount := rowCount_sorted t rows
  unfold insertTabletReq
  rw [hvalues]
  change ∃ req, ((Tablet.ofRows t (sortByKey Tablet.timeKey rows)).serializeTimestamps >>= _) = _ ∧ _
  rw [htimes]
  refine ⟨_, rfl, _, ?_, sortByKey_stablySorted _ _⟩
  change decodeTablet _ (usizeAsI32 (Tablet.ofRows t (sortByKey Tablet.timeKey rows)).rowCount) _ _ = _
  rw [hcount]
  exact hdecode

/-- One tablet's entries in the parallel lists of `TSInsertTabletsReq`. -/
structure TabletEntry where
  prefixPath : String
  measurements : List String
  values : List UInt8
  timestamps : List UInt8
  types : List Int32
  size : Int32

def TSInsertTabletsReq.append (req : TSInsertTabletsReq) (entries : List TabletEntry) :
    TSInsertTabletsReq :=
  { req with
    prefixPaths := req.prefixPaths ++ entries.map TabletEntry.prefixPath
    measurementsList := req.measurementsList ++ entries.map TabletEntry.measurements
    valuesList := req.valuesList ++ entries.map TabletEntry.values
    timestampsList := req.timestampsList ++ entries.map TabletEntry.timestamps
    typesList := req.typesList ++ entries.map TabletEntry.types
    sizeList := req.sizeList ++ entries.map TabletEntry.size }

theorem append_nil (req : TSInsertTabletsReq) : req.append [] = req := by
  simp [TSInsertTabletsReq.append]

theorem append_append (req : TSInsertTabletsReq) (entries entries' : List TabletEntry) :
    (req.append entries).append entries' = req.append (entries ++ entries') := by
  simp [TSInsertTabletsReq.append]

theorem pushTablet_decodes {t : Tablet} {rows : List TabletRow} (h : WireReady t rows)
    (htree : t.isTableModel = false) (req : TSInsertTabletsReq) :
    ∃ entry, pushTablet req t = .ok (req.append [entry]) ∧
      DecodesTo rows entry.types entry.size entry.values entry.timestamps := by
  obtain ⟨values, timestamps, hvalues, htimes, hdecode⟩ := h.serialize
  have hcount := rowCount_sorted t rows
  refine ⟨⟨t.target, t.measurements, values, timestamps, t.types.map TSDataType.code,
    usizeAsI32 rows.length⟩, ?_, _, hdecode, sortByKey_stablySorted _ _⟩
  unfold pushTablet
  rw [if_neg (by rw [htree]; decide), hvalues]
  change ((Tablet.ofRows t (sortByKey Tablet.timeKey rows)).serializeTimestamps >>= _) = _
  rw [htimes, ← hcount]
  rfl

-- The batch loop: the entries pushed so far stay in front, each new tablet adds its own.
theorem foldlM_pushTablet (batch : List (Tablet × List TabletRow))
    (h : ∀ p ∈ batch, WireReady p.1 p.2 ∧ p.1.isTableModel = false) (req : TSInsertTabletsReq) :
    ∃ entries, (batch.map Prod.fst).foldlM pushTablet req = .ok (req.append entries) ∧
      List.Forall₂ (fun p entry ↦
        DecodesTo p.2 entry.types entry.size entry.values entry.timestamps) batch entries := by
  induction batch generalizing req with
  | nil => exact ⟨[], by rw [append_nil]; rfl, .nil⟩
  | cons p batch ih =>
      rw [List.forall_mem_cons] at h
      obtain ⟨entry, hpush, hentry⟩ := pushTablet_decodes h.1.1 h.1.2 req
      obtain ⟨entries, hfold, hentries⟩ := ih h.2 (req.append [entry])
      refine ⟨entry :: entries, ?_, .cons hentry hentries⟩
      rw [List.map_cons, List.foldlM_cons, hpush]
      change (batch.map Prod.fst).foldlM pushTablet (req.append [entry]) = _
      rw [hfold, append_append, List.singleton_append]

/-- The buffers of `insert_tablet`, and those at index `i` of a batch, decode to the rows added. -/
theorem tablet_wire_roundTrip :
    (∀ (t : Tablet) (rows : List TabletRow) (sessionId : Int64), WireReady t rows →
      ∃ req, insertTabletReq sessionId t = .ok req ∧
        DecodesTo rows req.types req.size req.values req.timestamps) ∧
    (∀ (batch : List (Tablet × List TabletRow)) (sessionId : Int64) (isAligned : Bool), batch ≠ [] →
      (∀ p ∈ batch, WireReady p.1 p.2 ∧ p.1.isTableModel = false) →
      ∃ req, buildInsertTabletsReq sessionId (batch.map Prod.fst) isAligned = .ok req ∧
        ∀ (i : Nat) (p : Tablet × List TabletRow), batch[i]? = some p →
          ∃ types size values timestamps,
          req.typesList[i]? = some types ∧ req.sizeList[i]? = some size ∧
          req.valuesList[i]? = some values ∧ req.timestampsList[i]? = some timestamps ∧
          DecodesTo p.2 types size values timestamps) := by
  refine ⟨fun t rows sessionId h ↦ insertTabletReq_decodes h sessionId, ?_⟩
  intro batch sessionId isAligned hne h
  obtain ⟨entries, hfold, hentries⟩ :=
    foldlM_pushTablet batch h ⟨sessionId, [], [], [], [], [], [], some isAligned⟩
  have hbuild : buildInsertTabletsReq sessionId (batch.map Prod.fst) isAligned =
      (batch.map Prod.fst).foldlM pushTablet
        ⟨sessionId, [], [], [], [], [], [], some isAligned⟩ := by
    unfold buildInsertTabletsReq
    rw [if_neg (by simpa using hne)]
  rw [← hbuild] at hfold
  refine ⟨_, hfold, ?_⟩
  intro i p hp
  have hlen := hentries.length_eq
  have hi : i < entries.length := by
    rw [← hlen]
    exact (List.getElem?_eq_some_iff.mp hp).1
  have hentry : DecodesTo p.2 entries[i].types entries[i].size entries[i].values
      entries[i].timestamps := by
    have hget := List.Forall₂.get hentries (by rw [hlen]; exact hi) hi
    rw [List.getElem?_eq_some_iff] at hp
    rw [← hp.2]
    exact hget
  refine ⟨entries[i].types, entries[i].size, entries[i].values, entries[i].timestamps,
    ?_, ?_, ?_, ?_, hentry⟩ <;> simp [TSInsertTabletsReq.append, hi]

def sampleTablet : Tablet :=
  ⟨"root.sg.d1", ["s0", "s1"], [.int32, .text], [5, 1, 5],
    [[some (.int32 7), none, none], [some (.text "ab"), none, some (.text "")]], none, false⟩

def sampleRows : List TabletRow :=
  [(5, [some (.int32 7), some (.text "ab")]), (1, [none, none]), (5, [some .null, some (.text "")])]

theorem sampleTablet_ready : WireReady sampleTablet sampleRows where
  built := by
    have hnew : Tablet.new "root.sg.d1" ["s0", "s1"] [.int32, .text] =
      .ok ⟨"root.sg.d1", ["s0", "s1"], [.int32, .text], [], [[], []], none, false⟩ := rfl
    exact .addRow (.addRow (.addRow (.new hnew) rfl) rfl) rfl
  insertable := by decide
  payload := by
    intro row hrow v hv
    simp only [sampleRows, List.mem_cons, List.not_mem_nil, or_false] at hrow
    rcases hrow with rfl | rfl | rfl <;> simp at hv
    · rcases hv with rfl | rfl <;> decide
    · rcases hv with rfl | rfl <;> decide
  count := by decide

theorem tablet_wire_roundTrip_sample :
    WireReady sampleTablet sampleRows ∧
      (∃ req, insertTabletReq 1 sampleTablet = .ok req ∧
        DecodesTo sampleRows req.types req.size req.values req.timestamps) ∧
      ∃ req, buildInsertTabletsReq 1 [sampleTablet, sampleTablet] false = .ok req ∧
        ∃ types size values timestamps,
          req.typesList[1]? = some types ∧ req.sizeList[1]? = some size ∧
          req.valuesList[1]? = some values ∧ req.timestampsList[1]? = some timestamps ∧
          DecodesTo sampleRows types size values timestamps := by
  refine ⟨sampleTablet_ready, tablet_wire_roundTrip.1 _ _ 1 sampleTablet_ready, ?_⟩
  obtain ⟨req, hreq, hentry⟩ := tablet_wire_roundTrip.2
    [(sampleTablet, sampleRows), (sampleTablet, sampleRows)] 1 false (by simp)
    (by simpa using ⟨sampleTablet_ready, rfl⟩)
  exact ⟨req, hreq, hentry 1 (sampleTablet, sampleRows) rfl⟩

end IotdbClient
