import IotdbClient.Client.InsertPaths
import IotdbClient.Client.Retry

/-!
# Pairing in record requests

The record calls filter cells and rows and sort rows over parallel lists.  Here the lists of a
request are read off one list of rows, each with its device, its timestamp and its named non-null
cells, so that the lists are parallel and every cell stays with its measurement, row and device.
-/

namespace IotdbClient

open Library Program Session

/-- A row to insert, with its non-null cells in the order given. -/
structure CellRow where
  device : String
  timestamp : Int64
  cells : List (String × Value)
deriving Repr, DecidableEq

def nonNullCells (measurements : List String) (values : List Value) : List (String × Value) :=
  (measurements.zip values).filter fun p ↦ !p.2.isNull

namespace CellRow

def measurements (row : CellRow) : List String := row.cells.map Prod.fst

def buffer (row : CellRow) : List UInt8 := serializeRecordValues (row.cells.map Prod.snd)

def key (row : CellRow) : Int := row.timestamp.toInt

end CellRow

/-- The rows of the argument lists, in input order. -/
def rowsOf (deviceIds : List String) (timestamps : List Int64)
    (measurementsList : List (List String)) (valuesList : List (List Value)) : List CellRow :=
  (((deviceIds.zip timestamps).zip measurementsList).zip valuesList).map
    fun (((device, ts), measurements), values) ↦ ⟨device, ts, nonNullCells measurements values⟩

/-- The rows that have a non-null cell. -/
def keptRows (rows : List CellRow) : List CellRow := rows.filter fun row ↦ !row.cells.isEmpty

theorem keptRows_cons (row : CellRow) (rows : List CellRow) :
    keptRows (row :: rows) = if row.cells.isEmpty then keptRows rows else row :: keptRows rows := by
  unfold keptRows
  cases hempty : row.cells.isEmpty with
  | true => rw [List.filter_cons_of_neg (by simp [hempty]), if_pos rfl]
  | false => rw [List.filter_cons_of_pos (by simp [hempty]), if_neg Bool.false_ne_true]

/-- Every row pairs each measurement with one value. -/
def AritiesMatch (measurementsList : List (List String)) (valuesList : List (List Value)) : Prop :=
  List.Forall₂ (fun measurements values ↦ measurements.length = values.length)
    measurementsList valuesList

/-! ## The requests -/

-- Both branches of the filter give the non-null pairs, unzipped.
theorem filterNullCells_eq {measurements : List String} {values : List Value}
    (h : measurements.length = values.length) :
    filterNullCells measurements values = (nonNullCells measurements values).unzip := by
  obtain ⟨hlen, hzip, -⟩ := filterNullCells_spec h
  rw [nonNullCells, ← hzip, List.unzip_zip hlen]

theorem checkRecordArity_ok {measurements : List String} {values : List Value}
    (h : measurements.length = values.length) : checkRecordArity measurements values = .ok () := by
  rw [checkRecordArity, if_neg (not_not.mpr h)]
  rfl

theorem insertRecordReq_eq {measurements : List String} {values : List Value}
    (h : measurements.length = values.length) (sessionId : Int64) (deviceId : String)
    (timestamp : Int64) (isAligned : Bool) :
    insertRecordReq sessionId deviceId timestamp measurements values isAligned =
      if (nonNullCells measurements values).isEmpty then
        fail (.client "all insert values are null")
      else pure {
        sessionId := sessionId
        prefixPath := deviceId
        measurements := (nonNullCells measurements values).map Prod.fst
        values := serializeRecordValues ((nonNullCells measurements values).map Prod.snd)
        timestamp := timestamp
        isAligned := some isAligned } := by
  rw [insertRecordReq, checkRecordArity_ok h, filterNullCells_eq h, List.unzip_eq_map]
  simp only [List.isEmpty_map]
  rfl

theorem keepRecords_eq (l : List (((String × Int64) × List String) × List Value))
    (h : ∀ row ∈ l, row.1.2.length = row.2.length) :
    keepRecords l = .ok ((keptRows (l.map fun (((device, ts), measurements), values) ↦
      ⟨device, ts, nonNullCells measurements values⟩)).map
        fun row ↦ (row.device, row.timestamp, row.measurements, row.buffer)) := by
  induction l with
  | nil => rfl
  | cons row l ih =>
      obtain ⟨⟨⟨device, ts⟩, measurements⟩, values⟩ := row
      rw [List.forall_mem_cons] at h
      rw [keepRecords, checkRecordArity_ok h.1, filterNullCells_eq h.1, ih h.2, List.map_cons,
        keptRows_cons, List.unzip_eq_map]
      change (if (List.map Prod.snd (nonNullCells measurements values)).isEmpty then _ else _) = _
      rw [List.isEmpty_map]
      cases (nonNullCells measurements values).isEmpty with
      | true => rfl
      | false => rfl

theorem AritiesMatch.row {ι : Type} {keys : List ι} {measurementsList : List (List String)}
    {valuesList : List (List Value)} (h : AritiesMatch measurementsList valuesList)
    {row : (ι × List String) × List Value}
    (hrow : row ∈ (keys.zip measurementsList).zip valuesList) :
    row.1.2.length = row.2.length := by
  obtain ⟨i, hi, rfl⟩ := List.mem_iff_getElem.mp hrow
  simp only [List.length_zip, Nat.lt_min] at hi
  simp only [List.getElem_zip]
  exact h.get hi.1.2 hi.2

theorem insertRecordsReq_eq {deviceIds : List String} {timestamps : List Int64}
    {measurementsList : List (List String)} {valuesList : List (List Value)}
    (htimestamps : timestamps.length = deviceIds.length)
    (hmeasurements : measurementsList.length = deviceIds.length)
    (harity : AritiesMatch measurementsList valuesList) (sessionId : Int64) (isAligned : Bool) :
    insertRecordsReq sessionId deviceIds timestamps measurementsList valuesList isAligned =
      let kept := keptRows (rowsOf deviceIds timestamps measurementsList valuesList)
      if kept.isEmpty then fail (.client "all insert values are null")
      else pure {
        sessionId := sessionId
        prefixPaths := kept.map CellRow.device
        measurementsList := kept.map CellRow.measurements
        valuesList := kept.map CellRow.buffer
        timestamps := kept.map CellRow.timestamp
        isAligned := some isAligned } := by
  have hvalues : valuesList.length = deviceIds.length := harity.length_eq ▸ hmeasurements
  have hkeep := keepRecords_eq (((deviceIds.zip timestamps).zip measurementsList).zip valuesList)
    fun row hrow ↦ harity.row hrow
  change keepRecords _ =
    .ok ((keptRows (rowsOf deviceIds timestamps measurementsList valuesList)).map _) at hkeep
  unfold insertRecordsReq
  rw [if_neg (by omega), hkeep]
  change (if (List.map _ _).isEmpty then _ else _) = _
  rw [List.isEmpty_map]
  simp only [List.map_map]
  rfl

/-- The rows of a call for one device. -/
def rowsOfOneDevice (deviceId : String) (timestamps : List Int64)
    (measurementsList : List (List String)) (valuesList : List (List Value)) : List CellRow :=
  rowsOf (timestamps.map fun _ ↦ deviceId) timestamps measurementsList valuesList

theorem rowsOfOneDevice_eq (deviceId : String) (timestamps : List Int64)
    (measurementsList : List (List String)) (valuesList : List (List Value)) :
    rowsOfOneDevice deviceId timestamps measurementsList valuesList =
      ((timestamps.zip measurementsList).zip valuesList).map
        fun ((ts, measurements), values) ↦ ⟨deviceId, ts, nonNullCells measurements values⟩ := by
  apply List.ext_getElem
  · simp [rowsOfOneDevice, rowsOf]
  · intro i hi hi'
    simp [rowsOfOneDevice, rowsOf]

theorem keepRows_rows {timestamps : List Int64} {measurementsList : List (List String)}
    {valuesList : List (List Value)} (harity : AritiesMatch measurementsList valuesList)
    (deviceId : String) :
    keepRows ((timestamps.zip measurementsList).zip valuesList) =
      .ok ((keptRows (rowsOfOneDevice deviceId timestamps measurementsList valuesList)).map
        fun row ↦ (row.timestamp, row.measurements, row.cells.map Prod.snd)) := by
  have hrow : ∀ row ∈ (timestamps.zip measurementsList).zip valuesList,
      row.1.2.length = row.2.length := fun row hrow ↦ harity.row hrow
  rw [keepRows_eq _ hrow, rowsOfOneDevice_eq, keptRows]
  generalize (timestamps.zip measurementsList).zip valuesList = l at hrow
  have hkept : l.map keptRow = (l.map fun ((ts, measurements), values) ↦
      (⟨deviceId, ts, nonNullCells measurements values⟩ : CellRow)).map
        fun row ↦ (row.timestamp, row.measurements, row.cells.map Prod.snd) := by
    rw [List.map_map]
    apply List.map_congr_left
    intro row hmem
    rw [keptRow, filterNullCells_eq (hrow row hmem), List.unzip_eq_map]
    rfl
  rw [hkept, List.filter_map]
  congr 2
  apply List.filter_congr
  intro row _
  simp

theorem insertRecordsOfOneDeviceReq_eq {timestamps : List Int64}
    {measurementsList : List (List String)} {valuesList : List (List Value)}
    (hmeasurements : measurementsList.length = timestamps.length)
    (harity : AritiesMatch measurementsList valuesList) (sessionId : Int64) (deviceId : String)
    (isAligned : Bool) :
    insertRecordsOfOneDeviceReq sessionId deviceId timestamps measurementsList valuesList isAligned =
      let kept := keptRows (rowsOfOneDevice deviceId timestamps measurementsList valuesList)
      if kept.isEmpty then fail (.client "all insert values are null")
      else pure {
        sessionId := sessionId
        prefixPath := deviceId
        measurementsList := (sortByKey CellRow.key kept).map CellRow.measurements
        valuesList := (sortByKey CellRow.key kept).map CellRow.buffer
        timestamps := (sortByKey CellRow.key kept).map CellRow.timestamp
        isAligned := some isAligned } := by
  have hvalues : valuesList.length = timestamps.length := harity.length_eq ▸ hmeasurements
  unfold insertRecordsOfOneDeviceReq
  rw [if_neg (by omega), keepRows_rows harity deviceId]
  generalize keptRows (rowsOfOneDevice deviceId timestamps measurementsList valuesList) = kept
  change (if (List.map _ _).isEmpty then _ else _) = _
  rw [List.isEmpty_map, sortOneDeviceRows_eq, ← sortByKey_map keptKey]
  simp only [List.map_map]
  rfl

/-! ## What is sent -/

theorem nonNullCells_values {measurements : List String} {values : List Value}
    (h : measurements.length = values.length) :
    (nonNullCells measurements values).map Prod.snd = values.filter fun v ↦ !v.isNull := by
  have hvalues : (measurements.zip values).map Prod.snd = values := List.map_snd_zip h.ge
  conv_rhs => rw [← hvalues, List.filter_map]
  rfl

theorem nonNullCells_eq_nil {measurements : List String} {values : List Value}
    (h : measurements.length = values.length) :
    nonNullCells measurements values = [] ↔ ∀ v ∈ values, v = .null := by
  rw [← List.map_eq_nil_iff, nonNullCells_values h, List.filter_eq_nil_iff]
  apply forall₂_congr
  intro v _
  rw [← Value.isNull_iff]
  simp

/-- The row that a value list belongs to. -/
theorem exists_row_of_values {deviceIds : List String} {timestamps : List Int64}
    {measurementsList : List (List String)} {valuesList : List (List Value)}
    (htimestamps : timestamps.length = deviceIds.length)
    (hmeasurements : measurementsList.length = deviceIds.length)
    (hvalues : valuesList.length = deviceIds.length) {values : List Value}
    (h : values ∈ valuesList) : ∃ row ∈
      ((deviceIds.zip timestamps).zip measurementsList).zip valuesList, row.2 = values := by
  obtain ⟨i, hi, rfl⟩ := List.mem_iff_getElem.mp h
  refine ⟨(((deviceIds[i], timestamps[i]), measurementsList[i]), valuesList[i]), ?_, rfl⟩
  exact List.mem_iff_getElem.mpr ⟨i, by simp only [List.length_zip]; omega, by simp⟩

theorem keptRows_eq_nil {deviceIds : List String} {timestamps : List Int64}
    {measurementsList : List (List String)} {valuesList : List (List Value)}
    (htimestamps : timestamps.length = deviceIds.length)
    (hmeasurements : measurementsList.length = deviceIds.length)
    (harity : AritiesMatch measurementsList valuesList) :
    keptRows (rowsOf deviceIds timestamps measurementsList valuesList) = [] ↔
      ∀ values ∈ valuesList, ∀ v ∈ values, v = .null := by
  have hvalues : valuesList.length = deviceIds.length := harity.length_eq ▸ hmeasurements
  rw [keptRows, rowsOf, List.filter_eq_nil_iff, List.forall_mem_map]
  constructor
  · intro hall values hmem
    obtain ⟨row, hrow, rfl⟩ := exists_row_of_values htimestamps hmeasurements hvalues hmem
    have hempty := hall _ hrow
    exact (nonNullCells_eq_nil (harity.row hrow)).mp (by simpa using hempty)
  · intro hall row hrow
    have hempty := (nonNullCells_eq_nil (harity.row hrow)).mpr (hall _ (List.of_mem_zip hrow).2)
    simp [hempty]

/-- Whatever the call sends, first or second attempt, is `req` up to its session id, and it sends
something. -/
def Transmits (m : SessionM Unit) (st : Session × World) (req : InsertReq) : Prop :=
  ∃ new, (m st).2.1.trace = new ++ st.1.trace ∧ sentCalls new ≠ [] ∧
    ∀ call ∈ sentCalls new, call.request.withoutIds = .insert req

/-- Without a non-null cell the call fails and does nothing; with one it sends `req`. -/
def SendsRows (m : SessionM Unit) (st : Session × World) (valuesList : List (List Value))
    (req : InsertReq) : Prop :=
  (m st = (.error (.error (.client "all insert values are null")), st) ↔
    ∀ values ∈ valuesList, ∀ v ∈ values, v = .null) ∧
  ((∃ values ∈ valuesList, ∃ v ∈ values, v ≠ .null) → Transmits m st req)

theorem insert_transmits (server : Server) {st : Session × World} {connection : Connection}
    (hopen : st.1.connection = some connection) (devices : List String) (req : InsertReq) :
    Transmits (insert server devices req) st (req.withSessionId 0) := by
  have hrun : ∃ new, Disciplined server (.insert (req.withSessionId st.1.sessionId)) st
      (insert server devices req st).1 (insert server devices req st).2 new :=
    insert_disciplined devices req st
  obtain ⟨new, h⟩ := hrun
  refine ⟨new, h.trace, ?_, ?_⟩
  · rw [Ne, h.notSent, hopen]
    simp
  · intro call hcall
    rw [h.sameRequest call hcall]
    cases req <;> rfl

theorem Transmits.ne_refused {m : SessionM Unit} {st : Session × World} {req : InsertReq}
    (h : Transmits m st req) (out : Result Unit) : m st ≠ (out, st) := by
  intro heq
  obtain ⟨new, htrace, hsent, -⟩ := h
  rw [heq] at htrace
  have hnil : new = [] := by simpa using htrace
  rw [hnil] at hsent
  exact hsent rfl

/-- A call whose request is built from the rows that are left sends them. -/
theorem sendsRows_of_built (server : Server) {β : Type} {st : Session × World}
    {connection : Connection} (hopen : st.1.connection = some connection)
    {build : Int64 → Result β} {mk : Int64 → β} {empty : Bool} (wrap : β → InsertReq)
    (hbuild : ∀ sessionId, build sessionId =
      if empty then fail (.client "all insert values are null") else pure (mk sessionId))
    (devices : β → List String) {valuesList : List (List Value)} {req : InsertReq}
    (hreq : (wrap (mk st.1.sessionId)).withSessionId 0 = req)
    (hempty : empty = true ↔ ∀ values ∈ valuesList, ∀ v ∈ values, v = .null) :
    SendsRows (do
      let b ← ofOutcome (build (← self).sessionId)
      insert server (devices b) (wrap b)) st valuesList req := by
  have hsends : empty = false → Transmits (do
      let b ← ofOutcome (build (← self).sessionId)
      insert server (devices b) (wrap b)) st req := by
    intro hnot
    obtain ⟨new, h⟩ := insert_transmits server hopen (devices (mk st.1.sessionId))
      (wrap (mk st.1.sessionId))
    refine ⟨new, ?_⟩
    simp only [bind_apply, self_apply, ofOutcome_apply, hbuild, hnot, Bool.false_eq_true, if_false]
    exact hreq ▸ h
  rw [SendsRows, ← hempty]
  constructor
  · constructor
    · intro hrefused
      by_contra hnot
      exact (hsends (by simpa using hnot)).ne_refused _ hrefused
    · intro hall
      simp only [bind_apply, self_apply, ofOutcome_apply, hbuild, hall, if_true]
      rfl
  · rintro ⟨values, hvalues, v, hv, hne⟩
    apply hsends
    rw [← Bool.not_eq_true, hempty]
    exact fun hall ↦ hne (hall values hvalues v hv)

def requestOfRow (row : CellRow) (isAligned : Bool) : TSInsertRecordReq where
  sessionId := 0
  prefixPath := row.device
  measurements := row.measurements
  values := row.buffer
  timestamp := row.timestamp
  isAligned := some isAligned

/-- Four parallel lists, read off one list of rows. -/
def requestOfRows (rows : List CellRow) (isAligned : Bool) : TSInsertRecordsReq where
  sessionId := 0
  prefixPaths := rows.map CellRow.device
  measurementsList := rows.map CellRow.measurements
  valuesList := rows.map CellRow.buffer
  timestamps := rows.map CellRow.timestamp
  isAligned := some isAligned

def requestOfDevice (deviceId : String) (rows : List CellRow) (isAligned : Bool) :
    TSInsertRecordsOfOneDeviceReq where
  sessionId := 0
  prefixPath := deviceId
  measurementsList := rows.map CellRow.measurements
  valuesList := rows.map CellRow.buffer
  timestamps := rows.map CellRow.timestamp
  isAligned := some isAligned

/-- The record calls send the rows that have a non-null cell, each with its own device, timestamp and
named cells: in input order for `insert_records`, stably sorted by time for one device. -/
theorem record_requests_paired (server : Server) {st : Session × World} {connection : Connection}
    (hopen : st.1.connection = some connection) (isAligned : Bool) :
    (∀ (deviceId : String) (timestamp : Int64) (measurements : List String) (values : List Value),
      measurements.length = values.length →
      SendsRows (insertRecord server deviceId timestamp measurements values isAligned) st [values]
        (.record (requestOfRow ⟨deviceId, timestamp, nonNullCells measurements values⟩
          isAligned))) ∧
    (∀ (deviceIds : List String) (timestamps : List Int64) (measurementsList : List (List String))
      (valuesList : List (List Value)), timestamps.length = deviceIds.length →
      measurementsList.length = deviceIds.length → AritiesMatch measurementsList valuesList →
      SendsRows (insertRecords server deviceIds timestamps measurementsList valuesList isAligned) st
        valuesList (.records (requestOfRows
          (keptRows (rowsOf deviceIds timestamps measurementsList valuesList)) isAligned))) ∧
    ∀ (deviceId : String) (timestamps : List Int64) (measurementsList : List (List String))
      (valuesList : List (List Value)), measurementsList.length = timestamps.length →
      AritiesMatch measurementsList valuesList →
      ∃ sorted, StablySorted CellRow.key
          (keptRows (rowsOfOneDevice deviceId timestamps measurementsList valuesList)) sorted ∧
        SendsRows (insertRecordsOfOneDevice server deviceId timestamps measurementsList valuesList
          isAligned) st valuesList
          (.recordsOfOneDevice (requestOfDevice deviceId sorted isAligned)) := by
  refine ⟨?_, ?_, ?_⟩
  · intro deviceId timestamp measurements values harity
    exact sendsRows_of_built server hopen .record
      (fun sessionId ↦ insertRecordReq_eq harity sessionId deviceId timestamp isAligned)
      (fun _ ↦ [deviceId]) rfl
      (by rw [List.isEmpty_iff, nonNullCells_eq_nil harity, List.forall_mem_singleton])
  · intro deviceIds timestamps measurementsList valuesList htimestamps hmeasurements harity
    exact sendsRows_of_built server hopen .records
      (fun sessionId ↦ insertRecordsReq_eq htimestamps hmeasurements harity sessionId isAligned)
      (fun req ↦ req.prefixPaths) rfl
      (by rw [List.isEmpty_iff, keptRows_eq_nil htimestamps hmeasurements harity])
  · intro deviceId timestamps measurementsList valuesList hmeasurements harity
    refine ⟨_, sortByKey_stablySorted _ _, ?_⟩
    have hlen : (timestamps.map fun _ ↦ deviceId).length = timestamps.length := List.length_map _
    exact sendsRows_of_built server hopen .recordsOfOneDevice
      (fun sessionId ↦ insertRecordsOfOneDeviceReq_eq hmeasurements harity sessionId deviceId
        isAligned)
      (fun _ ↦ [deviceId]) rfl
      (by rw [List.isEmpty_iff, rowsOfOneDevice,
        keptRows_eq_nil hlen.symm (hmeasurements.trans hlen.symm) harity])

/-- The second row is all null and dropped with its device; the first keeps its second cell. -/
theorem record_requests_paired_sample :
    connectedState.1.connection = some ⟨0, ⟨"localhost", 6667⟩⟩ ∧
      AritiesMatch [["a", "b"], ["a"]] [[.null, .int32 7], [.null]] ∧
      SendsRows (insertRecords brokenPipeServer ["d1", "d2"] [5, 3] [["a", "b"], ["a"]]
          [[.null, .int32 7], [.null]] false) connectedState [[.null, .int32 7], [.null]]
        (.records ⟨0, ["d1"], [["b"]], [[1, 0, 0, 0, 7]], [5], some false⟩) :=
  ⟨rfl, .cons rfl (.cons rfl .nil),
    (record_requests_paired brokenPipeServer rfl false).2.1
      ["d1", "d2"] [5, 3] [["a", "b"], ["a"]] [[.null, .int32 7], [.null]] rfl rfl
      (.cons rfl (.cons rfl .nil))⟩

end IotdbClient
