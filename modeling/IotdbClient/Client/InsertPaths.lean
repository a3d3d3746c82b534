import IotdbClient.Client.Requests
import IotdbClient.Data.RecordServer

/-!
# The tablet path and the record path

The same rows can be written as one tablet or as the records of one device.  Both requests are read
back here as a list of timestamps with their named non-null cells.  The tablet path sorts all rows
and masks the nulls; the record path drops the nulls and the rows left empty, then sorts.
-/

namespace IotdbClient

open Library

/-- What the server stores of one row: the cells that are there, with their measurements. -/
abbrev NamedRow := Int64 × List (String × Value)

def presentCells (measurements : List String) (cells : List (Option Value)) :
    List (String × Value) :=
  (measurements.zip cells).filterMap fun (name, cell) ↦ cell.map fun v ↦ (name, v)

/-- The rows of a tablet request without null cells and empty rows. -/
def tabletData (req : TSInsertTabletReq) : Option (List NamedRow) := do
  let rows ← TabletServer.decodeBuffers req.types req.values req.timestamps
  let named := rows.map fun (ts, cells) ↦ (ts, presentCells req.measurements cells)
  pure (named.filter fun row ↦ !row.2.isEmpty)

def zipExact {α β : Type} (xs : List α) (ys : List β) : Option (List (α × β)) :=
  if xs.length = ys.length then some (xs.zip ys) else none

/-- The rows of a record request: every buffer read cell by cell and paired with its measurement
list. -/
def recordData (req : TSInsertRecordsOfOneDeviceReq) : Option (List NamedRow) := do
  let values ← req.valuesList.mapM RecordServer.decodeRecord
  let rows ← zipExact req.measurementsList values
  let cells ← rows.mapM fun (names, values) ↦ zipExact names values
  zipExact req.timestamps cells

/-- The cells of a row as `insert_records_of_one_device` takes them. -/
def recordValues (row : TabletRow) : List Value := row.2.map fun cell ↦ cell.getD .null

def rowKey (row : NamedRow) : Int := row.1.toInt

/-- The row that both paths deliver. -/
def namedRow (measurements : List String) (row : TabletRow) : NamedRow :=
  (row.1, presentCells measurements (row.2.map Tablet.normalizeCell))

/-! ## The tablet path -/

theorem tabletData_insertTabletReq {t : Tablet} {rows : List TabletRow} (hb : Tablet.Built t rows)
    (h : TabletServer.Encodable t.types rows) (sessionId : Int64) :
    ∃ req, insertTabletReq sessionId t = .ok req ∧
      tabletData req = some ((sortByKey rowKey (rows.map (namedRow t.measurements))).filter
        fun row ↦ !row.2.isEmpty) := by
  have hsorted : TabletServer.Encodable t.types (sortByKey Tablet.timeKey rows) :=
    h.perm fun _ ↦ mem_sortByKey
  obtain ⟨hvalues, htimes⟩ := TabletServer.serialize_built hb h
  unfold insertTabletReq
  rw [hvalues]
  change ∃ req, ((Tablet.ofRows t (sortByKey Tablet.timeKey rows)).serializeTimestamps >>= _) = _ ∧ _
  rw [htimes]
  refine ⟨_, rfl, ?_⟩
  change (TabletServer.decodeBuffers (t.types.map TSDataType.code) _ _).bind _ = _
  rw [TabletServer.decodeBuffers_image hsorted, Option.bind_some, List.map_map,
    ← sortByKey_map rowKey (namedRow t.measurements)]
  rfl

/-! ## The record path -/

theorem filterNullCells_spec {measurements : List String} {values : List Value}
    (h : measurements.length = values.length) :
    (filterNullCells measurements values).1.length = (filterNullCells measurements values).2.length ∧
      (filterNullCells measurements values).1.zip (filterNullCells measurements values).2 =
        (measurements.zip values).filter (fun p ↦ !p.2.isNull) ∧
      ∀ v ∈ (filterNullCells measurements values).2, v ∈ values := by
  unfold filterNullCells
  by_cases hany : values.any Value.isNull = true
  · rw [if_neg (by simp [hany])]
    refine ⟨by rw [List.unzip_fst, List.unzip_snd, List.length_map, List.length_map],
      List.zip_unzip _, ?_⟩
    intro v hv
    rw [List.unzip_snd, List.mem_map] at hv
    obtain ⟨p, hp, rfl⟩ := hv
    exact (List.of_mem_zip (List.mem_of_mem_filter hp)).2
  · -- the fast path: without a null the lists pass through
    rw [if_pos (by simpa using hany)]
    refine ⟨h, ?_, fun v hv ↦ hv⟩
    symm
    rw [List.filter_eq_self]
    intro p hp
    have hv := (List.of_mem_zip hp).2
    rw [Bool.not_eq_true', ← Bool.not_eq_true]
    exact fun hnull ↦ hany (List.any_eq_true.mpr ⟨p.2, hv, hnull⟩)

/-- One row of the filtering loop. -/
def keptRow (row : (Int64 × List String) × List Value) : Int64 × List String × List Value :=
  (row.1.1, filterNullCells row.1.2 row.2)

theorem keepRows_eq (l : List ((Int64 × List String) × List Value))
    (h : ∀ row ∈ l, row.1.2.length = row.2.length) :
    keepRows l = .ok ((l.map keptRow).filter fun row ↦ !row.2.2.isEmpty) := by
  induction l with
  | nil => rfl
  | cons row l ih =>
      obtain ⟨⟨ts, measurements⟩, values⟩ := row
      rw [List.forall_mem_cons] at h
      have harity : checkRecordArity measurements values = .ok () := by
        rw [checkRecordArity, if_neg (not_not.mpr h.1)]
        rfl
      rw [keepRows, harity, ih h.2, List.map_cons]
      by_cases hempty : (filterNullCells measurements values).2.isEmpty = true
      · rw [List.filter_cons_of_neg (by simpa [keptRow] using hempty)]
        change (if (filterNullCells measurements values).2.isEmpty then _ else _) = _
        rw [if_pos hempty]
        rfl
      · rw [List.filter_cons_of_pos (by simpa [keptRow] using hempty)]
        change (if (filterNullCells measurements values).2.isEmpty then _ else _) = _
        rw [if_neg hempty]
        rfl

abbrev KeptRow := Int64 × List String × List Value

def keptKey (row : KeptRow) : Int := row.1.toInt

theorem sortOneDeviceRows_eq (kept : List KeptRow) :
    sortOneDeviceRows (kept.map fun (ts, _, _) ↦ ts) (kept.map fun (_, measurements, _) ↦ measurements)
        (kept.map fun (_, _, values) ↦ values) =
      .ok ((sortByKey keptKey kept).map (fun (ts, _, _) ↦ ts),
        (sortByKey keptKey kept).map (fun (_, measurements, _) ↦ measurements),
        (sortByKey keptKey kept).map fun (_, _, values) ↦ serializeRecordValues values) := by
  have hkey : (fun i ↦ ((kept.map Prod.fst).getD i 0).toInt) =
      fun i ↦ keptKey (kept.getD i (0, [], [])) := by
    funext i
    change ((kept.map Prod.fst).getD i (Prod.fst ((0, [], []) : KeptRow))).toInt = _
    rw [List.getD_map]
    rfl
  unfold sortOneDeviceRows
  change (if (sortByKey (fun i ↦ ((kept.map Prod.fst).getD i 0).toInt)
    (List.range (kept.map _).length)).zipIdx.all _ then _ else _) = _
  rw [hkey, List.length_map]
  split
  · rename_i hall
    rw [sortByKey_of_positions keptKey kept (0, [], []) hall, List.map_map]
    rfl
  · rw [mapM_index_sorted keptKey _ kept, mapM_index_sorted keptKey _ kept,
      mapM_index_sorted keptKey _ kept]
    change Except.ok (_, _, List.map _ (List.map _ _)) = _
    rw [List.map_map]
    rfl

theorem zipExact_map {α β γ : Type} (l : List α) (f : α → β) (g : α → γ) :
    zipExact (l.map f) (l.map g) = some (l.map fun x ↦ (f x, g x)) := by
  rw [zipExact, if_pos (by rw [List.length_map, List.length_map]), List.zip_map']

theorem mapM_some {α β : Type} {f : α → Option β} {g : α → β} {l : List α}
    (h : ∀ x ∈ l, f x = some (g x)) : l.mapM f = some (l.map g) := by
  induction l with
  | nil => rfl
  | cons x xs ih =>
      rw [List.forall_mem_cons] at h
      rw [List.mapM_cons, h.1, ih h.2]
      rfl

/-- The server reads back the rows of a request, whatever rows it was made of. -/
theorem recordData_rows (kept : List KeptRow) (sessionId : Int64) (deviceId : String)
    (isAligned : Option Bool) (harity : ∀ row ∈ kept, row.2.1.length = row.2.2.length)
    (hpayload : ∀ row ∈ kept, ∀ v ∈ row.2.2, v.payload.length < 2 ^ 31) :
    recordData {
        sessionId := sessionId
        prefixPath := deviceId
        measurementsList := kept.map fun (_, measurements, _) ↦ measurements
        valuesList := kept.map fun (_, _, values) ↦ serializeRecordValues values
        timestamps := kept.map fun (ts, _, _) ↦ ts
        isAligned := isAligned } =
      some (kept.map fun row ↦ (row.1, row.2.1.zip row.2.2)) := by
  have hvalues : (kept.map fun (_, _, values) ↦ serializeRecordValues values).mapM
      RecordServer.decodeRecord = some (kept.map fun row ↦ row.2.2) := by
    rw [List.mapM_map]
    apply mapM_some
    intro row hrow
    exact RecordServer.decodeRecord_serializeRecordValues row.2.2 (hpayload row hrow)
  have hcells : (kept.map fun row ↦ (row.2.1, row.2.2)).mapM
      (fun (names, values) ↦ zipExact names values) =
        some (kept.map fun row ↦ row.2.1.zip row.2.2) := by
    rw [List.mapM_map]
    apply mapM_some
    intro row hrow
    exact if_pos (harity row hrow)
  simp only [recordData, hvalues, Option.bind_eq_bind, Option.bind_some]
  rw [zipExact_map, Option.bind_some, hcells, Option.bind_some, zipExact_map]

/-- Dropping null values and dropping null cells leave the same pairs. -/
theorem filter_recordValues (measurements : List String) (cells : List (Option Value)) :
    (measurements.zip (cells.map fun cell ↦ cell.getD .null)).filter (fun p ↦ !p.2.isNull) =
      presentCells measurements (cells.map Tablet.normalizeCell) := by
  unfold presentCells
  induction measurements generalizing cells with
  | nil => rfl
  | cons name names ih =>
      cases cells with
      | nil => rfl
      | cons cell cells =>
          simp only [List.map_cons, List.zip_cons_cons, List.filter_cons, List.filterMap_cons, ih]
          cases cell with
          | none => rfl
          | some v => cases v <;> rfl

/-- The pairs of one row after the filtering loop. -/
def pairUp (row : KeptRow) : NamedRow := (row.1, row.2.1.zip row.2.2)

theorem keptRow_pairUp {measurements : List String} {row : TabletRow}
    (h : row.2.length = measurements.length) :
    (keptRow ((row.1, measurements), recordValues row)).2.1.length =
        (keptRow ((row.1, measurements), recordValues row)).2.2.length ∧
      pairUp (keptRow ((row.1, measurements), recordValues row)) = namedRow measurements row ∧
      ∀ v ∈ (keptRow ((row.1, measurements), recordValues row)).2.2, v ∈ recordValues row := by
  have hlen : measurements.length = (recordValues row).length := by
    rw [recordValues, List.length_map, h]
  obtain ⟨harity, hzip, hmem⟩ := filterNullCells_spec hlen
  refine ⟨harity, ?_, hmem⟩
  exact congrArg (Prod.mk row.1) (hzip.trans (filter_recordValues measurements row.2))

theorem isEmpty_zip {α β : Type} {xs : List α} {ys : List β} (h : xs.length = ys.length) :
    (xs.zip ys).isEmpty = ys.isEmpty := by
  rw [Bool.eq_iff_iff, List.isEmpty_iff_length_eq_zero, List.isEmpty_iff_length_eq_zero,
    List.length_zip]
  omega

/-- A row with a non-null cell is not left empty. -/
theorem namedRow_ne_nil {measurements : List String} {row : TabletRow} {v : Value}
    (h : row.2.length = measurements.length) (hmem : some v ∈ row.2) (hv : v ≠ .null) :
    (namedRow measurements row).2 ≠ [] := by
  obtain ⟨i, hi, hcell⟩ := List.getElem_of_mem hmem
  have hnorm := Tablet.normalizeCell_of_ne_null hv
  have hpair : (measurements[i], some v) ∈ measurements.zip (row.2.map Tablet.normalizeCell) := by
    rw [List.mem_iff_getElem]
    refine ⟨i, by simp; omega, ?_⟩
    simp [hcell, hnorm]
  exact List.ne_nil_of_mem (List.mem_filterMap.mpr ⟨_, hpair, rfl⟩)

theorem recordData_insertRecords {measurements : List String} {rows : List TabletRow}
    (hlen : ∀ row ∈ rows, row.2.length = measurements.length)
    (hpayload : ∀ row ∈ rows, ∀ v, some v ∈ row.2 → v.payload.length < 2 ^ 31)
    (hcell : ∃ row ∈ rows, ∃ v, some v ∈ row.2 ∧ v ≠ .null) (sessionId : Int64)
    (deviceId : String) (isAligned : Bool) :
    ∃ req, insertRecordsOfOneDeviceReq sessionId deviceId (rows.map Prod.fst)
        (rows.map fun _ ↦ measurements) (rows.map recordValues) isAligned = .ok req ∧
      recordData req = some (sortByKey rowKey ((rows.map (namedRow measurements)).filter
        fun row ↦ !row.2.isEmpty)) := by
  have hzip : ((rows.map Prod.fst).zip (rows.map fun _ ↦ measurements)).zip (rows.map recordValues) =
      rows.map fun row ↦ ((row.1, measurements), recordValues row) := by
    rw [List.zip_map', List.zip_map']
  have hkeep := keepRows_eq (rows.map fun row ↦ ((row.1, measurements), recordValues row)) (by
    intro r hr
    obtain ⟨row, hrow, rfl⟩ := List.mem_map.mp hr
    rw [recordValues, List.length_map, hlen row hrow])
  rw [List.map_map] at hkeep
  -- the rows left by the filter: what is known of them, and what they are read back as
  generalize hkept : (rows.map _).filter _ = kept at hkeep
  have hfacts : ∀ row ∈ kept, row.2.1.length = row.2.2.length ∧
      ∀ v ∈ row.2.2, v.payload.length < 2 ^ 31 := by
    intro r hr
    rw [← hkept, List.mem_filter, List.mem_map] at hr
    obtain ⟨⟨row, hrow, rfl⟩, -⟩ := hr
    obtain ⟨harity, -, hmem⟩ := keptRow_pairUp (hlen row hrow)
    refine ⟨harity, ?_⟩
    intro v hv
    obtain ⟨cell, hcell, rfl⟩ := List.mem_map.mp (hmem v hv)
    cases cell with
    | none => exact Nat.two_pow_pos 31
    | some v => exact hpayload row hrow v hcell
  have hpairs : kept.map pairUp =
      (rows.map (namedRow measurements)).filter fun row ↦ !row.2.isEmpty := by
    have hsame : ∀ row ∈ rows, pairUp (keptRow ((row.1, measurements), recordValues row)) =
        namedRow measurements row := fun row hrow ↦ (keptRow_pairUp (hlen row hrow)).2.1
    rw [← hkept, List.filter_map, List.map_map, List.filter_map]
    have hfilter : ∀ row ∈ rows, (!(keptRow ((row.1, measurements), recordValues row)).2.2.isEmpty) =
        !(namedRow measurements row).2.isEmpty := by
      intro row hrow
      rw [← hsame row hrow, pairUp, isEmpty_zip (keptRow_pairUp (hlen row hrow)).1]
    refine (congrArg (List.map _) (List.filter_congr hfilter)).trans ?_
    apply List.map_congr_left
    intro row hrow
    exact hsame row (List.mem_of_mem_filter hrow)
  have hne : kept ≠ [] := by
    obtain ⟨row, hrow, v, hmem, hv⟩ := hcell
    have hnamed := namedRow_ne_nil (hlen row hrow) hmem hv
    have hin : namedRow measurements row ∈ kept.map pairUp := by
      rw [hpairs, List.mem_filter]
      exact ⟨List.mem_map_of_mem hrow, by simpa using hnamed⟩
    rintro rfl
    simp at hin
  -- sorting before the pairs are read back or after it comes to the same
  have hsorted := recordData_rows (sortByKey keptKey kept) sessionId deviceId (some isAligned)
    (fun row hrow ↦ (hfacts row (mem_sortByKey.mp hrow)).1)
    (fun row hrow ↦ (hfacts row (mem_sortByKey.mp hrow)).2)
  unfold insertRecordsOfOneDeviceReq
  rw [if_neg (by simp), hzip, hkeep]
  change ∃ req, (if kept.isEmpty then _ else _) = _ ∧ _
  rw [if_neg (by simpa using hne), sortOneDeviceRows_eq]
  refine ⟨_, rfl, ?_⟩
  rw [hsorted, ← hpairs, ← sortByKey_map rowKey pairUp]
  rfl

/-- Rows written as a tablet and rows written as records of one device are stored alike. -/
theorem tablet_record_paths_agree (deviceId : String) (measurements : List String)
    (types : List TSDataType) (rows : List TabletRow) (sessionId : Int64) (isAligned : Bool)
    (hlen : measurements.length = types.length) (hrows : TabletServer.Encodable types rows)
    (hcell : ∃ row ∈ rows, ∃ v, some v ∈ row.2 ∧ v ≠ .null) :
    (∃ t, Tablet.Built t rows ∧ t.target = deviceId ∧ t.measurements = measurements ∧
      t.types = types) ∧
    ∀ t, Tablet.Built t rows → t.measurements = measurements → t.types = types →
      ∃ tabletReq recordReq data,
        insertTabletReq sessionId t = .ok tabletReq ∧
        insertRecordsOfOneDeviceReq sessionId deviceId (rows.map Prod.fst)
          (rows.map fun _ ↦ measurements) (rows.map recordValues) isAligned = .ok recordReq ∧
        tabletData tabletReq = some data ∧ recordData recordReq = some data := by
  refine ⟨Tablet.Built.exists deviceId hlen rows hrows.fits, ?_⟩
  rintro t hb rfl rfl
  obtain ⟨tabletReq, htablet, htabletData⟩ := tabletData_insertTabletReq hb hrows sessionId
  obtain ⟨recordReq, hrecord, hrecordData⟩ := recordData_insertRecords
    (fun row hrow ↦ ((hrows.fits row hrow).length.trans hlen.symm)) hrows.payload hcell sessionId
    deviceId isAligned
  rw [sortByKey_filter] at htabletData
  exact ⟨tabletReq, recordReq, _, htablet, hrecord, htabletData, hrecordData⟩

theorem sampleRows_encodable : TabletServer.Encodable [.int32, .text] sampleRows :=
  sampleTablet_ready.encodable

theorem tablet_record_paths_agree_sample :
    TabletServer.Encodable [.int32, .text] sampleRows ∧ Tablet.Built sampleTablet sampleRows ∧
      ∃ tabletReq recordReq data,
        insertTabletReq 1 sampleTablet = .ok tabletReq ∧
        insertRecordsOfOneDeviceReq 1 "root.sg.d1" (sampleRows.map Prod.fst)
          (sampleRows.map fun _ ↦ ["s0", "s1"]) (sampleRows.map recordValues) false = .ok recordReq ∧
        tabletData tabletReq = some data ∧ recordData recordReq = some data :=
  ⟨sampleRows_encodable, sampleTablet_ready.built,
    (tablet_record_paths_agree "root.sg.d1" ["s0", "s1"] [.int32, .text] sampleRows 1 false rfl
      sampleRows_encodable ⟨_, List.mem_cons_self, _, List.mem_cons_self, by decide⟩).2
      sampleTablet sampleTablet_ready.built rfl rfl⟩

end IotdbClient
