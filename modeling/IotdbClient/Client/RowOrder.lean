import IotdbClient.Client.RecordPairing
import IotdbClient.Data.TabletState

/-!
# The order of insertion

Both sorts are stable and read nothing but the timestamps, so the order in which rows are given
matters only among rows of one timestamp.  Serializing a tablet sorts it in place; the buffers are
those of the sorted tablet however often and in whichever order they are asked for.
-/

namespace IotdbClient

open Library

/-- Two orderings of the same rows that a stable sort by time cannot tell apart: the timestamps are
distinct, or the rows of each timestamp stand in the same order. -/
inductive Reordered {α : Type} (time : α → Int64) (rows rows' : List α) : Prop where
  | distinct (hperm : rows.Perm rows') (hnodup : (rows.map time).Nodup)
  | ties (h : ∀ t, rows.filter (fun row ↦ time row = t) = rows'.filter (fun row ↦ time row = t))

theorem Reordered.times {α : Type} {time : α → Int64} {rows rows' : List α}
    (h : Reordered time rows rows') (t : Int64) :
    rows.filter (fun row ↦ time row = t) = rows'.filter (fun row ↦ time row = t) := by
  cases h with
  | distinct hperm hnodup => exact classes_of_perm hperm hnodup t
  | ties h => exact h t

theorem Reordered.classes {α : Type} {time : α → Int64} {rows rows' : List α}
    (h : Reordered time rows rows') (k : Int) :
    rows.filter (fun row ↦ (time row).toInt = k) =
      rows'.filter (fun row ↦ (time row).toInt = k) := by
  by_cases hk : ∃ t : Int64, t.toInt = k
  · obtain ⟨t, rfl⟩ := hk
    simp only [Int64.toInt_inj]
    exact h.times t
  · have hnone : ∀ l : List α, l.filter (fun row ↦ (time row).toInt = k) = [] := by
      intro l
      rw [List.filter_eq_nil_iff]
      intro row _ hrow
      exact hk ⟨time row, by simpa using hrow⟩
    rw [hnone, hnone]

/-! ## Tablets -/

inductive SerializeCall where
  | values
  | timestamps

def SerializeCall.toCall : SerializeCall → TabletCall
  | values => .serializeValues
  | timestamps => .serializeTimestamps

namespace Tablet

def serialize (t : Tablet) : SerializeCall → Result (List UInt8 × Tablet)
  | .values => t.serializeValues
  | .timestamps => t.serializeTimestamps

/-- What a sequence of serializations returns, each on the tablet the one before left behind. -/
def buffers (t : Tablet) : List SerializeCall → List (Result (List UInt8))
  | [] => []
  | c :: calls => (t.serialize c).map Prod.fst :: ((t.call c.toCall).getD t).buffers calls

/-- Made by the same constructor call. -/
structure SameSchema (t t' : Tablet) : Prop where
  target : t'.target = t.target
  measurements : t'.measurements = t.measurements
  types : t'.types = t.types
  columnCategories : t'.columnCategories = t.columnCategories
  aligned : t'.aligned = t.aligned

/-- Both serializations look at the sorted tablet only. -/
theorem serialize_of_sorted {t s : Tablet} (ht : t.sortByTimestamp = .ok s)
    (hs : s.sortByTimestamp = .ok s) (c : SerializeCall) : t.serialize c = s.serialize c := by
  cases c with
  | values => rw [serialize, serialize, serializeValues, serializeValues, ht, hs]
  | timestamps => rw [serialize, serialize, serializeTimestamps, serializeTimestamps, ht, hs]

theorem buffers_eq {t s : Tablet} (ht : t.sortByTimestamp = .ok s)
    (hs : s.sortByTimestamp = .ok s) (calls : List SerializeCall) :
    t.buffers calls = calls.map fun c ↦ (s.serialize c).map Prod.fst := by
  induction calls generalizing t with
  | nil => rfl
  | cons c calls ih =>
      have hcall : t.call c.toCall = some s := by
        apply call_sorted ht
        cases c with
        | values => exact .inr (.inl rfl)
        | timestamps => exact .inr (.inr rfl)
      rw [buffers, serialize_of_sorted ht hs, hcall, Option.getD_some, ih hs, List.map_cons]

theorem Built.sorts {t : Tablet} {rows : List TabletRow} (h : Built t rows) :
    t.sortByTimestamp = .ok (ofRows t (sortByKey timeKey rows)) ∧
      (ofRows t (sortByKey timeKey rows)).sortByTimestamp =
        .ok (ofRows t (sortByKey timeKey rows)) := by
  constructor
  · rw [← sortByTimestamp_ofRows, ← h.image.1]
  · rw [sortByTimestamp_ofRows, sortByKey_idem]

theorem SameSchema.ofRows {t t' : Tablet} (h : SameSchema t t') (rows : List TabletRow) :
    ofRows t' rows = ofRows t rows := by
  obtain ⟨target, measurements, types, timestamps, values, columnCategories, aligned⟩ := t
  obtain ⟨target', measurements', types', timestamps', values', columnCategories', aligned'⟩ := t'
  obtain ⟨rfl, rfl, rfl, rfl, rfl⟩ := h
  rfl

/-- The buffers of reordered rows are those of one sorted tablet. -/
theorem Built.buffers_reordered {t t' : Tablet} {rows rows' : List TabletRow} (h : Built t rows)
    (h' : Built t' rows') (hschema : SameSchema t t') (hrows : Reordered Prod.fst rows rows') :
    ∃ buffer : SerializeCall → Result (List UInt8), ∀ calls,
      t.buffers calls = calls.map buffer ∧ t'.buffers calls = calls.map buffer := by
  have hsorted : sortByKey timeKey rows' = sortByKey timeKey rows :=
    sortByKey_eq_of_classes fun k ↦ (hrows.classes k).symm
  have hsame : Tablet.ofRows t' (sortByKey timeKey rows') =
      Tablet.ofRows t (sortByKey timeKey rows) := by
    rw [hsorted, hschema.ofRows]
  have hleft := h.sorts
  have hright := h'.sorts
  rw [hsame] at hright
  exact ⟨_, fun calls ↦ ⟨buffers_eq hleft.1 hleft.2 calls, buffers_eq hright.1 hright.2 calls⟩⟩

end Tablet

/-! ## Records of one device -/

/-- A row as `insert_records_of_one_device` takes it. -/
abbrev RecordRow := (Int64 × List String) × List Value

/-- The request for `rows`, whose parts are passed as three parallel lists. -/
def recordRowsReq (sessionId : Int64) (deviceId : String) (rows : List RecordRow)
    (isAligned : Bool) : Result TSInsertRecordsOfOneDeviceReq :=
  insertRecordsOfOneDeviceReq sessionId deviceId (rows.map fun row ↦ row.1.1)
    (rows.map fun row ↦ row.1.2) (rows.map fun row ↦ row.2) isAligned

def cellRow (deviceId : String) (row : RecordRow) : CellRow :=
  ⟨deviceId, row.1.1, nonNullCells row.1.2 row.2⟩

theorem recordRowsReq_eq {rows : List RecordRow}
    (harity : ∀ row ∈ rows, row.1.2.length = row.2.length) (sessionId : Int64) (deviceId : String)
    (isAligned : Bool) :
    recordRowsReq sessionId deviceId rows isAligned =
      let kept := keptRows (rows.map (cellRow deviceId))
      if kept.isEmpty then fail (.client "all insert values are null")
      else pure { requestOfDevice deviceId (sortByKey CellRow.key kept) isAligned with
        sessionId := sessionId } := by
  have hmatch : AritiesMatch (rows.map fun row ↦ row.1.2) (rows.map fun row ↦ row.2) := by
    rw [AritiesMatch, List.forall₂_map_left_iff, List.forall₂_map_right_iff, List.forall₂_same]
    exact harity
  have hrows : rowsOfOneDevice deviceId (rows.map fun row ↦ row.1.1) (rows.map fun row ↦ row.1.2)
      (rows.map fun row ↦ row.2) = rows.map (cellRow deviceId) := by
    rw [rowsOfOneDevice_eq, List.zip_map', List.zip_map', List.map_map]
    rfl
  rw [recordRowsReq, insertRecordsOfOneDeviceReq_eq (by simp) hmatch, hrows]
  rfl

theorem recordRowsReq_reordered {rows rows' : List RecordRow}
    (harity : ∀ row ∈ rows, row.1.2.length = row.2.length)
    (hrows : Reordered (fun row : RecordRow ↦ row.1.1) rows rows') (sessionId : Int64)
    (deviceId : String) (isAligned : Bool) :
    recordRowsReq sessionId deviceId rows' isAligned =
      recordRowsReq sessionId deviceId rows isAligned := by
  have hclasses := hrows.classes
  have harity' : ∀ row ∈ rows', row.1.2.length = row.2.length := fun row hrow ↦
    harity row ((mem_iff_of_classes hclasses row).mpr hrow)
  -- Neither dropping rows nor cells moves a row out of its class.
  have hkept : ∀ k : Int,
      (keptRows (rows'.map (cellRow deviceId))).filter (fun row ↦ CellRow.key row = k) =
        (keptRows (rows.map (cellRow deviceId))).filter (fun row ↦ CellRow.key row = k) := by
    intro k
    have hfilter : ∀ l : List RecordRow,
        (keptRows (l.map (cellRow deviceId))).filter (fun row ↦ CellRow.key row = k) =
          keptRows ((l.filter fun row ↦ row.1.1.toInt = k).map (cellRow deviceId)) := by
      intro l
      rw [keptRows, List.filter_comm, List.filter_map]
      rfl
    rw [hfilter, hfilter, hclasses k]
  have hsorted := sortByKey_eq_of_classes hkept
  have hempty : (keptRows (rows'.map (cellRow deviceId))).isEmpty =
      (keptRows (rows.map (cellRow deviceId))).isEmpty := by
    have hlen := congrArg List.length hsorted
    rw [sortByKey_length, sortByKey_length] at hlen
    rw [Bool.eq_iff_iff, List.isEmpty_iff_length_eq_zero, List.isEmpty_iff_length_eq_zero, hlen]
  rw [recordRowsReq_eq harity', recordRowsReq_eq harity]
  simp only [hsorted, hempty]

/-- Tablets and record requests built from reordered rows have the same bytes. -/
theorem row_order_irrelevant :
    (∀ (t t' : Tablet) (rows rows' : List TabletRow), Tablet.Built t rows → Tablet.Built t' rows' →
      Tablet.SameSchema t t' → Reordered Prod.fst rows rows' →
      ∃ buffer : SerializeCall → Result (List UInt8), ∀ calls,
        t.buffers calls = calls.map buffer ∧ t'.buffers calls = calls.map buffer) ∧
    ∀ (rows rows' : List RecordRow), (∀ row ∈ rows, row.1.2.length = row.2.length) →
      Reordered (fun row : RecordRow ↦ row.1.1) rows rows' →
      ∀ (sessionId : Int64) (deviceId : String) (isAligned : Bool),
        recordRowsReq sessionId deviceId rows' isAligned =
          recordRowsReq sessionId deviceId rows isAligned :=
  ⟨fun _ _ _ _ h h' hschema hrows ↦ h.buffers_reordered h' hschema hrows,
    fun _ _ harity hrows sessionId deviceId isAligned ↦
      recordRowsReq_reordered harity hrows sessionId deviceId isAligned⟩

/-- The rows of `sampleTablet` with the one at time 1 added first. -/
def reorderedTablet : Tablet :=
  ⟨"root.sg.d1", ["s0", "s1"], [.int32, .text], [1, 5, 5],
    [[none, some (.int32 7), none], [none, some (.text "ab"), some (.text "")]], none, false⟩

def reorderedRows : List TabletRow :=
  [(1, [none, none]), (5, [some (.int32 7), some (.text "ab")]), (5, [some .null, some (.text "")])]

theorem reorderedTablet_built : Tablet.Built reorderedTablet reorderedRows := by
  have hnew : Tablet.new "root.sg.d1" ["s0", "s1"] [.int32, .text] =
    .ok ⟨"root.sg.d1", ["s0", "s1"], [.int32, .text], [], [[], []], none, false⟩ := rfl
  exact .addRow (.addRow (.addRow (.new hnew) rfl) rfl) rfl

theorem reorderedRows_reordered : Reordered Prod.fst sampleRows reorderedRows := by
  apply Reordered.ties
  intro t
  by_cases h5 : (5 : Int64) = t
  · subst h5
    decide
  · by_cases h1 : (1 : Int64) = t
    · subst h1
      decide
    · simp [sampleRows, reorderedRows, h5, h1]

/-- The two rows at time 5 keep their order; the row at time 1 may come first or between them. -/
theorem row_order_irrelevant_sample :
    Reordered Prod.fst sampleRows reorderedRows ∧
      (∃ buffer : SerializeCall → Result (List UInt8), ∀ calls,
        sampleTablet.buffers calls = calls.map buffer ∧
          reorderedTablet.buffers calls = calls.map buffer) ∧
      recordRowsReq 1 "d" [((1, ["a"]), [.int32 1]), ((5, ["a"]), [.int32 2])] false =
        recordRowsReq 1 "d" [((5, ["a"]), [.int32 2]), ((1, ["a"]), [.int32 1])] false :=
  ⟨reorderedRows_reordered,
    row_order_irrelevant.1 _ _ _ _ sampleTablet_ready.built reorderedTablet_built
      ⟨rfl, rfl, rfl, rfl, rfl⟩ reorderedRows_reordered,
    row_order_irrelevant.2 _ _ (by decide) (.distinct (.swap _ _ _) (by decide)) 1 "d" false⟩

end IotdbClient
