import IotdbClient.Data.Tablet

/-!
# What a tablet holds

The public calls build a tablet row by row.  `Built t rows` follows these calls; `ofRows` is the
column image of a row list.  Every built tablet is the image of its rows, and `sort_by_timestamp`
on an image is the stable sort of the rows.
-/

namespace IotdbClient

open Library

abbrev TabletRow := Int64 × List (Option Value)

namespace Tablet

/-- A tablet obtained from one of the three constructors and a sequence of successful `add_row`
calls with the given rows. -/
inductive Built : Tablet → List TabletRow → Prop where
  | new {deviceId measurements types t} (h : Tablet.new deviceId measurements types = .ok t) :
      Built t []
  | newAligned {deviceId measurements types t}
      (h : Tablet.newAligned deviceId measurements types = .ok t) : Built t []
  | newTable {tableName columnNames types categories t}
      (h : Tablet.newTable tableName columnNames types categories = .ok t) : Built t []
  | addRow {t t' rows timestamp row} (hb : Built t rows)
      (h : t.addRow timestamp row = (.ok (), t')) : Built t' (rows ++ [(timestamp, row)])

def column (rows : List TabletRow) (c : Nat) : List (Option Value) :=
  rows.map fun row ↦ normalizeCell (row.2.getD c none)

/-- The tablet with `header`'s names, types and flags that holds `rows`. -/
def ofRows (header : Tablet) (rows : List TabletRow) : Tablet :=
  { header with
    timestamps := rows.map Prod.fst
    values := (List.range header.types.length).map (column rows) }

/-- A row as `add_row` accepts it: one cell a column, null or of the column's type. -/
structure RowFits (types : List TSDataType) (row : TabletRow) : Prop where
  length : row.2.length = types.length
  cells : ∀ i v, normalizeCell (row.2.getD i none) = some v → v.dataType = types[i]?

def timeKey (row : TabletRow) : Int := row.1.toInt

@[simp] theorem column_length (rows : List TabletRow) (c : Nat) :
    (column rows c).length = rows.length := List.length_map ..

theorem column_append (rows : List TabletRow) (row : TabletRow) (c : Nat) :
    column (rows ++ [row]) c = column rows c ++ [normalizeCell (row.2.getD c none)] := by
  simp [column]

/-! ## Construction -/

theorem new_ok {deviceId : String} {measurements : List String} {types : List TSDataType}
    {t : Tablet} (h : Tablet.new deviceId measurements types = .ok t) :
    measurements.length = types.length ∧
      t = ⟨deviceId, measurements, types, [], List.replicate types.length [], none, false⟩ := by
  unfold Tablet.new at h
  by_cases hlen : measurements.length = types.length
  · rw [if_neg (not_not.mpr hlen), hlen] at h
    cases h
    exact ⟨hlen, rfl⟩
  · rw [if_pos hlen] at h
    cases h

theorem pushCells_eq (cols : List (List (Option Value))) (cells : List (Option Value))
    (h : cells.length = cols.length) :
    pushCells cols cells =
      (List.range cols.length).map fun c ↦ cols.getD c [] ++ [normalizeCell (cells.getD c none)] := by
  induction cols generalizing cells with
  | nil => cases cells <;> rfl
  | cons col cols ih =>
      cases cells with
      | nil => simp at h
      | cons cell cells =>
          rw [pushCells, ih cells (by simpa using h), List.length_cons, List.range_succ_eq_map]
          simp [Function.comp_def]

theorem forM_ok {α : Type} {f : α → Result Unit} {l : List α} (h : l.forM f = .ok ()) :
    ∀ x ∈ l, f x = .ok () := by
  induction l with
  | nil => simp
  | cons x xs ih =>
      change (f x >>= fun _ ↦ xs.forM f) = _ at h
      cases hx : f x with
      | error e => rw [hx] at h; cases h
      | ok u =>
          rw [hx] at h
          rw [List.forall_mem_cons]
          exact ⟨hx, ih h⟩

theorem forM_of_forall {α : Type} {f : α → Result Unit} {l : List α} (h : ∀ x ∈ l, f x = .ok ()) :
    l.forM f = .ok () := by
  induction l with
  | nil => rfl
  | cons x xs ih =>
      rw [List.forall_mem_cons] at h
      change (f x >>= fun _ ↦ xs.forM f) = _
      rw [h.1]
      exact ih h.2

theorem checkCell_ok {t : Tablet} {cell : Option Value} {i : Nat} (h : t.checkCell cell i = .ok ())
    {v : Value} (hv : normalizeCell cell = some v) : v.dataType = t.types[i]? := by
  unfold checkCell at h
  split at h
  · cases hv
  · cases hv
  · rename_i w hnull
    have hw : w = v := by
      simp only [normalizeCell, Option.filter_some, Option.ite_none_right_eq_some] at hv
      exact Option.some.inj hv.2
    subst hw
    unfold index at h
    cases hty : t.types[i]? with
    | none => rw [hty] at h; cases h
    | some ty =>
        rw [hty] at h
        by_cases htype : w.dataType = some ty
        · exact htype
        · change (if w.dataType = some ty then pure () else _) = _ at h
          rw [if_neg htype] at h
          cases hname : t.measurements[i]? with
          | none => rw [hname] at h; cases h
          | some name => rw [hname] at h; cases h

/-- What a successful `add_row` has checked and what it has changed. -/
theorem addRow_ok {t t' : Tablet} {timestamp : Int64} {row : List (Option Value)}
    (h : t.addRow timestamp row = (.ok (), t')) :
    RowFits t.types (timestamp, row) ∧
      t' = { t with
        timestamps := t.timestamps ++ [timestamp]
        values := pushCells t.values row } := by
  unfold addRow at h
  by_cases hlen : row.length = t.types.length
  · rw [if_neg (not_not.mpr hlen)] at h
    split at h
    · cases h
    · rename_i hcheck
      cases h
      refine ⟨⟨hlen, ?_⟩, rfl⟩
      intro i v hv
      by_cases hi : i < row.length
      · have hmem : (row[i], i) ∈ row.zipIdx :=
          List.mem_zipIdx_iff_getElem?.mpr (List.getElem?_eq_getElem hi)
        change normalizeCell (row.getD i none) = some v at hv
        rw [List.getD_eq_getElem _ _ hi] at hv
        exact checkCell_ok (forM_ok hcheck _ hmem) hv
      · change normalizeCell (row.getD i none) = some v at hv
        rw [List.getD_eq_default _ _ (by omega)] at hv
        cases hv
  · rw [if_pos hlen] at h
    cases h

theorem checkCell_of_fits {t : Tablet} {cell : Option Value} {i : Nat}
    (h : ∀ v, normalizeCell cell = some v → v.dataType = t.types[i]?) :
    t.checkCell cell i = .ok () := by
  unfold checkCell
  split
  · rfl
  · rfl
  · rename_i v hnull
    have htype := h v (normalizeCell_of_ne_null hnull)
    obtain ⟨ty, hty⟩ : ∃ ty, v.dataType = some ty := by
      rw [← Option.ne_none_iff_exists', ne_eq, ← Value.isNull_iff_dataType, Value.isNull_iff]
      exact hnull
    rw [index_of_getElem? (htype.symm.trans hty)]
    change (if v.dataType = some ty then pure () else _) = _
    rw [if_pos hty]
    rfl

/-- `add_row` accepts every row that fits the types. -/
theorem addRow_of_fits {t : Tablet} {row : TabletRow} (h : RowFits t.types row) :
    t.addRow row.1 row.2 = (.ok (), { t with
      timestamps := t.timestamps ++ [row.1]
      values := pushCells t.values row.2 }) := by
  have hcheck : ∀ p ∈ row.2.zipIdx, t.checkCell p.1 p.2 = .ok () := by
    intro p hp
    apply checkCell_of_fits
    intro v hv
    have hget := List.mem_zipIdx_iff_getElem?.mp hp
    apply h.cells p.2 v
    rw [List.getD_eq_getElem?_getD, hget]
    exact hv
  unfold addRow
  rw [if_neg (not_not.mpr h.length), forM_of_forall]
  · rfl
  · exact hcheck

theorem ofRows_nil (t : Tablet) (hts : t.timestamps = [])
    (hvals : t.values = List.replicate t.types.length []) : t = ofRows t [] := by
  have hcols : (List.range t.types.length).map (column []) = List.replicate t.types.length [] := by
    simp [column, List.eq_replicate_iff]
  rw [ofRows, hcols, ← hvals, List.map_nil, ← hts]

theorem ofRows_append {t : Tablet} {rows : List TabletRow} {row : TabletRow} (h : t = ofRows t rows)
    (hfit : RowFits t.types row) :
    ({ t with
      timestamps := t.timestamps ++ [row.1]
      values := pushCells t.values row.2 } : Tablet) = ofRows t (rows ++ [row]) := by
  have hts : t.timestamps = rows.map Prod.fst := congrArg Tablet.timestamps h
  have hvals : t.values = (List.range t.types.length).map (column rows) := congrArg Tablet.values h
  have hcols : pushCells t.values row.2 =
      (List.range t.types.length).map (column (rows ++ [row])) := by
    rw [hvals, pushCells_eq _ _ (by rw [List.length_map, List.length_range]; exact hfit.length),
      List.length_map, List.length_range]
    apply List.map_congr_left
    intro c hc
    rw [List.mem_range] at hc
    rw [column_append, List.getD_eq_getElem _ _ (by simpa using hc)]
    simp
  rw [ofRows, hcols, hts, List.map_append]
  rfl

/-- Whatever public calls built it, a tablet is the column image of the rows added, and every row
fits its types. -/
theorem Built.image {t : Tablet} {rows : List TabletRow} (h : Built t rows) :
    t = ofRows t rows ∧ t.measurements.length = t.types.length ∧ ∀ row ∈ rows, RowFits t.types row := by
  induction h with
  | new h =>
      obtain ⟨hlen, rfl⟩ := new_ok h
      exact ⟨ofRows_nil _ rfl rfl, hlen, by simp⟩
  | newAligned h =>
      unfold Tablet.newAligned at h
      cases hnew : Tablet.new _ _ _ with
      | error e => rw [hnew] at h; cases h
      | ok t =>
          obtain ⟨hlen, rfl⟩ := new_ok hnew
          rw [hnew] at h
          cases h
          exact ⟨ofRows_nil _ rfl rfl, hlen, by simp⟩
  | newTable h =>
      unfold Tablet.newTable at h
      split at h
      · cases h
      · cases hnew : Tablet.new _ _ _ with
        | error e => rw [hnew] at h; cases h
        | ok t =>
            obtain ⟨hlen, rfl⟩ := new_ok hnew
            rw [hnew] at h
            cases h
            exact ⟨ofRows_nil _ rfl rfl, hlen, by simp⟩
  | @addRow t t' rows timestamp row hb h ih =>
      obtain ⟨himage, hlen, hfits⟩ := ih
      obtain ⟨hfit, rfl⟩ := addRow_ok h
      refine ⟨ofRows_append himage hfit, hlen, ?_⟩
      intro r hr
      rw [List.mem_append, List.mem_singleton] at hr
      rcases hr with hr | rfl
      · exact hfits r hr
      · exact hfit

/-- Every row list that fits the types is held by some tablet of the API. -/
theorem Built.exists (deviceId : String) {measurements : List String} {types : List TSDataType}
    (hlen : measurements.length = types.length) (rows : List TabletRow)
    (hfits : ∀ row ∈ rows, RowFits types row) :
    ∃ t, Built t rows ∧ t.target = deviceId ∧ t.measurements = measurements ∧ t.types = types := by
  induction rows using List.reverseRecOn with
  | nil =>
      have hnew : Tablet.new deviceId measurements types = .ok ⟨deviceId, measurements, types, [],
          List.replicate measurements.length [], none, false⟩ := by
        rw [Tablet.new, if_neg (not_not.mpr hlen)]
        rfl
      exact ⟨_, .new hnew, rfl, rfl, rfl⟩
  | append_singleton rows row ih =>
      obtain ⟨t, hb, htarget, hmeasurements, rfl⟩ := ih fun r hr ↦
        hfits r (List.mem_append_left _ hr)
      have hrow := addRow_of_fits (hfits row (by simp))
      exact ⟨_, hb.addRow hrow, htarget, hmeasurements, rfl⟩

/-! ## Sorting -/

theorem sortOrder_ofRows (t : Tablet) (rows : List TabletRow) :
    (ofRows t rows).sortOrder =
      sortByKey (fun i ↦ timeKey (rows.getD i (0, []))) (List.range rows.length) := by
  have hkey : (fun i ↦ ((rows.map Prod.fst).getD i 0).toInt) =
      fun i ↦ timeKey (rows.getD i (0, [])) := by
    funext i
    rw [show (0 : Int64) = Prod.fst ((0, []) : TabletRow) from rfl, List.getD_map]
    rfl
  unfold sortOrder
  rw [show (ofRows t rows).timestamps = rows.map Prod.fst from rfl, List.length_map, hkey]

theorem sortByTimestamp_ofRows (t : Tablet) (rows : List TabletRow) :
    (ofRows t rows).sortByTimestamp = .ok (ofRows t (sortByKey timeKey rows)) := by
  unfold sortByTimestamp
  rw [sortOrder_ofRows]
  split
  · -- the order is the identity, so the rows are sorted as they stand
    rename_i hall
    rw [sortByKey_of_positions timeKey rows (0, []) hall]
    rfl
  · have hts : _ = (.ok ((sortByKey timeKey rows).map Prod.fst) : Result (List Int64)) :=
      mapM_index_sorted timeKey Prod.fst rows (0, [])
    have hvals : (ofRows t rows).values.mapM (fun col ↦
          (sortByKey (fun i ↦ timeKey (rows.getD i (0, []))) (List.range rows.length)).mapM
            (index col)) =
        (.ok ((List.range t.types.length).map (column (sortByKey timeKey rows))) :
          Result (List (List (Option Value)))) := by
      change ((List.range t.types.length).map (column rows)).mapM _ = _
      rw [List.mapM_map (m := Except (Fault Error)),
        mapM_ok (g := column (sortByKey timeKey rows))]
      intro c _
      exact mapM_index_sorted timeKey (fun row ↦ normalizeCell (row.2.getD c none)) rows (0, [])
    rw [show (ofRows t rows).timestamps = rows.map Prod.fst from rfl, hts, hvals]
    rfl

end Tablet

end IotdbClient
