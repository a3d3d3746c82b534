import IotdbClient.Data.TabletServer
import IotdbClient.Library.Machine

/-!
# A tablet over its lifetime

A tablet is filled, its timestamps are rewritten, it is serialized, which sorts it, and it is filled
again.  The timestamps and the columns are separate buffers throughout; the file follows which
`add_row` call the cells at one index come from.
-/

namespace IotdbClient

open Library

inductive TabletCall where
  | addRow (timestamp : Int64) (row : List (Option Value))
  | timestampsMut (timestamps : List Int64)
  | sortByTimestamp
  | serializeValues
  | serializeTimestamps

structure TabletState where
  tablet : Tablet
  /-- The rows of the `add_row` calls that returned `Ok`, in the order of the calls. -/
  added : List TabletRow
  /-- Whether anything was written through `timestamps_mut`. -/
  rewritten : Bool

namespace Tablet

/-- What a call leaves behind.  A panic of `serialize_values` comes after its sort. -/
def call (t : Tablet) : TabletCall → Option Tablet
  | .addRow timestamp row => some (t.addRow timestamp row).2
  | .timestampsMut timestamps => t.timestampsMut timestamps
  | .sortByTimestamp => t.sortByTimestamp.toOption
  | .serializeValues =>
      match t.serializeValues with
      | .ok (_, t') => some t'
      | .error _ => t.sortByTimestamp.toOption
  | .serializeTimestamps => (t.serializeTimestamps.map Prod.snd).toOption

end Tablet

namespace TabletState

def addedBy (t : Tablet) : TabletCall → List TabletRow
  | .addRow timestamp row => if (t.addRow timestamp row).1 = .ok () then [(timestamp, row)] else []
  | _ => []

def rewrittenBy : TabletCall → Bool
  | .timestampsMut _ => true
  | _ => false

def step (s : TabletState) (c : TabletCall) : Option TabletState :=
  (s.tablet.call c).map fun t ↦ ⟨t, s.added ++ addedBy s.tablet c, s.rewritten || rewrittenBy c⟩

/-- A tablet from one of the three constructors. -/
def machine : Machine TabletState TabletCall where
  init s := Tablet.Built s.tablet [] ∧ s.added = [] ∧ s.rewritten = false
  step := step

end TabletState

/-! ## The rows of a tablet -/

namespace Tablet

/-- The timestamp and the cells found at one index. -/
def rowAt (t : Tablet) (i : Nat) : TabletRow :=
  (t.timestamps.getD i 0, t.values.map fun col ↦ col.getD i none)

def storedRows (t : Tablet) : List TabletRow := (List.range t.rowCount).map t.rowAt

theorem storedRows_ofRows {t : Tablet} {rows : List TabletRow} (h : t = ofRows t rows)
    (hfits : ∀ row ∈ rows, RowFits t.types row) :
    t.storedRows = rows.map TabletServer.normalizeRow := by
  have hts : t.timestamps = rows.map Prod.fst := congrArg Tablet.timestamps h
  have hvals : t.values = (List.range t.types.length).map (column rows) := congrArg Tablet.values h
  have hrows := TabletServer.transpose_columns fun row hrow ↦ (hfits row hrow).length
  rw [← TabletServer.map_range_eq t.types (column rows), ← hts, ← hvals] at hrows
  have hcount : t.rowCount = rows.length := by rw [rowCount, hts, List.length_map]
  rw [← hrows, storedRows, hcount]
  rfl

/-- A tablet that holds `rows` in this order. -/
structure Holds (t : Tablet) (rows : List TabletRow) : Prop where
  image : t = ofRows t rows
  names : t.measurements.length = t.types.length
  fits : ∀ row ∈ rows, RowFits t.types row

theorem Built.holds {t : Tablet} {rows : List TabletRow} (h : Built t rows) : Holds t rows :=
  ⟨h.image.1, h.image.2.1, h.image.2.2⟩

theorem Holds.addRow_ok {t t' : Tablet} {rows : List TabletRow} {timestamp : Int64}
    {row : List (Option Value)} (h : Holds t rows) (hadd : t.addRow timestamp row = (.ok (), t')) :
    Holds t' (rows ++ [(timestamp, row)]) := by
  obtain ⟨hfit, rfl⟩ := Tablet.addRow_ok hadd
  refine ⟨ofRows_append h.image hfit, h.names, ?_⟩
  intro r hr
  rcases List.mem_append.mp hr with hr | hr
  · exact h.fits r hr
  · rw [List.mem_singleton.mp hr]
    exact hfit

/-- A failing `add_row` leaves the whole tablet as it was. -/
theorem addRow_error {t : Tablet} {timestamp : Int64} {row : List (Option Value)}
    (h : (t.addRow timestamp row).1 ≠ .ok ()) : (t.addRow timestamp row).2 = t := by
  revert h
  unfold addRow
  split
  · exact fun _ ↦ rfl
  · split
    · exact fun _ ↦ rfl
    · exact fun h ↦ (h rfl).elim

/-- New timestamps for the rows in their order. -/
def retime (timestamps : List Int64) (rows : List TabletRow) : List TabletRow :=
  timestamps.zipWith (fun ts row ↦ (ts, row.2)) rows

theorem retime_map {timestamps : List Int64} {rows : List TabletRow}
    (h : timestamps.length = rows.length) :
    (retime timestamps rows).map Prod.fst = timestamps ∧
      (retime timestamps rows).map Prod.snd = rows.map Prod.snd := by
  unfold retime
  constructor
  · rw [List.map_zipWith]
    apply List.ext_getElem
    · simp [h]
    · simp
  · rw [List.map_zipWith]
    apply List.ext_getElem
    · simp [h]
    · simp

/-- A column is made of the cells alone. -/
theorem column_of_cells {rows rows' : List TabletRow} (h : rows.map Prod.snd = rows'.map Prod.snd)
    (c : Nat) : column rows c = column rows' c := by
  have hcol : ∀ l : List TabletRow, column l c =
      (l.map Prod.snd).map fun cells ↦ normalizeCell (cells.getD c none) := fun l ↦ by
    rw [List.map_map]
    rfl
  rw [hcol, hcol, h]

theorem Holds.timestampsMut {t t' : Tablet} {rows : List TabletRow} {timestamps : List Int64}
    (h : Holds t rows) (hwrite : t.timestampsMut timestamps = some t') :
    Holds t' (retime timestamps rows) ∧ (retime timestamps rows).map Prod.snd = rows.map Prod.snd := by
  unfold Tablet.timestampsMut at hwrite
  split at hwrite
  · rename_i hcount
    cases hwrite
    have hts : t.timestamps = rows.map Prod.fst := congrArg Tablet.timestamps h.image
    have hvals : t.values = (List.range t.types.length).map (column rows) :=
      congrArg Tablet.values h.image
    have hlen : timestamps.length = rows.length := by rw [hcount, hts, List.length_map]
    obtain ⟨htimes, hcells⟩ := retime_map hlen
    refine ⟨⟨?_, h.names, ?_⟩, hcells⟩
    · rw [ofRows, htimes, funext (column_of_cells hcells), ← hvals]
    · intro row hrow
      have hmem : row.2 ∈ rows.map Prod.snd := hcells ▸ List.mem_map_of_mem hrow
      obtain ⟨r, hr, heq⟩ := List.mem_map.mp hmem
      have hfit := h.fits r hr
      exact ⟨heq ▸ hfit.length, heq ▸ hfit.cells⟩
  · cases hwrite

theorem Holds.sortByTimestamp {t : Tablet} {rows : List TabletRow} (h : Holds t rows) :
    ∃ t', t.sortByTimestamp = .ok t' ∧ Holds t' (sortByKey timeKey rows) := by
  refine ⟨ofRows t (sortByKey timeKey rows), ?_, rfl, h.names, ?_⟩
  · rw [← sortByTimestamp_ofRows, ← h.image]
  · exact fun row hrow ↦ h.fits row (mem_sortByKey.mp hrow)

/-- `serialize_values` leaves the tablet as its sort does. -/
theorem serializeValues_sorted {t t' : Tablet} {bytes : List UInt8}
    (h : t.serializeValues = .ok (bytes, t')) : t.sortByTimestamp = .ok t' := by
  unfold Tablet.serializeValues at h
  cases hsort : t.sortByTimestamp with
  | error e => rw [hsort] at h; cases h
  | ok sorted =>
      rw [hsort] at h
      simp only [bind, Except.bind] at h
      split at h
      · cases h
      · split at h
        · cases h
          rfl
        · cases h

theorem serializeTimestamps_sorted {t t' : Tablet} (h : t.sortByTimestamp = .ok t') :
    t.serializeTimestamps.map Prod.snd = .ok t' := by
  rw [Tablet.serializeTimestamps, h]
  rfl

/-- Every call that sorts. -/
theorem call_sorted {t t' : Tablet} {c : TabletCall} (hsort : t.sortByTimestamp = .ok t')
    (hc : c = .sortByTimestamp ∨ c = .serializeValues ∨ c = .serializeTimestamps) :
    t.call c = some t' := by
  rcases hc with rfl | rfl | rfl
  · rw [Tablet.call, hsort]
    rfl
  · rw [Tablet.call]
    split
    · rename_i bytes sorted hvalues
      rw [serializeValues_sorted hvalues] at hsort
      cases hsort
      rfl
    · rw [hsort]
      rfl
  · rw [Tablet.call, serializeTimestamps_sorted hsort]
    rfl

end Tablet

/-! ## Runs -/

namespace TabletState

/-- The tablet holds the added rows in some order, with their own timestamps unless these were
rewritten. -/
def Follows (s : TabletState) : Prop :=
  ∃ rows, s.tablet.Holds rows ∧ (rows.map Prod.snd).Perm (s.added.map Prod.snd) ∧
    (s.rewritten = false → rows.Perm s.added)

theorem step_addRow {s t : TabletState} {timestamp : Int64} {row : List (Option Value)}
    (h : Follows s) (hstep : s.step (.addRow timestamp row) = some t) : Follows t := by
  obtain ⟨rows, hholds, hcells, htimes⟩ := h
  cases hstep
  cases hadd : s.tablet.addRow timestamp row with
  | mk result tablet =>
      by_cases hok : result = .ok ()
      · subst hok
        have hadded : addedBy s.tablet (.addRow timestamp row) = [(timestamp, row)] := by
          rw [addedBy, if_pos (by rw [hadd])]
        refine ⟨rows ++ [(timestamp, row)], hholds.addRow_ok hadd, ?_, ?_⟩
        · rw [hadded, List.map_append, List.map_append]
          exact hcells.append_right _
        · intro hfalse
          rw [hadded]
          exact (htimes (Bool.or_eq_false_iff.mp hfalse).1).append_right _
      · have herror : (s.tablet.addRow timestamp row).1 ≠ .ok () := by rwa [hadd]
        have hadded : addedBy s.tablet (.addRow timestamp row) = [] := by
          rw [addedBy, if_neg herror]
        have hsame := Tablet.addRow_error herror
        rw [hadd] at hsame
        subst hsame
        refine ⟨rows, hholds, ?_, ?_⟩
        · rwa [hadded, List.append_nil]
        · intro hfalse
          rw [hadded, List.append_nil]
          exact htimes (Bool.or_eq_false_iff.mp hfalse).1

theorem step_timestampsMut {s t : TabletState} {timestamps : List Int64} (h : Follows s)
    (hstep : s.step (.timestampsMut timestamps) = some t) : Follows t := by
  obtain ⟨rows, hholds, hcells, -⟩ := h
  obtain ⟨tablet, hwrite, rfl⟩ := Option.map_eq_some_iff.mp hstep
  obtain ⟨hretimed, hsame⟩ := hholds.timestampsMut hwrite
  refine ⟨_, hretimed, ?_, ?_⟩
  · rw [hsame]
    simpa [addedBy] using hcells
  · intro hfalse
    simp [rewrittenBy] at hfalse

theorem step_sorted {s t : TabletState} {c : TabletCall} (h : Follows s)
    (hc : c = .sortByTimestamp ∨ c = .serializeValues ∨ c = .serializeTimestamps)
    (hstep : s.step c = some t) : Follows t := by
  obtain ⟨rows, hholds, hcells, htimes⟩ := h
  obtain ⟨sorted, hsort, hsorted⟩ := hholds.sortByTimestamp
  have hperm := sortByKey_perm Tablet.timeKey rows
  rw [step, Tablet.call_sorted hsort hc] at hstep
  cases hstep
  have hadded : addedBy s.tablet c = [] := by rcases hc with rfl | rfl | rfl <;> rfl
  refine ⟨_, hsorted, ?_, ?_⟩
  · rw [hadded, List.append_nil]
    exact (hperm.map Prod.snd).trans hcells
  · intro hfalse
    rw [hadded, List.append_nil]
    exact hperm.trans (htimes (Bool.or_eq_false_iff.mp hfalse).1)

theorem follows_of_reachable {s : TabletState} (h : machine.Reachable s) : Follows s := by
  refine h.invariant ?_ ?_
  · rintro s ⟨hbuilt, hadded, -⟩
    refine ⟨[], hbuilt.holds, ?_, ?_⟩
    · rw [hadded]
    · intro _
      rw [hadded]
  · intro s c t hs _ hstep
    cases c with
    | addRow timestamp row => exact step_addRow hs hstep
    | timestampsMut timestamps => exact step_timestampsMut hs hstep
    | sortByTimestamp => exact step_sorted hs (.inl rfl) hstep
    | serializeValues => exact step_sorted hs (.inr (.inl rfl)) hstep
    | serializeTimestamps => exact step_sorted hs (.inr (.inr rfl)) hstep

/-- What a caller can rely on.  The permutations pair every row index with one successful `add_row`
call. -/
structure Intact (s : TabletState) : Prop where
  measurements : s.tablet.measurements.length = s.tablet.types.length
  columns : s.tablet.values.length = s.tablet.types.length
  height : ∀ col ∈ s.tablet.values, col.length = s.tablet.rowCount
  typed : ∀ (c : Nat) col ty, s.tablet.values[c]? = some col → s.tablet.types[c]? = some ty →
    ∀ v : Value, some v ∈ col → v ≠ .null ∧ v.dataType = some ty
  cells : (s.tablet.storedRows.map Prod.snd).Perm
    (s.added.map fun row ↦ row.2.map Tablet.normalizeCell)
  times : s.rewritten = false →
    s.tablet.storedRows.Perm (s.added.map fun row ↦ (row.1, row.2.map Tablet.normalizeCell))

theorem Follows.intact {s : TabletState} (h : Follows s) : Intact s := by
  obtain ⟨rows, hholds, hcells, htimes⟩ := h
  have hts : s.tablet.timestamps = rows.map Prod.fst := congrArg Tablet.timestamps hholds.image
  have hvals : s.tablet.values = (List.range s.tablet.types.length).map (Tablet.column rows) :=
    congrArg Tablet.values hholds.image
  have hstored := Tablet.storedRows_ofRows hholds.image hholds.fits
  refine ⟨hholds.names, ?_, ?_, ?_, ?_, ?_⟩
  · rw [hvals, List.length_map, List.length_range]
  · intro col hcol
    rw [hvals, List.mem_map] at hcol
    obtain ⟨c, -, rfl⟩ := hcol
    rw [Tablet.column_length, Tablet.rowCount, hts, List.length_map]
  · intro c col ty hcol hty v hv
    rw [hvals, List.getElem?_map, Option.map_eq_some_iff] at hcol
    obtain ⟨c', hc', rfl⟩ := hcol
    obtain rfl : c = c' := by
      have := List.getElem?_eq_some_iff.mp hc'
      simpa using this.2
    obtain ⟨row, hrow, hcell⟩ := List.mem_map.mp hv
    have htype := ((hholds.fits row hrow).cells c v hcell).trans hty
    refine ⟨?_, htype⟩
    rintro rfl
    cases htype
  · rw [hstored, List.map_map]
    have hmapped := hcells.map (List.map Tablet.normalizeCell)
    rwa [List.map_map, List.map_map] at hmapped
  · intro hfalse
    rw [hstored]
    exact (htimes hfalse).map TabletServer.normalizeRow

end TabletState

/-- In every reachable state of a tablet the cells at one index are those of one `add_row` call. -/
theorem tablet_rows_intact {s : TabletState} (h : TabletState.machine.Reachable s) :
    s.Intact ∧ ∀ (timestamp : Int64) (row : List (Option Value)),
      (s.tablet.addRow timestamp row).1 ≠ .ok () → (s.tablet.addRow timestamp row).2 = s.tablet :=
  ⟨(TabletState.follows_of_reachable h).intact, fun _ _ hfail ↦ Tablet.addRow_error hfail⟩

/-- Two rows that are out of order and one that is refused, then a serialization, a rewrite of the
timestamps and one more row. -/
def sampleCalls : List TabletCall :=
  [.addRow 5 [some (.int32 7), none], .addRow 3 [some (.boolean true), none],
    .addRow 1 [some .null, some (.date 20260713)], .serializeValues, .timestampsMut [9, 2],
    .addRow 4 [some (.int32 8), none], .sortByTimestamp]

def emptyState : TabletState :=
  ⟨⟨"root.sg.d1", ["s0", "s1"], [.int32, .date], [], [[], []], none, false⟩, [], false⟩

theorem emptyState_init : TabletState.machine.init emptyState := by
  have hnew : Tablet.new "root.sg.d1" ["s0", "s1"] [.int32, .date] = .ok emptyState.tablet := rfl
  exact ⟨.new hnew, rfl, rfl⟩

theorem tablet_rows_intact_sample :
    ∃ s, TabletState.machine.Reachable s ∧ s.added.length = 3 ∧ s.tablet.timestamps = [2, 4, 9] ∧
      s.Intact := by
  have hrun : ((TabletState.machine.run Machine.anyStep sampleCalls emptyState).any fun s ↦
      s.added.length = 3 ∧ s.tablet.timestamps = [2, 4, 9]) = true := by decide +kernel
  obtain ⟨s, hs, hfacts⟩ := (Option.any_eq_true _ _).mp hrun
  have hfacts' := of_decide_eq_true hfacts
  have hreach := (Machine.ReachableBy.run (.init emptyState_init) hs).reachable
  exact ⟨s, hreach, hfacts'.1, hfacts'.2, (tablet_rows_intact hreach).1⟩

end IotdbClient
