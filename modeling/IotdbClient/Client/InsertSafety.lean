import IotdbClient.Client.Requests

/-!
# Where serialization panics

`write_cell` has no arm for a null cell of a `Vector` or `Unknown` column and takes such a cell for
unreachable.  The constructors accept these column types, and `add_row` accepts null for any of them.
-/

namespace IotdbClient

open Library TabletServer

/-- No row has been added, or every column has one of the ten types that can be written. -/
def Serializable (t : Tablet) (rows : List TabletRow) : Prop :=
  rows = [] ∨ ∀ ty ∈ t.types, ty.insertable = true

theorem writeCell_ok_of_insertable {ty : TSDataType} {cell : Option Value}
    (hty : ty.insertable = true) (hcell : ∀ v, cell = some v → v.dataType = some ty) :
    Tablet.writeCell ty cell = .ok (cellImage ty cell) := by
  cases cell with
  | none => cases ty <;> first | rfl | cases hty
  | some v =>
      have hv := hcell v rfl
      cases v <;> cases hv <;> rfl

theorem writeCell_none_eq_ok {ty : TSDataType} {bytes : List UInt8}
    (h : Tablet.writeCell ty none = .ok bytes) : ty.insertable = true := by
  cases ty <;> first | rfl | cases h

theorem Serializable.writable {t : Tablet} {rows : List TabletRow} (h : Serializable t rows)
    (hfits : ∀ row ∈ rows, Tablet.RowFits t.types row) : Writable t.types rows := by
  intro p hp cell hcell
  obtain ⟨row, hrow, rfl⟩ := List.mem_map.mp hcell
  have hty := List.mem_zipIdx_iff_getElem?.mp hp
  rcases h with rfl | hall
  · cases hrow
  · apply writeCell_ok_of_insertable (hall _ (List.mem_of_getElem? hty))
    intro v hv
    exact ((hfits row hrow).cells p.2 v hv).trans hty

theorem Serializable.sort {t : Tablet} {rows : List TabletRow} (h : Serializable t rows) :
    Serializable t (sortByKey Tablet.timeKey rows) := by
  rcases h with rfl | hall
  · exact .inl rfl
  · exact .inr hall

/-- Both serializers of a tablet whose cells can be written. -/
theorem Serializable.serialize {t : Tablet} {rows : List TabletRow} (h : Serializable t rows)
    (hb : Tablet.Built t rows) :
    t.serializeValues = .ok (valueImage t.types (sortByKey Tablet.timeKey rows),
        Tablet.ofRows t (sortByKey Tablet.timeKey rows)) ∧
      (Tablet.ofRows t (sortByKey Tablet.timeKey rows)).serializeTimestamps =
        .ok (timeImage (sortByKey Tablet.timeKey rows),
          Tablet.ofRows t (sortByKey Tablet.timeKey rows)) := by
  have hfits : ∀ row ∈ sortByKey Tablet.timeKey rows, Tablet.RowFits t.types row := fun row hrow ↦
    hb.image.2.2 row (mem_sortByKey.mp hrow)
  have hvalues := serializeValues_of_writable t rows (h.sort.writable hfits)
  rw [← hb.image.1] at hvalues
  exact ⟨hvalues, serializeTimestamps_sorted t rows⟩

/-- The converse: where the serializer returns, every cell was written. -/
theorem serializable_of_ok {t : Tablet} {rows : List TabletRow} (hb : Tablet.Built t rows)
    {out : List UInt8 × Tablet} (h : t.serializeValues = .ok out) : Serializable t rows := by
  by_cases hrows : rows = []
  · exact .inl hrows
  right
  intro ty hty
  obtain ⟨c, hc, rfl⟩ := List.getElem_of_mem hty
  obtain ⟨row, hrow⟩ := List.exists_mem_of_ne_nil rows hrows
  rw [hb.image.1, Tablet.serializeValues, Tablet.sortByTimestamp_ofRows] at h
  obtain ⟨_, ⟨⟩, hrest⟩ := bind_eq_ok.mp h
  obtain ⟨cells, hcells, -⟩ := bind_eq_ok.mp hrest
  -- column `c` of the sorted rows and the cell that `row` has in it
  have hcol : (Tablet.column (sortByKey Tablet.timeKey rows) c, t.types[c]) ∈
      (Tablet.ofRows t (sortByKey Tablet.timeKey rows)).values.zip t.types := by
    rw [List.mem_iff_getElem]
    refine ⟨c, by simpa [Tablet.ofRows] using hc, by simp [Tablet.ofRows]⟩
  obtain ⟨chunk, hchunk⟩ := mapM_eq_ok_mem hcells hcol
  obtain ⟨chunks, hchunks, -⟩ := bind_eq_ok.mp hchunk
  have hcell : Tablet.normalizeCell (row.2.getD c none) ∈
      Tablet.column (sortByKey Tablet.timeKey rows) c :=
    List.mem_map.mpr ⟨row, mem_sortByKey.mpr hrow, rfl⟩
  obtain ⟨bytes, hbytes⟩ := mapM_eq_ok_mem hchunks hcell
  cases hvalue : Tablet.normalizeCell (row.2.getD c none) with
  | none =>
      rw [hvalue] at hbytes
      exact writeCell_none_eq_ok hbytes
  | some v =>
      have htype := (hb.image.2.2 row hrow).cells c v hvalue
      exact Value.insertable_of_dataType (htype.trans (List.getElem?_eq_getElem hc))

theorem serializeValues_ok_iff {t : Tablet} {rows : List TabletRow} (hb : Tablet.Built t rows) :
    (∃ out, t.serializeValues = .ok out) ↔ Serializable t rows :=
  ⟨fun ⟨_, hout⟩ ↦ serializable_of_ok hb hout, fun h ↦ ⟨_, (h.serialize hb).1⟩⟩

theorem insertTabletReq_ok_iff {t : Tablet} {rows : List TabletRow} (hb : Tablet.Built t rows)
    (sessionId : Int64) : (∃ req, insertTabletReq sessionId t = .ok req) ↔ Serializable t rows := by
  constructor
  · rintro ⟨req, hreq⟩
    obtain ⟨out, hvalues, -⟩ := bind_eq_ok.mp hreq
    exact serializable_of_ok hb hvalues
  · intro h
    obtain ⟨hvalues, htimes⟩ := h.serialize hb
    rw [insertTabletReq, hvalues]
    change ∃ req, (Tablet.serializeTimestamps _ >>= _) = _
    rw [htimes]
    exact ⟨_, rfl⟩

theorem pushTablet_ok_iff {t : Tablet} {rows : List TabletRow} (hb : Tablet.Built t rows)
    (htree : t.isTableModel = false) (req : TSInsertTabletsReq) :
    (∃ req', pushTablet req t = .ok req') ↔ Serializable t rows := by
  rw [pushTablet, if_neg (by rw [htree]; decide)]
  constructor
  · rintro ⟨req', hreq⟩
    obtain ⟨out, hvalues, -⟩ := bind_eq_ok.mp hreq
    exact serializable_of_ok hb hvalues
  · intro h
    obtain ⟨hvalues, htimes⟩ := h.serialize hb
    rw [hvalues]
    change ∃ req', (Tablet.serializeTimestamps _ >>= _) = _
    rw [htimes]
    exact ⟨_, rfl⟩

theorem foldlM_pushTablet_ok_iff {batch : List (Tablet × List TabletRow)}
    (h : ∀ p ∈ batch, Tablet.Built p.1 p.2 ∧ p.1.isTableModel = false) (req : TSInsertTabletsReq) :
    (∃ req', (batch.map Prod.fst).foldlM pushTablet req = .ok req') ↔
      ∀ p ∈ batch, Serializable p.1 p.2 := by
  induction batch generalizing req with
  | nil => exact ⟨fun _ ↦ by simp, fun _ ↦ ⟨req, rfl⟩⟩
  | cons p batch ih =>
      rw [List.forall_mem_cons] at h
      have hpush := pushTablet_ok_iff h.1.1 h.1.2 req
      rw [List.forall_mem_cons, List.map_cons, List.foldlM_cons]
      constructor
      · rintro ⟨req', hreq⟩
        obtain ⟨mid, hmid, hrest⟩ := bind_eq_ok.mp hreq
        exact ⟨hpush.mp ⟨mid, hmid⟩, (ih h.2 mid).mp ⟨req', hrest⟩⟩
      · rintro ⟨hp, hrest⟩
        obtain ⟨mid, hmid⟩ := hpush.mpr hp
        rw [hmid]
        exact (ih h.2 mid).mpr hrest

/-- Serialization and the insert calls built on it return a buffer exactly where no null cell of an
uninsertable column reaches `write_cell`. -/
theorem serialize_ok_iff (sessionId : Int64) :
    (∀ (t : Tablet) (rows : List TabletRow), Tablet.Built t rows →
      ((∃ out, t.serializeValues = .ok out) ↔ Serializable t rows)) ∧
    (∀ (t : Tablet) (rows : List TabletRow), Tablet.Built t rows →
      ((∃ req, insertTabletReq sessionId t = .ok req) ↔ Serializable t rows)) ∧
    ∀ (batch : List (Tablet × List TabletRow)) (isAligned : Bool), batch ≠ [] →
      (∀ p ∈ batch, Tablet.Built p.1 p.2 ∧ p.1.isTableModel = false) →
      ((∃ req, buildInsertTabletsReq sessionId (batch.map Prod.fst) isAligned = .ok req) ↔
        ∀ p ∈ batch, Serializable p.1 p.2) := by
  refine ⟨fun t rows hb ↦ serializeValues_ok_iff hb,
    fun t rows hb ↦ insertTabletReq_ok_iff hb sessionId, ?_⟩
  intro batch isAligned hne h
  rw [buildInsertTabletsReq, if_neg (by simpa using hne)]
  exact foldlM_pushTablet_ok_iff h _

/-- A tablet with one `Vector` column. -/
def vectorTablet : Tablet :=
  ⟨"root.sg.d1", ["s0"], [.vector], [1], [[none]], none, false⟩

theorem vectorTablet_built : Tablet.Built vectorTablet [(1, [none])] := by
  have hnew : Tablet.new "root.sg.d1" ["s0"] [.vector] =
    .ok ⟨"root.sg.d1", ["s0"], [.vector], [], [[]], none, false⟩ := rfl
  exact .addRow (.new hnew) rfl

/-- One null cell in it is enough. -/
theorem vectorTablet_panics :
    Tablet.Built vectorTablet [(1, [none])] ∧
      vectorTablet.serializeValues = .error (.panic <| "internal error: entered unreachable code: " ++
        "cell None does not match tablet column type Vector") ∧
      insertTabletReq 1 vectorTablet = .error (.panic <| "internal error: entered unreachable code: " ++
        "cell None does not match tablet column type Vector") :=
  ⟨vectorTablet_built, by decide +kernel, by decide +kernel⟩

theorem serialize_ok_iff_sample :
    Tablet.Built sampleTablet sampleRows ∧ Serializable sampleTablet sampleRows ∧
      (∃ out, sampleTablet.serializeValues = .ok out) ∧
      (∃ req, insertTabletReq 1 sampleTablet = .ok req) ∧
      ∃ req, buildInsertTabletsReq 1 [sampleTablet] true = .ok req := by
  have hb := sampleTablet_ready.built
  have hs : Serializable sampleTablet sampleRows := .inr sampleTablet_ready.insertable
  obtain ⟨hvalues, htablet, htablets⟩ := serialize_ok_iff 1
  refine ⟨hb, hs, (hvalues _ _ hb).mpr hs, (htablet _ _ hb).mpr hs, ?_⟩
  exact (htablets [(sampleTablet, sampleRows)] true (by simp)
    (by simpa using ⟨hb, rfl⟩)).mpr (by simpa using hs)

end IotdbClient
