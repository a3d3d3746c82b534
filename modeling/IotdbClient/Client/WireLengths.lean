import IotdbClient.Client.InsertSafety
import IotdbClient.Client.RecordPairing
import IotdbClient.Data.WireLayout

/-!
# Lengths on the wire

The insert calls cast every payload length and every row count to `i32` and check none of them.  For
each call this file says for which arguments what it sends has true lengths only.
-/

namespace IotdbClient

open Library TabletServer Program Session

/-! ## What a call sends -/

/-- The call returns `Err` before it sends anything, or it sends something and every insert it sends
has the property. -/
def ErrOrSends (P : InsertReq → Prop) (m : SessionM Unit) (st : Session × World) : Prop :=
  ∃ new, (m st).2.1.trace = new ++ st.1.trace ∧
    ((sentCalls new = [] ∧ ∃ e, (m st).1 = .error (.error e)) ∨
      (sentCalls new ≠ [] ∧ ∀ call ∈ sentCalls new, ∃ req, call.request = .insert req ∧ P req))

theorem insert_not_connected (server : Server) (devices : List String) (req : InsertReq)
    {st : Session × World} (h : st.1.connection = none) :
    (insert server devices req st).1 = .error (.error (.client "session is not open")) := by
  simp only [Session.insert, bind_apply, withRetry_eq server (sends_insert server req), h]

theorem insert_of_withoutIds {request : Request} {req : InsertReq}
    (h : request.withoutIds = (Request.insert req).withoutIds) :
    ∃ req', request = .insert req' ∧ req'.withSessionId 0 = req.withSessionId 0 := by
  cases request with
  | insert req' => exact ⟨req', rfl, Request.insert.inj h⟩
  | _ => cases h

/-- An insert sends its request, up to the session id, wherever there is a connection. -/
theorem insert_errOrSends_iff (server : Server) (devices : List String) (req : InsertReq)
    (st : Session × World) {P : InsertReq → Prop} (hP : ∀ id req, P (req.withSessionId id) ↔ P req) :
    ErrOrSends P (insert server devices req) st ↔ st.1.connection = none ∨ P req := by
  obtain ⟨sent, h⟩ : ∃ sent, Disciplined server (.insert (req.withSessionId st.1.sessionId)) st
      (insert server devices req st).1 (insert server devices req st).2 sent :=
    insert_disciplined devices req st
  -- the property does not see the session id, so it cannot tell what is sent from `req`
  have hsent : ∀ call ∈ sentCalls sent, ∃ req', call.request = .insert req' ∧ (P req' ↔ P req) := by
    intro call hcall
    obtain ⟨req', hreq', hids⟩ := insert_of_withoutIds (h.sameRequest call hcall)
    refine ⟨req', hreq', ?_⟩
    rw [← hP 0 req', hids, hP, hP]
  constructor
  · rintro ⟨new, htrace, hnew⟩
    obtain rfl : new = sent := List.append_cancel_right (htrace.symm.trans h.trace)
    rcases hnew with ⟨hquiet, -⟩ | ⟨hsome, hall⟩
    · exact .inl (h.notSent.mp hquiet)
    · obtain ⟨call, hcall⟩ := List.exists_mem_of_ne_nil _ hsome
      obtain ⟨req', hreq', hiff⟩ := hsent call hcall
      obtain ⟨req'', hreq'', hP''⟩ := hall call hcall
      obtain rfl : req'' = req' := Request.insert.inj (hreq''.symm.trans hreq')
      exact .inr (hiff.mp hP'')
  · intro hor
    refine ⟨sent, h.trace, ?_⟩
    by_cases hconn : st.1.connection = none
    · left
      exact ⟨h.notSent.mpr hconn, _, insert_not_connected server _ _ hconn⟩
    · right
      refine ⟨fun hquiet ↦ hconn (h.notSent.mp hquiet), ?_⟩
      intro call hcall
      obtain ⟨req', hreq', hiff⟩ := hsent call hcall
      exact ⟨req', hreq', hiff.mpr (hor.resolve_left hconn)⟩

/-- The property is decided by how the building of the request ends. -/
theorem errOrSends_iff (server : Server) {β : Type} (build : Session → Result β)
    (wrap : β → InsertReq) (devices : β → List String) (st : Session × World)
    {P : InsertReq → Prop} (hP : ∀ id req, P (req.withSessionId id) ↔ P req) :
    ErrOrSends P (do
      let b ← ofOutcome (build (← self))
      insert server (devices b) (wrap b)) st ↔
      Ends (fun _ ↦ True) (fun b ↦ st.1.connection = none ∨ P (wrap b)) (build st.1) := by
  cases hbuild : build st.1 with
  | error fault =>
      -- nothing is sent, and the call ends as the building ended
      simp only [ErrOrSends, bind_apply, self_apply, ofOutcome_apply, hbuild]
      constructor
      · rintro ⟨new, htrace, ⟨-, e, he⟩ | ⟨hsome, -⟩⟩
        · cases he
          exact trivial
        · have hnil : new = [] := by simpa using htrace
          rw [hnil] at hsome
          exact absurd rfl hsome
      · intro hends
        refine ⟨[], rfl, .inl ⟨rfl, ?_⟩⟩
        cases fault with
        | error e => exact ⟨e, rfl⟩
        | panic message => cases hends
  | ok b =>
      have hsend := insert_errOrSends_iff server (devices b) (wrap b) st hP
      simp only [ErrOrSends, bind_apply, self_apply, ofOutcome_apply, hbuild] at hsend ⊢
      exact hsend

/-! ## Tablets -/

/-- The rows of a tablet have a count and payloads whose lengths fit an `i32`. -/
def LengthsFit (rows : List TabletRow) : Prop := rows.length < 2 ^ 31 ∧ PayloadsFit rows

/-- The cells of a tablet in the order they are sent. -/
def sentCells (t : Tablet) (rows : List TabletRow) : List (TSDataType × Option Value) :=
  wireCells t.types (sortByKey Tablet.timeKey rows)

/-- The size field is the row count, and the value buffer has true lengths. -/
def TabletLengthsTrue (t : Tablet) (rows : List TabletRow) : InsertReq → Prop
  | .tablet req => req.size.toInt = rows.length ∧ tabletLayout.Framed (sentCells t rows) req.values
  | _ => False

/-- The same of every entry of the size list and the value list. -/
def TabletsLengthsTrue (batch : List (Tablet × List TabletRow)) : InsertReq → Prop
  | .tablets req =>
      List.Forall₂ (fun p size ↦ size.toInt = p.2.length) batch req.sizeList ∧
      List.Forall₂ (fun p values ↦ tabletLayout.Framed (sentCells p.1 p.2) values) batch
        req.valuesList
  | _ => False

theorem noErr_writeCell (ty : TSDataType) (cell : Option Value) :
    NoErr (Tablet.writeCell ty cell) := by
  intro e h
  cases ty <;> rcases cell with _ | v <;> first | cases h | (cases v <;> cases h)

theorem noErr_sortByTimestamp (t : Tablet) : NoErr t.sortByTimestamp := by
  unfold Tablet.sortByTimestamp
  split
  · exact noErr_ok t
  · have hindex : ∀ {α : Type} (values : List α), NoErr (t.sortOrder.mapM (index values) : Result _) :=
      fun values ↦ NoErr.mapM fun i _ ↦ noErr_index values i
    exact (hindex _).bind fun _ ↦ (NoErr.mapM fun col _ ↦ hindex col).bind fun _ ↦ noErr_ok _

theorem noErr_serializeValues (t : Tablet) : NoErr t.serializeValues := by
  unfold Tablet.serializeValues
  refine (noErr_sortByTimestamp t).bind fun t ↦ ?_
  refine (NoErr.mapM ?_).bind fun cells ↦ ?_
  · rintro ⟨col, ty⟩ _
    exact (NoErr.mapM fun cell _ ↦ noErr_writeCell ty cell).bind fun _ ↦ noErr_ok _
  · split
    · exact noErr_ok _
    · rintro e ⟨⟩

theorem noErr_serializeTimestamps (t : Tablet) : NoErr t.serializeTimestamps :=
  (noErr_sortByTimestamp t).bind fun _ ↦ noErr_ok _

theorem noErr_insertTabletReq (sessionId : Int64) (t : Tablet) : NoErr (insertTabletReq sessionId t) :=
  (noErr_serializeValues t).bind fun _ ↦ (noErr_serializeTimestamps _).bind fun _ ↦ noErr_ok _

theorem noErr_pushTablet {t : Tablet} (htree : t.isTableModel = false) (req : TSInsertTabletsReq) :
    NoErr (pushTablet req t) := by
  rw [pushTablet, if_neg (by rw [htree]; decide)]
  exact (noErr_serializeValues t).bind fun _ ↦ (noErr_serializeTimestamps _).bind fun _ ↦ noErr_ok _

theorem sentCells_framed_iff {t : Tablet} {rows : List TabletRow} (hb : Tablet.Built t rows)
    (h : Serializable t rows) :
    tabletLayout.Framed (sentCells t rows) (valueImage t.types (sortByKey Tablet.timeKey rows)) ↔
      PayloadsFit rows := by
  have hfits : ∀ row ∈ sortByKey Tablet.timeKey rows, Tablet.RowFits t.types row := fun row hrow ↦
    hb.image.2.2 row (mem_sortByKey.mp hrow)
  rw [sentCells, valueImage_framed_iff (h.sort.writable hfits) hfits]
  exact PayloadsFit.perm fun _ ↦ mem_sortByKey

/-- The fields of `insert_tablet` that carry lengths. -/
theorem insertTabletReq_lengths {t : Tablet} {rows : List TabletRow} (hb : Tablet.Built t rows)
    (h : Serializable t rows) (sessionId : Int64) :
    ∃ req, insertTabletReq sessionId t = .ok req ∧ req.size = usizeAsI32 rows.length ∧
      req.values = valueImage t.types (sortByKey Tablet.timeKey rows) := by
  obtain ⟨hvalues, htimes⟩ := h.serialize hb
  rw [insertTabletReq, hvalues]
  change ∃ req, (Tablet.serializeTimestamps _ >>= _) = _ ∧ _
  rw [htimes]
  exact ⟨_, rfl, congrArg usizeAsI32 (rowCount_sorted t rows), rfl⟩

theorem insertTablet_lengths_iff (server : Server) (st : Session × World) {t : Tablet}
    {rows : List TabletRow} (hb : Tablet.Built t rows) :
    ErrOrSends (TabletLengthsTrue t rows) (insertTablet server t) st ↔
      Serializable t rows ∧ (st.1.connection = none ∨ LengthsFit rows) := by
  have hsends := errOrSends_iff server (fun session ↦ insertTabletReq session.sessionId t) .tablet
    (fun req ↦ [req.prefixPath]) st (P := TabletLengthsTrue t rows)
    (by intro id req; cases req <;> exact Iff.rfl)
  refine hsends.trans ?_
  by_cases hserial : Serializable t rows
  · obtain ⟨req, hreq, hsize, hvalues⟩ := insertTabletReq_lengths hb hserial st.1.sessionId
    have hlengths : TabletLengthsTrue t rows (.tablet req) ↔ LengthsFit rows := by
      change req.size.toInt = rows.length ∧ tabletLayout.Framed _ req.values ↔ _
      rw [hsize, usizeAsI32_toInt_eq_iff, hvalues, sentCells_framed_iff hb hserial]
      rfl
    rw [hreq, and_iff_right hserial, ← hlengths]
    rfl
  · -- the call panics
    rw [(noErr_insertTabletReq _ t).ends_iff]
    constructor
    · rintro ⟨req, hreq, -⟩
      exact absurd ((insertTabletReq_ok_iff hb _).mp ⟨req, hreq⟩) hserial
    · rintro ⟨hyes, -⟩
      exact absurd hyes hserial

/-- What the loop of `build_insert_tablets_req` adds for one tablet. -/
def sentEntry (p : Tablet × List TabletRow) : TabletEntry where
  prefixPath := p.1.target
  measurements := p.1.measurements
  values := valueImage p.1.types (sortByKey Tablet.timeKey p.2)
  timestamps := timeImage (sortByKey Tablet.timeKey p.2)
  types := p.1.types.map TSDataType.code
  size := usizeAsI32 p.2.length

theorem pushTablet_entry {t : Tablet} {rows : List TabletRow} (hb : Tablet.Built t rows)
    (h : Serializable t rows) (htree : t.isTableModel = false) (req : TSInsertTabletsReq) :
    pushTablet req t = .ok (req.append [sentEntry (t, rows)]) := by
  obtain ⟨hvalues, htimes⟩ := h.serialize hb
  rw [pushTablet, if_neg (by rw [htree]; decide), hvalues]
  change (Tablet.serializeTimestamps _ >>= _) = _
  rw [htimes, sentEntry, ← rowCount_sorted t rows]
  rfl

/-- The tablets up to the first one of the table model, at which the loop returns `Err`. -/
def leadingTrees (batch : List (Tablet × List TabletRow)) : List (Tablet × List TabletRow) :=
  batch.takeWhile fun p ↦ !p.1.isTableModel

theorem foldlM_pushTablet_ends {batch : List (Tablet × List TabletRow)}
    (hb : ∀ p ∈ batch, Tablet.Built p.1 p.2) (Q : TSInsertTabletsReq → Prop)
    (req : TSInsertTabletsReq) :
    Ends (fun _ ↦ True) Q ((batch.map Prod.fst).foldlM pushTablet req) ↔
      (∀ p ∈ leadingTrees batch, Serializable p.1 p.2) ∧
        ((∃ p ∈ batch, p.1.isTableModel = true) ∨ Q (req.append (batch.map sentEntry))) := by
  induction batch generalizing req with
  | nil =>
      change Q req ↔ (∀ p ∈ leadingTrees [], _) ∧ (_ ∨ Q (req.append []))
      rw [append_nil]
      simp [leadingTrees]
  | cons p batch ih =>
      rw [List.forall_mem_cons] at hb
      rw [List.map_cons, List.foldlM_cons]
      by_cases htable : p.1.isTableModel = true
      · -- the loop stops with an error, whatever comes behind
        have hfail : Ends (fun _ ↦ True) Q
            (pushTablet req p.1 >>= fun req ↦ (batch.map Prod.fst).foldlM pushTablet req) := by
          rw [pushTablet, if_pos htable]
          exact trivial
        have hleading : leadingTrees (p :: batch) = [] :=
          List.takeWhile_cons_of_neg (by rw [htable]; decide)
        rw [iff_true_left hfail, hleading]
        exact ⟨by simp, .inl ⟨p, List.mem_cons_self, htable⟩⟩
      · have htree : p.1.isTableModel = false := by simpa using htable
        have hleading : leadingTrees (p :: batch) = p :: leadingTrees batch :=
          List.takeWhile_cons_of_pos (by rw [htree]; rfl)
        rw [hleading, List.forall_mem_cons, List.exists_mem_cons_iff, iff_false_intro htable, false_or]
        by_cases hserial : Serializable p.1 p.2
        · have happend : req.append ((p :: batch).map sentEntry) =
              (req.append [sentEntry p]).append (batch.map sentEntry) := by
            rw [append_append]
            rfl
          rw [pushTablet_entry hb.1 hserial htree, and_iff_right hserial, happend]
          exact ih hb.2 _
        · -- serializing this tablet panics
          have hnoErr := noErr_pushTablet htree req
          constructor
          · intro hends
            cases hpush : pushTablet req p.1 with
            | ok req' => exact absurd ((pushTablet_ok_iff hb.1 htree req).mp ⟨req', hpush⟩) hserial
            | error fault =>
                rw [hpush] at hends
                cases fault with
                | error e => exact absurd hpush (hnoErr e)
                | panic message => cases hends
          · rintro ⟨⟨hyes, -⟩, -⟩
            exact absurd hyes hserial

theorem insertTablets_lengths_iff (server : Server) (st : Session × World)
    {batch : List (Tablet × List TabletRow)} (hb : ∀ p ∈ batch, Tablet.Built p.1 p.2)
    (isAligned : Bool) :
    ErrOrSends (TabletsLengthsTrue batch) (insertTablets server (batch.map Prod.fst) isAligned) st ↔
      (∀ p ∈ leadingTrees batch, Serializable p.1 p.2) ∧
        (st.1.connection = none ∨ (∃ p ∈ batch, p.1.isTableModel = true) ∨
          ∀ p ∈ batch, LengthsFit p.2) := by
  have hsends := errOrSends_iff server
    (fun session ↦ buildInsertTabletsReq session.sessionId (batch.map Prod.fst) isAligned) .tablets
    (fun req ↦ req.prefixPaths) st (P := TabletsLengthsTrue batch)
    (by intro id req; cases req <;> exact Iff.rfl)
  refine hsends.trans ?_
  by_cases hempty : batch = []
  · -- the call returns `Err`
    subst hempty
    exact ⟨fun _ ↦ ⟨by simp [leadingTrees], .inr (.inr (by simp))⟩, fun _ ↦ trivial⟩
  rw [buildInsertTabletsReq, if_neg (by simpa using hempty), foldlM_pushTablet_ends hb]
  apply and_congr_right
  intro hserial
  by_cases htable : ∃ p ∈ batch, p.1.isTableModel = true
  · exact ⟨fun _ ↦ .inr (.inl htable), fun _ ↦ .inl htable⟩
  -- every tablet is a tree tablet, so every one is sent
  have htree : leadingTrees batch = batch := by
    rw [leadingTrees, List.takeWhile_eq_self_iff]
    intro p hp
    simpa using fun h ↦ htable ⟨p, hp, h⟩
  rw [htree] at hserial
  rw [iff_false_intro htable, false_or, false_or]
  apply or_congr_right
  change List.Forall₂ _ batch ((batch.map sentEntry).map TabletEntry.size) ∧
    List.Forall₂ _ batch ((batch.map sentEntry).map TabletEntry.values) ↔ _
  rw [List.map_map, List.forall₂_map_right_iff, List.forall₂_same, List.map_map,
    List.forall₂_map_right_iff, List.forall₂_same, ← forall₂_and]
  apply forall₂_congr
  intro p hp
  exact and_congr (usizeAsI32_toInt_eq_iff p.2.length) (sentCells_framed_iff (hb p hp) (hserial p hp))

/-! ## Records -/

/-- Every payload has a length that fits an `i32`. -/
def ValuesFit (values : List Value) : Prop := ∀ v ∈ values, v.payload.length < 2 ^ 31

/-- The buffer of a record request has true lengths; only the non-null values are sent. -/
def RecordLengthsTrue (values : List Value) : InsertReq → Prop
  | .record req => recordLayout.Framed (values.filter fun v ↦ !v.isNull) req.values
  | _ => False

/-- Each buffer of a request for many records, one for each row sent. -/
def RecordsLengthsTrue (rows : List CellRow) : InsertReq → Prop
  | .records req =>
      List.Forall₂ (fun row buffer ↦ recordLayout.Framed (row.cells.map Prod.snd) buffer) rows
        req.valuesList
  | .recordsOfOneDevice req =>
      List.Forall₂ (fun row buffer ↦ recordLayout.Framed (row.cells.map Prod.snd) buffer) rows
        req.valuesList
  | _ => False

/-- A null value has no payload. -/
theorem valuesFit_nonNull (values : List Value) :
    ValuesFit (values.filter fun v ↦ !v.isNull) ↔ ValuesFit values := by
  constructor
  · intro h v hv
    by_cases hnull : v.isNull = true
    · obtain rfl := (Value.isNull_iff v).mp hnull
      exact Nat.two_pow_pos 31
    · exact h v (List.mem_filter.mpr ⟨hv, by simpa using hnull⟩)
  · exact fun h v hv ↦ h v (List.mem_of_mem_filter hv)

theorem ends_checkRecordArity (measurements : List String) (values : List Value) :
    Ends (fun _ ↦ True) (fun _ ↦ measurements.length = values.length)
      (checkRecordArity measurements values) := by
  unfold checkRecordArity
  by_cases h : measurements.length = values.length
  · rw [if_neg (not_not.mpr h)]
    exact h
  · rw [if_pos h]
    exact trivial

theorem insertRecord_lengths_iff (server : Server) (st : Session × World) (deviceId : String)
    (timestamp : Int64) (measurements : List String) (values : List Value) (isAligned : Bool) :
    ErrOrSends (RecordLengthsTrue values)
        (insertRecord server deviceId timestamp measurements values isAligned) st ↔
      st.1.connection = none ∨ measurements.length ≠ values.length ∨ ValuesFit values := by
  have hsends := errOrSends_iff server (fun session ↦ insertRecordReq session.sessionId deviceId
    timestamp measurements values isAligned) .record (fun _ ↦ [deviceId]) st
    (P := RecordLengthsTrue values) (by intro id req; cases req <;> exact Iff.rfl)
  refine hsends.trans ?_
  by_cases harity : measurements.length = values.length
  · rw [insertRecordReq_eq harity, ne_eq, iff_false_intro (not_not.mpr harity), false_or]
    by_cases hempty : (nonNullCells measurements values).isEmpty = true
    · -- all values are null: the call returns `Err`
      rw [if_pos hempty]
      refine ⟨fun _ ↦ .inr ?_, fun _ ↦ trivial⟩
      intro v hv
      rw [(nonNullCells_eq_nil harity).mp (List.isEmpty_iff.mp hempty) v hv]
      exact Nat.two_pow_pos 31
    · rw [if_neg hempty]
      apply or_congr_right
      change recordLayout.Framed _ (serializeRecordValues _) ↔ _
      rw [nonNullCells_values harity, serializeRecordValues_framed_iff]
      exact valuesFit_nonNull values
  · refine ⟨fun _ ↦ .inr (.inl harity), fun _ ↦ ?_⟩
    exact (ends_checkRecordArity measurements values).bind fun _ h ↦ absurd h harity

theorem ends_keepRecords (l : List (((String × Int64) × List String) × List Value)) :
    Ends (fun _ ↦ True) (fun _ ↦ ∀ row ∈ l, row.1.2.length = row.2.length) (keepRecords l) := by
  induction l with
  | nil => simp [keepRecords, Ends, pure, Except.pure]
  | cons row l ih =>
      obtain ⟨⟨⟨device, ts⟩, measurements⟩, values⟩ := row
      rw [keepRecords]
      refine (ends_checkRecordArity measurements values).bind fun _ harity ↦ ?_
      refine ih.bind fun kept hrest ↦ ?_
      have hall : ∀ row ∈ (((device, ts), measurements), values) :: l,
          row.1.2.length = row.2.length := List.forall_mem_cons.mpr ⟨harity, hrest⟩
      split
      · exact hall
      · exact hall

theorem ends_keepRows (l : List ((Int64 × List String) × List Value)) :
    Ends (fun _ ↦ True) (fun _ ↦ ∀ row ∈ l, row.1.2.length = row.2.length) (keepRows l) := by
  induction l with
  | nil => simp [keepRows, Ends, pure, Except.pure]
  | cons row l ih =>
      obtain ⟨⟨ts, measurements⟩, values⟩ := row
      rw [keepRows]
      refine (ends_checkRecordArity measurements values).bind fun _ harity ↦ ?_
      refine ih.bind fun kept hrest ↦ ?_
      have hall : ∀ row ∈ ((ts, measurements), values) :: l, row.1.2.length = row.2.length :=
        List.forall_mem_cons.mpr ⟨harity, hrest⟩
      split
      · exact hall
      · exact hall

/-- Where every row of parallel lists pairs its measurements with values, so do the lists. -/
theorem aritiesMatch_of_rows {ι : Type} {keys : List ι} {measurementsList : List (List String)}
    {valuesList : List (List Value)} (hmeasurements : measurementsList.length = keys.length)
    (hvalues : valuesList.length = keys.length)
    (h : ∀ row ∈ (keys.zip measurementsList).zip valuesList, row.1.2.length = row.2.length) :
    AritiesMatch measurementsList valuesList := by
  rw [AritiesMatch, List.forall₂_iff_get]
  refine ⟨hmeasurements.trans hvalues.symm, ?_⟩
  intro i hi hi'
  have hrow : ((keys[i], measurementsList[i]), valuesList[i]) ∈
      (keys.zip measurementsList).zip valuesList :=
    List.mem_iff_getElem.mpr ⟨i, by simp only [List.length_zip]; omega, by simp⟩
  exact h _ hrow

/-- The rows left by the filter carry all payloads there are. -/
theorem keptRows_fit {deviceIds : List String} {timestamps : List Int64}
    {measurementsList : List (List String)} {valuesList : List (List Value)}
    (htimestamps : timestamps.length = deviceIds.length)
    (hmeasurements : measurementsList.length = deviceIds.length)
    (harity : AritiesMatch measurementsList valuesList) :
    (∀ row ∈ keptRows (rowsOf deviceIds timestamps measurementsList valuesList),
      ValuesFit (row.cells.map Prod.snd)) ↔ ∀ values ∈ valuesList, ValuesFit values := by
  have hvalues : valuesList.length = deviceIds.length := harity.length_eq ▸ hmeasurements
  have hkept : ∀ rows : List CellRow, (∀ row ∈ keptRows rows, ValuesFit (row.cells.map Prod.snd)) ↔
      ∀ row ∈ rows, ValuesFit (row.cells.map Prod.snd) := by
    intro rows
    constructor
    · intro h row hrow
      by_cases hempty : row.cells.isEmpty = true
      · rw [List.isEmpty_iff.mp hempty]
        rintro v ⟨⟩
      · exact h row (List.mem_filter.mpr ⟨hrow, by simpa using hempty⟩)
    · exact fun h row hrow ↦ h row (List.mem_of_mem_filter hrow)
  rw [hkept, rowsOf, List.forall_mem_map]
  have hcells : ∀ row ∈ ((deviceIds.zip timestamps).zip measurementsList).zip valuesList,
      (ValuesFit ((nonNullCells row.1.2 row.2).map Prod.snd) ↔ ValuesFit row.2) := by
    intro row hrow
    rw [nonNullCells_values (harity.row hrow), valuesFit_nonNull]
  constructor
  · intro h values hmem
    obtain ⟨row, hrow, rfl⟩ := exists_row_of_values htimestamps hmeasurements hvalues hmem
    exact (hcells row hrow).mp (h row hrow)
  · intro h row hrow
    exact (hcells row hrow).mpr (h _ (List.of_mem_zip hrow).2)

theorem buffers_framed_iff (rows : List CellRow) :
    List.Forall₂ (fun row buffer ↦ recordLayout.Framed (row.cells.map Prod.snd) buffer) rows
      (rows.map CellRow.buffer) ↔ ∀ row ∈ rows, ValuesFit (row.cells.map Prod.snd) := by
  rw [List.forall₂_map_right_iff, List.forall₂_same]
  exact forall₂_congr fun row _ ↦ serializeRecordValues_framed_iff _

/-- The four argument lists of `insert_records` have one length, and every row pairs its measurements
with values. -/
def RecordsPaired (deviceIds : List String) (timestamps : List Int64)
    (measurementsList : List (List String)) (valuesList : List (List Value)) : Prop :=
  timestamps.length = deviceIds.length ∧ measurementsList.length = deviceIds.length ∧
    AritiesMatch measurementsList valuesList

theorem ends_insertRecordsReq (sessionId : Int64) (deviceIds : List String)
    (timestamps : List Int64) (measurementsList : List (List String))
    (valuesList : List (List Value)) (isAligned : Bool) :
    Ends (fun _ ↦ True) (fun _ ↦ RecordsPaired deviceIds timestamps measurementsList valuesList)
      (insertRecordsReq sessionId deviceIds timestamps measurementsList valuesList isAligned) := by
  unfold insertRecordsReq
  by_cases hlen : timestamps.length ≠ deviceIds.length ∨ measurementsList.length ≠ deviceIds.length ∨
      valuesList.length ≠ deviceIds.length
  · rw [if_pos hlen]
    exact trivial
  · rw [if_neg hlen]
    refine (ends_keepRecords _).bind fun kept hrows ↦ ?_
    have hpaired : RecordsPaired deviceIds timestamps measurementsList valuesList :=
      ⟨by omega, by omega, aritiesMatch_of_rows (by rw [List.length_zip]; omega)
        (by rw [List.length_zip]; omega) hrows⟩
    split
    · exact trivial
    · exact hpaired

theorem insertRecords_lengths_iff (server : Server) (st : Session × World) (deviceIds : List String)
    (timestamps : List Int64) (measurementsList : List (List String))
    (valuesList : List (List Value)) (isAligned : Bool) :
    ErrOrSends (RecordsLengthsTrue (keptRows (rowsOf deviceIds timestamps measurementsList valuesList)))
        (insertRecords server deviceIds timestamps measurementsList valuesList isAligned) st ↔
      st.1.connection = none ∨ ¬RecordsPaired deviceIds timestamps measurementsList valuesList ∨
        ∀ values ∈ valuesList, ValuesFit values := by
  have hsends := errOrSends_iff server (fun session ↦ insertRecordsReq session.sessionId deviceIds
    timestamps measurementsList valuesList isAligned) .records (fun req ↦ req.prefixPaths) st
    (P := RecordsLengthsTrue (keptRows (rowsOf deviceIds timestamps measurementsList valuesList)))
    (by intro id req; cases req <;> exact Iff.rfl)
  refine hsends.trans ?_
  by_cases hpaired : RecordsPaired deviceIds timestamps measurementsList valuesList
  · obtain ⟨htimestamps, hmeasurements, harity⟩ := hpaired
    rw [insertRecordsReq_eq htimestamps hmeasurements harity,
      iff_false_intro (not_not.mpr ⟨htimestamps, hmeasurements, harity⟩), false_or,
      ← keptRows_fit htimestamps hmeasurements harity]
    generalize keptRows (rowsOf deviceIds timestamps measurementsList valuesList) = kept
    cases kept with
    | nil => exact ⟨fun _ ↦ .inr (by simp), fun _ ↦ trivial⟩
    | cons row kept => exact or_congr_right (buffers_framed_iff (row :: kept))
  · refine ⟨fun _ ↦ .inr (.inl hpaired), fun _ ↦ ?_⟩
    exact (ends_insertRecordsReq _ _ _ _ _ _).mono fun _ h ↦ absurd h hpaired

/-- The same of the three lists of `insert_records_of_one_device`. -/
def RowsPaired (timestamps : List Int64) (measurementsList : List (List String))
    (valuesList : List (List Value)) : Prop :=
  measurementsList.length = timestamps.length ∧ AritiesMatch measurementsList valuesList

theorem ends_insertRecordsOfOneDeviceReq (sessionId : Int64) (deviceId : String)
    (timestamps : List Int64) (measurementsList : List (List String))
    (valuesList : List (List Value)) (isAligned : Bool) :
    Ends (fun _ ↦ True) (fun _ ↦ RowsPaired timestamps measurementsList valuesList)
      (insertRecordsOfOneDeviceReq sessionId deviceId timestamps measurementsList valuesList
        isAligned) := by
  unfold insertRecordsOfOneDeviceReq
  by_cases hlen : measurementsList.length ≠ timestamps.length ∨ valuesList.length ≠ timestamps.length
  · rw [if_pos hlen]
    exact trivial
  · rw [if_neg hlen]
    refine (ends_keepRows _).bind fun kept hrows ↦ ?_
    have hpaired : RowsPaired timestamps measurementsList valuesList :=
      ⟨by omega, aritiesMatch_of_rows (by omega) (by omega) hrows⟩
    split
    · exact trivial
    · rw [sortOneDeviceRows_eq]
      exact hpaired

theorem insertRecordsOfOneDevice_lengths_iff (server : Server) (st : Session × World)
    (deviceId : String) (timestamps : List Int64) (measurementsList : List (List String))
    (valuesList : List (List Value)) (isAligned : Bool) :
    ErrOrSends (RecordsLengthsTrue (sortByKey CellRow.key
          (keptRows (rowsOfOneDevice deviceId timestamps measurementsList valuesList))))
        (insertRecordsOfOneDevice server deviceId timestamps measurementsList valuesList isAligned) st ↔
      st.1.connection = none ∨ ¬RowsPaired timestamps measurementsList valuesList ∨
        ∀ values ∈ valuesList, ValuesFit values := by
  have hsends := errOrSends_iff server (fun session ↦ insertRecordsOfOneDeviceReq session.sessionId
    deviceId timestamps measurementsList valuesList isAligned) .recordsOfOneDevice
    (fun _ ↦ [deviceId]) st
    (P := RecordsLengthsTrue (sortByKey CellRow.key
      (keptRows (rowsOfOneDevice deviceId timestamps measurementsList valuesList))))
    (by intro id req; cases req <;> exact Iff.rfl)
  refine hsends.trans ?_
  by_cases hpaired : RowsPaired timestamps measurementsList valuesList
  · obtain ⟨hmeasurements, harity⟩ := hpaired
    have hlen : (timestamps.map fun _ ↦ deviceId).length = timestamps.length := List.length_map _
    rw [insertRecordsOfOneDeviceReq_eq hmeasurements harity,
      iff_false_intro (not_not.mpr ⟨hmeasurements, harity⟩), false_or,
      ← keptRows_fit hlen.symm (hmeasurements.trans hlen.symm) harity, ← rowsOfOneDevice]
    generalize keptRows (rowsOfOneDevice deviceId timestamps measurementsList valuesList) = kept
    by_cases hempty : kept = []
    · subst hempty
      exact ⟨fun _ ↦ .inr (by simp), fun _ ↦ trivial⟩
    · dsimp only
      rw [if_neg (by simpa using hempty)]
      apply or_congr_right
      refine (buffers_framed_iff (sortByKey CellRow.key kept)).trans ?_
      simp only [mem_sortByKey]
  · refine ⟨fun _ ↦ .inr (.inl hpaired), fun _ ↦ ?_⟩
    exact (ends_insertRecordsOfOneDeviceReq _ _ _ _ _ _).mono fun _ h ↦ absurd h hpaired

/-! ## All insert calls -/

/-- When a call returns `Err` or sends true lengths: unless it is refused for another reason, when
every row count and every payload length is below `2 ^ 31`. -/
theorem wire_lengths_true_iff (server : Server) (st : Session × World) :
    (∀ (t : Tablet) (rows : List TabletRow), Tablet.Built t rows →
      (ErrOrSends (TabletLengthsTrue t rows) (insertTablet server t) st ↔
        Serializable t rows ∧ (st.1.connection = none ∨ LengthsFit rows))) ∧
    (∀ (batch : List (Tablet × List TabletRow)) (isAligned : Bool),
      (∀ p ∈ batch, Tablet.Built p.1 p.2) →
      (ErrOrSends (TabletsLengthsTrue batch)
          (insertTablets server (batch.map Prod.fst) isAligned) st ↔
        (∀ p ∈ leadingTrees batch, Serializable p.1 p.2) ∧
          (st.1.connection = none ∨ (∃ p ∈ batch, p.1.isTableModel = true) ∨
            ∀ p ∈ batch, LengthsFit p.2))) ∧
    (∀ (deviceId : String) (timestamp : Int64) (measurements : List String) (values : List Value)
      (isAligned : Bool),
      ErrOrSends (RecordLengthsTrue values)
          (insertRecord server deviceId timestamp measurements values isAligned) st ↔
        st.1.connection = none ∨ measurements.length ≠ values.length ∨ ValuesFit values) ∧
    (∀ (deviceIds : List String) (timestamps : List Int64) (measurementsList : List (List String))
      (valuesList : List (List Value)) (isAligned : Bool),
      ErrOrSends
          (RecordsLengthsTrue (keptRows (rowsOf deviceIds timestamps measurementsList valuesList)))
          (insertRecords server deviceIds timestamps measurementsList valuesList isAligned) st ↔
        st.1.connection = none ∨ ¬RecordsPaired deviceIds timestamps measurementsList valuesList ∨
          ∀ values ∈ valuesList, ValuesFit values) ∧
    ∀ (deviceId : String) (timestamps : List Int64) (measurementsList : List (List String))
      (valuesList : List (List Value)) (isAligned : Bool),
      ErrOrSends (RecordsLengthsTrue (sortByKey CellRow.key
            (keptRows (rowsOfOneDevice deviceId timestamps measurementsList valuesList))))
          (insertRecordsOfOneDevice server deviceId timestamps measurementsList valuesList
            isAligned) st ↔
        st.1.connection = none ∨ ¬RowsPaired timestamps measurementsList valuesList ∨
          ∀ values ∈ valuesList, ValuesFit values :=
  ⟨fun _ _ hb ↦ insertTablet_lengths_iff server st hb,
    fun _ isAligned hb ↦ insertTablets_lengths_iff server st hb isAligned,
    insertRecord_lengths_iff server st, insertRecords_lengths_iff server st,
    insertRecordsOfOneDevice_lengths_iff server st⟩

theorem wire_lengths_true_iff_sample :
    Tablet.Built sampleTablet sampleRows ∧ Serializable sampleTablet sampleRows ∧
      LengthsFit sampleRows ∧
      ErrOrSends (TabletLengthsTrue sampleTablet sampleRows)
        (insertTablet brokenPipeServer sampleTablet) connectedState ∧
      ErrOrSends (TabletsLengthsTrue [(sampleTablet, sampleRows)])
        (insertTablets brokenPipeServer [sampleTablet] false) connectedState := by
  have hb := sampleTablet_ready.built
  have hs : Serializable sampleTablet sampleRows := .inr sampleTablet_ready.insertable
  have hfit : LengthsFit sampleRows := ⟨sampleTablet_ready.count, sampleTablet_ready.payload⟩
  have htree : leadingTrees [(sampleTablet, sampleRows)] = [(sampleTablet, sampleRows)] := rfl
  have hall := wire_lengths_true_iff brokenPipeServer connectedState
  refine ⟨hb, hs, hfit, (hall.1 _ _ hb).mpr ⟨hs, .inr hfit⟩, ?_⟩
  apply (hall.2.1 [(sampleTablet, sampleRows)] false (by simpa using hb)).mpr
  rw [htree]
  exact ⟨by simpa using hs, .inr (.inr (by simpa using hfit))⟩

/-! A length of `2 ^ 32` is cast to zero: the server reads an empty payload, and then the payload
byte by byte as further cells. -/

theorem serializeRecordValues_nulls (n : Nat) :
    serializeRecordValues (List.replicate n .null) = List.replicate n typeNull := by
  induction n with
  | zero => rfl
  | succ n ih =>
      rw [List.replicate_succ, List.replicate_succ, ← ih]
      rfl

theorem serializeRecordValues_wrapped {n : Nat} (h : usizeAsI32 n = 0) :
    serializeRecordValues [.blob (List.replicate n typeNull)] =
      serializeRecordValues (.blob [] :: List.replicate n .null) := by
  have hcell : recordCell (.blob (List.replicate n typeNull)) =
      recordCell (.blob []) ++ List.replicate n typeNull := by
    simp only [recordCell, Tablet.writeBinary, List.length_replicate, h]
    rfl
  change recordCell _ ++ [] = recordCell _ ++ serializeRecordValues _
  rw [serializeRecordValues_nulls, hcell, List.append_nil]

theorem wrapped_blob_splits {n : Nat} (hwrap : usizeAsI32 n = 0) (hn : ¬n < 2 ^ 31) :
    ¬ErrOrSends (RecordLengthsTrue [.blob (List.replicate n typeNull)])
        (insertRecord brokenPipeServer "root.sg.d1" 1 ["s0"] [.blob (List.replicate n typeNull)]
          false) connectedState ∧
      i32At (serializeRecordValues [.blob (List.replicate n typeNull)]) 1 = 0 ∧
      RecordServer.decodeRecord (serializeRecordValues [.blob (List.replicate n typeNull)]) =
        some (.blob [] :: List.replicate n .null) := by
  refine ⟨?_, ?_, ?_⟩
  · rw [insertRecord_lengths_iff]
    rintro (hconn | harity | hfit)
    · cases hconn
    · exact harity rfl
    · have hlength := hfit _ (List.mem_singleton_self _)
      change (List.replicate n typeNull).length < 2 ^ 31 at hlength
      rw [List.length_replicate] at hlength
      exact hn hlength
  · rw [serializeRecordValues_wrapped hwrap]
    have hdrop : (serializeRecordValues (.blob [] :: List.replicate n .null)).drop 1 =
        i32ToBeBytes 0 ++ serializeRecordValues (List.replicate n .null) := rfl
    exact i32At_of_drop hdrop
  · rw [serializeRecordValues_wrapped hwrap]
    apply RecordServer.decodeRecord_serializeRecordValues
    intro v hv
    rcases List.mem_cons.mp hv with rfl | hv
    · exact Nat.two_pow_pos 31
    · rw [List.eq_of_mem_replicate hv]
      exact Nat.two_pow_pos 31

theorem wide_blob_read_as_nulls :
    ¬ErrOrSends (RecordLengthsTrue [.blob (List.replicate (2 ^ 32) typeNull)])
        (insertRecord brokenPipeServer "root.sg.d1" 1 ["s0"]
          [.blob (List.replicate (2 ^ 32) typeNull)] false) connectedState ∧
      i32At (serializeRecordValues [.blob (List.replicate (2 ^ 32) typeNull)]) 1 = 0 ∧
      RecordServer.decodeRecord
          (serializeRecordValues [.blob (List.replicate (2 ^ 32) typeNull)]) =
        some (.blob [] :: List.replicate (2 ^ 32) .null) :=
  wrapped_blob_splits (by decide) (by decide)

end IotdbClient
