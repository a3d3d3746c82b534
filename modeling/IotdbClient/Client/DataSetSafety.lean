import IotdbClient.Client.DataSet

/-!
# No panic while iterating

`assemble_row` indexes the timestamps and the columns of the current block at a position it only
compared with `position_count`, and takes the column from a map the server sent.  The shape that
`TsBlock::decode` guarantees makes every index fit, whatever the map and the type list say.
-/

namespace IotdbClient

open Library Program

namespace SessionDataSet

/-! ## Row assembly -/

theorem ends_assembleCell (ds : SessionDataSet) {block : TsBlock} {i : Nat}
    (hblock : block.Rectangular) (hi : i < block.positionCount) (ordinal : Nat) :
    Ends IsDecodeError (fun _ ↦ True) (ds.assembleCell block i ordinal) := by
  have hphysical : Ends IsDecodeError (fun _ ↦ True) (physicalColumn ds.columnIndexMap ordinal) := by
    unfold physicalColumn
    cases ds.columnIndexMap with
    | none => exact trivial
    | some map =>
        cases hentry : map[ordinal]? with
        | none => simp only [hentry]; exact ⟨_, rfl⟩
        | some physical => simp only [hentry]; exact trivial
  refine hphysical.bind fun physical _ ↦ ?_
  by_cases htime : physical = -1
  · rw [if_pos htime, index_of_lt (by rw [hblock.times]; exact hi)]
    exact trivial
  · rw [if_neg htime]
    cases hcolumn : columnAt block physical with
    | none => exact ⟨_, rfl⟩
    | some column =>
        have hmem : column ∈ block.columns := by
          unfold columnAt at hcolumn
          split at hcolumn
          · cases hcolumn
          · exact List.mem_of_getElem? hcolumn
        have hlt : i < column.length := by rw [hblock.heights column hmem]; exact hi
        simp only [index_of_lt hlt]
        exact trivial

theorem ends_assembleAt (ds : SessionDataSet) {block : TsBlock} {i : Nat}
    (hblock : block.Rectangular) (hi : i < block.positionCount) :
    Ends IsDecodeError (fun _ ↦ True) (ds.assembleAt block i) := by
  refine (Ends.mapM _ fun ordinal _ ↦ ends_assembleCell ds hblock hi ordinal).bind fun values _ ↦ ?_
  by_cases hignore : ds.ignoreTimeStamp
  · rw [if_pos hignore]
    exact trivial
  · rw [if_neg hignore, index_of_lt (by rw [hblock.times]; exact hi)]
    exact trivial

/-! ## Calls on the session -/

variable (server : Server)

theorem ends_fetchResults (site : CallSite) (queryId : Int64) (sql : String)
    (s : Session × World) :
    Ends (fun _ ↦ True) (fun _ ↦ True) (Session.fetchResults server site queryId sql s).1 := by
  rw [Session.fetchResults_eq]
  cases s.1.connection with
  | none => exact trivial
  | some connection =>
      simp only
      cases server.answer s.2.calls connection (.fetchResults (s.1.fetchReq queryId sql)) with
      | error e => exact trivial
      | ok resp => exact (ends_checkStatus _).bind fun _ _ ↦ trivial

/-! ## Iteration -/

/-- The current block has the shape of a decoded block. -/
def Shaped (ds : SessionDataSet) : Prop := ∀ block, ds.current = some block → block.Rectangular

theorem shaped_of_none {ds : SessionDataSet} (h : ds.current = none) : ds.Shaped := by
  intro block hblock
  rw [h] at hblock
  cases hblock

theorem turn_shaped {st : DataSetState} (hopen : st.1.closed = false) (h : st.1.Shaped) :
    NoPanic (turn server st).1 ∧ (turn server st).2.1.Shaped := by
  obtain ⟨ds, s⟩ := st
  have hturn := turn_spec server s hopen
  generalize (turn server (ds, s)).1 = out at hturn ⊢
  generalize (turn server (ds, s)).2 = next at hturn ⊢
  cases hturn with
  | row hcurrent hlt hrow => exact ⟨noPanic_ok _, h⟩
  | rowFailed hcurrent hlt hrow =>
      have hends := ends_assembleAt ds (h _ hcurrent) hlt
      rw [hrow] at hends
      exact ⟨hends.noPanic_error, h⟩
  | @decoded _ _ bytes rest block hdrained hpending hdecode =>
      have hends := decode_rectangular bytes
      rw [hdecode] at hends
      refine ⟨noPanic_ok _, ?_⟩
      intro other hother
      cases hother
      exact hends
  | @corrupt _ _ bytes rest fault hdrained hpending hdecode =>
      have hends := decode_rectangular bytes
      rw [hdecode] at hends
      exact ⟨hends.noPanic_error, shaped_of_none rfl⟩
  | fetchFailed hdrained hpending hmore hfetch =>
      have hends := ends_fetchResults server .dataSet ds.queryId ds.statement s
      simp only [hfetch] at hends
      exact ⟨hends.noPanic_error, shaped_of_none rfl⟩
  | refilled hdrained hpending hmore hfetch hcontinue =>
      exact ⟨noPanic_ok _, shaped_of_none rfl⟩
  | lastPageEmpty hdrained hpending hmore hfetch => exact ⟨noPanic_ok _, shaped_of_none rfl⟩
  | exhausted hdrained hpending hmore => exact ⟨noPanic_ok _, shaped_of_none rfl⟩

theorem reaches_shaped {start st : DataSetState} (hstart : start.1.Shaped)
    (h : Reaches server start st) : st.1.Shaped := by
  induction h with
  | refl => exact hstart
  | turn _ hopen ih => exact (turn_shaped server hopen ih).2
  | @close st _ ih =>
      obtain ⟨ds, s⟩ := st
      rw [close_eq]
      split
      · exact ih
      · exact shaped_of_none rfl

theorem nextRowLoop_noPanic {st : DataSetState} (fuel : Nat) (hopen : st.1.closed = false)
    (h : st.1.Shaped) {out : Result (Option Row)} {st' : DataSetState}
    (hrun : nextRowLoop server fuel st = some (out, st')) : NoPanic out := by
  induction fuel generalizing st with
  | zero => cases hrun
  | succ fuel ih =>
      have hturn := turn_shaped server hopen h
      unfold nextRowLoop at hrun
      rcases hst : turn server st with ⟨fault | ⟨_ | row⟩, next⟩ <;> rw [hst] at hrun hturn
      · cases hrun
        exact fun message heq ↦ hturn.1 message (by cases heq; rfl)
      · exact ih (turn_continue server hopen hst) hturn.2 hrun
      · cases hrun
        exact noPanic_ok _

theorem nextRow_noPanic {st : DataSetState} (fuel : Nat) (h : st.1.Shaped)
    {out : Result (Option Row)} {st' : DataSetState}
    (hrun : nextRow server fuel st = some (out, st')) : NoPanic out := by
  unfold nextRow at hrun
  cases hclosed : st.1.closed with
  | true =>
      rw [if_pos hclosed] at hrun
      cases hrun
      exact noPanic_ok _
  | false =>
      rw [if_neg (by rw [hclosed]; decide)] at hrun
      exact nextRowLoop_noPanic server fuel hclosed h hrun

end SessionDataSet

open SessionDataSet

theorem malformed_bytes_never_panic :
    (∀ bytes : Slice, Ends IsDecodeError TsBlock.Rectangular (TsBlock.decode bytes)) ∧
    ∀ (server : Server) (handle : QueryHandle) (s : Session × World) (st : DataSetState),
      Reaches server (SessionDataSet.new handle, s) st →
        (∀ block, st.1.current = some block → st.1.rowIndex < block.positionCount →
          NoPanic st.1.assembleRow) ∧
        ∀ (fuel : Nat) (out : Result (Option Row)) (st' : DataSetState),
          nextRow server fuel st = some (out, st') → NoPanic out := by
  refine ⟨decode_rectangular, ?_⟩
  intro server handle s st hst
  have hshaped : st.1.Shaped := reaches_shaped server (shaped_of_none rfl) hst
  refine ⟨?_, fun fuel out st' ↦ nextRow_noPanic server fuel hshaped⟩
  intro block hblock hlt
  rw [assembleRow, hblock]
  exact (ends_assembleAt st.1 (hshaped block hblock) hlt).noPanic

/-- Nothing answers. -/
def downServer : Server := ⟨fun _ _ _ ↦ some (.client "refused"), fun _ _ _ ↦ .error "down"⟩

/-- One block that ends after the column count, and a map that points nowhere. -/
def truncatedHandle : QueryHandle :=
  ⟨1, "SELECT s1", ["s1"], [], false, [⟨[0, 0, 0, 1], by decide⟩], true, some [7]⟩

theorem malformed_bytes_never_panic_truncated :
    Ends IsDecodeError TsBlock.Rectangular (TsBlock.decode ⟨[0, 0, 0, 1], by decide⟩) ∧
      ∀ (fuel : Nat) (out : Result (Option Row)) (st' : DataSetState),
        nextRow downServer fuel
          (SessionDataSet.new truncatedHandle, Session.new .default, ⟨0, 0, 0⟩) = some (out, st') →
        NoPanic out :=
  ⟨malformed_bytes_never_panic.1 _,
    (malformed_bytes_never_panic.2 downServer truncatedHandle (Session.new .default, ⟨0, 0, 0⟩) _
      .refl).2⟩

end IotdbClient
