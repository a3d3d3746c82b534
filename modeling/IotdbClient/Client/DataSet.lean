import IotdbClient.Client.Session
import IotdbClient.Data.TsBlockShape

/-!
# Result sets

`SessionDataSet::next_row` is a loop without local variables: everything it remembers between two
turns is in the data set.  `turn` is one turn of it, and `nextRow` runs turns until one returns.
-/

namespace IotdbClient

open Library Program

structure Row where
  timestamp : Option Int64
  values : List Value
deriving Repr, DecidableEq

structure SessionDataSet where
  queryId : Int64
  statement : String
  columns : List String
  dataTypeList : List String
  ignoreTimeStamp : Bool
  columnIndexMap : Option (List Int32)
  pendingBlocks : List Slice
  current : Option TsBlock
  rowIndex : Nat
  moreData : Bool
  closed : Bool

/-- A result set, the session it borrows and the world. -/
abbrev DataSetState := SessionDataSet × Session × World

abbrev DataSetM (α : Type) := Program DataSetState Error α

namespace SessionDataSet

def new (handle : QueryHandle) : SessionDataSet where
  queryId := handle.queryId
  statement := handle.statement
  columns := handle.columns
  dataTypeList := handle.dataTypeList
  ignoreTimeStamp := handle.ignoreTimeStamp
  columnIndexMap := handle.columnIndex2TsBlockColumnIndexList
  pendingBlocks := handle.queryResult
  current := none
  rowIndex := 0
  moreData := handle.moreData
  closed := false

def applyLogicalType (value : Value) (logical : Option String) : Value :=
  match logical, value with
  | some "DATE", .int32 v => .date v
  | some "TIMESTAMP", .int64 v => .timestamp v
  | some "STRING", .text s => .string s
  | some "BLOB", .text s => .blob (asBytes s)
  | _, v => v

def physicalColumn (columnIndexMap : Option (List Int32)) (ordinal : Nat) : Result Int32 :=
  match columnIndexMap with
  | some map =>
      match map[ordinal]? with
      | some physical => pure physical
      | none => fail (.decode
          s!"column index map has {map.length} entries, need output column {ordinal}")
  | none => pure (usizeAsI32 ordinal)

/-- `usize::try_from(physical).ok().and_then(|p| block.columns.get(p))`. -/
def columnAt (block : TsBlock) (physical : Int32) : Option (List Value) :=
  if physical < 0 then none else block.columns[physical.toInt.toNat]?

/-- The loop body of `assemble_row`. -/
def assembleCell (ds : SessionDataSet) (block : TsBlock) (i ordinal : Nat) : Result Value := do
  let physical ← physicalColumn ds.columnIndexMap ordinal
  if physical = -1 then do
    let t ← index block.timestamps i
    pure (.timestamp t)
  else
    match columnAt block physical with
    | some column => do
        let v ← index column i
        pure (applyLogicalType v ds.dataTypeList[ordinal]?)
    | none => fail (.decode <| s!"column index map points at TsBlock column {physical}, " ++
        s!"block has {block.columns.length}")

/-- `assemble_row` at row `i` of `block`. -/
def assembleAt (ds : SessionDataSet) (block : TsBlock) (i : Nat) : Result Row := do
  let values ← (List.range ds.columns.length).mapM (assembleCell ds block i)
  if ds.ignoreTimeStamp then pure ⟨none, values⟩
  else do
    let t ← index block.timestamps i
    pure ⟨some t, values⟩

def assembleRow (ds : SessionDataSet) : Result Row :=
  match ds.current with
  | some block => ds.assembleAt block ds.rowIndex
  | none => .error (.panic "current block")

def self : DataSetM SessionDataSet := Prod.fst <$> get

def update (f : SessionDataSet → SessionDataSet) : DataSetM Unit := modify fun (ds, s) ↦ (f ds, s)

/-- A call on the borrowed session. -/
def onSession {α : Type} (m : SessionM α) : DataSetM α := fun (ds, s) ↦
  let r := m s
  (r.1, (ds, r.2))

variable (server : Server)

def close : DataSetM Unit := do
  let ds ← self
  if ds.closed then pure ()
  else do
    update fun ds ↦ { ds with closed := true, pendingBlocks := [], current := none }
    onSession (Session.closeQuery server .dataSet ds.queryId)

/-- Step 4: auto-close and report the end. -/
def finish : DataSetM (Option (Option Row)) := do
  close server
  pure (some none)

/-- Steps 2 to 4, with no current block. -/
def advance : DataSetM (Option (Option Row)) := do
  let ds ← self
  match ds.pendingBlocks with
  | bytes :: rest => do
      update fun ds ↦ { ds with pendingBlocks := rest }
      let block ← ofOutcome (TsBlock.decode bytes)
      update fun ds ↦ { ds with current := some block, rowIndex := 0 }
      pure none
  | [] =>
      if ds.moreData then do
        let (blocks, more) ← onSession (Session.fetchResults server .dataSet ds.queryId ds.statement)
        update fun ds ↦ { ds with pendingBlocks := blocks, moreData := more }
        -- Both `continue`s: blocks to decode, or an empty page with more to come.
        if !blocks.isEmpty || more then pure none else finish server
      else finish server

/-- One turn of the loop: `none` is `continue`, `some r` is `return Ok(r)`. -/
def turn : DataSetM (Option (Option Row)) := do
  let ds ← self
  match ds.current with
  | some block =>
      if ds.rowIndex < block.positionCount then do
        let row ← ofOutcome ds.assembleRow
        update fun ds ↦ { ds with rowIndex := ds.rowIndex + 1 }
        pure (some (some row))
      else do
        update fun ds ↦ { ds with current := none }
        advance server
  | none => advance server

def nextRowLoop : Nat → DataSetState → Option (Result (Option Row) × DataSetState)
  | 0, _ => none
  | fuel + 1, st =>
      match turn server st with
      | (.ok none, st') => nextRowLoop fuel st'
      | (.ok (some row), st') => some (.ok row, st')
      | (.error e, st') => some (.error e, st')

/-- `next_row`, cut off after `fuel` turns of its loop. -/
def nextRow (fuel : Nat) (st : DataSetState) : Option (Result (Option Row) × DataSetState) :=
  if st.1.closed then some (.ok none, st) else nextRowLoop server fuel st

/-- `n` calls in a row, whatever they return. -/
def nextRows (fuel : Nat) : Nat → DataSetState → Option (List (Result (Option Row)) × DataSetState)
  | 0, st => some ([], st)
  | n + 1, st => do
      let (result, st) ← nextRow server fuel st
      let (results, st) ← nextRows fuel n st
      pure (result :: results, st)

/-! ## What one turn does -/

/-- No unread row in the current block. -/
def Drained (ds : SessionDataSet) : Prop :=
  ∀ block, ds.current = some block → block.positionCount ≤ ds.rowIndex

/-- `self.current = None`. -/
def dropCurrent (ds : SessionDataSet) : SessionDataSet := { ds with current := none }

/-- The data set once closed. -/
def shut (ds : SessionDataSet) : SessionDataSet :=
  { ds with closed := true, pendingBlocks := [], current := none }

@[simp] theorem self_apply (ds : SessionDataSet) (s : Session × World) :
    self (ds, s) = (.ok ds, (ds, s)) := rfl

@[simp] theorem update_apply (f : SessionDataSet → SessionDataSet) (ds : SessionDataSet)
    (s : Session × World) : update f (ds, s) = (.ok (), (f ds, s)) := rfl

@[simp] theorem onSession_apply {α : Type} (m : SessionM α) (ds : SessionDataSet)
    (s : Session × World) : onSession m (ds, s) = ((m s).1, (ds, (m s).2)) := rfl

theorem turn_row {ds : SessionDataSet} {s : Session × World} {block : TsBlock}
    (hcurrent : ds.current = some block) (hlt : ds.rowIndex < block.positionCount) :
    turn server (ds, s) =
      match ds.assembleAt block ds.rowIndex with
      | .ok row => (.ok (some (some row)), ({ ds with rowIndex := ds.rowIndex + 1 }, s))
      | .error e => (.error e, (ds, s)) := by
  have hassemble : ds.assembleRow = ds.assembleAt block ds.rowIndex := by
    rw [assembleRow, hcurrent]
  simp only [turn, bind_apply, self_apply, hcurrent, branch_apply, if_pos hlt, ofOutcome_apply,
    hassemble]
  cases ds.assembleAt block ds.rowIndex with
  | ok row => simp only [update_apply, pure_apply, hcurrent]
  | error e => rfl

theorem turn_drained {ds : SessionDataSet} {s : Session × World} (h : ds.Drained) :
    turn server (ds, s) = advance server (ds.dropCurrent, s) := by
  cases hcurrent : ds.current with
  | none =>
      have hself : ds.dropCurrent = ds := by rw [dropCurrent, ← hcurrent]
      simp only [turn, bind_apply, self_apply, hcurrent, hself]
  | some block =>
      have hge : ¬ds.rowIndex < block.positionCount := Nat.not_lt.mpr (h block hcurrent)
      simp only [turn, bind_apply, self_apply, hcurrent, branch_apply, if_neg hge, update_apply,
        dropCurrent]

theorem advance_pop {ds : SessionDataSet} {s : Session × World} {bytes : Slice} {rest : List Slice}
    (h : ds.pendingBlocks = bytes :: rest) :
    advance server (ds, s) =
      match TsBlock.decode bytes with
      | .ok block =>
          (.ok none, ({ ds with pendingBlocks := rest, current := some block, rowIndex := 0 }, s))
      | .error e => (.error e, ({ ds with pendingBlocks := rest }, s)) := by
  simp only [advance, bind_apply, self_apply, h, update_apply, ofOutcome_apply]
  cases TsBlock.decode bytes with
  | ok block => simp only [update_apply, pure_apply]
  | error e => rfl

theorem finish_eq {ds : SessionDataSet} {s : Session × World} (h : ds.closed = false) :
    finish server (ds, s) =
      (.ok (some none), (ds.shut, (Session.closeQuery server .dataSet ds.queryId s).2)) := by
  have hclose := Session.closeQuery_ok server .dataSet ds.queryId s
  simp only [finish, close, bind_apply, self_apply, h, update_apply, branch_apply, onSession_apply,
    Bool.false_eq_true, if_false, hclose, pure_apply]
  rfl

theorem advance_fetch {ds : SessionDataSet} {s : Session × World} (hpending : ds.pendingBlocks = [])
    (hmore : ds.moreData = true) :
    advance server (ds, s) =
      match Session.fetchResults server .dataSet ds.queryId ds.statement s with
      | (.ok (blocks, more), s') =>
          if !blocks.isEmpty || more then
            (.ok none, ({ ds with pendingBlocks := blocks, moreData := more }, s'))
          else finish server ({ ds with pendingBlocks := blocks, moreData := more }, s')
      | (.error e, s') => (.error e, (ds, s')) := by
  simp only [advance, bind_apply, self_apply, hpending, hmore, if_true, branch_apply, onSession_apply]
  rcases Session.fetchResults server .dataSet ds.queryId ds.statement s with ⟨_ | ⟨blocks, more⟩, s'⟩
  · rfl
  · simp only [update_apply, pure_apply]

theorem advance_end {ds : SessionDataSet} {s : Session × World} (hpending : ds.pendingBlocks = [])
    (hmore : ds.moreData = false) : advance server (ds, s) = finish server (ds, s) := by
  simp only [advance, bind_apply, self_apply, hpending, hmore, Bool.false_eq_true, if_false]

/-- Every way a turn of an open result set can go. -/
inductive Turn : DataSetState → Result (Option (Option Row)) → DataSetState → Prop where
  | row {ds : SessionDataSet} {s : Session × World} {block : TsBlock} {row : Row}
      (hcurrent : ds.current = some block) (hlt : ds.rowIndex < block.positionCount)
      (hrow : ds.assembleAt block ds.rowIndex = .ok row) :
      Turn (ds, s) (.ok (some (some row))) ({ ds with rowIndex := ds.rowIndex + 1 }, s)
  | rowFailed {ds : SessionDataSet} {s : Session × World} {block : TsBlock} {fault : Fault Error}
      (hcurrent : ds.current = some block) (hlt : ds.rowIndex < block.positionCount)
      (hrow : ds.assembleAt block ds.rowIndex = .error fault) :
      Turn (ds, s) (.error fault) (ds, s)
  | decoded {ds : SessionDataSet} {s : Session × World} {bytes : Slice} {rest : List Slice}
      {block : TsBlock} (hdrained : ds.Drained) (hpending : ds.pendingBlocks = bytes :: rest)
      (hdecode : TsBlock.decode bytes = .ok block) :
      Turn (ds, s) (.ok none)
        ({ ds with pendingBlocks := rest, current := some block, rowIndex := 0 }, s)
  | corrupt {ds : SessionDataSet} {s : Session × World} {bytes : Slice} {rest : List Slice}
      {fault : Fault Error} (hdrained : ds.Drained) (hpending : ds.pendingBlocks = bytes :: rest)
      (hdecode : TsBlock.decode bytes = .error fault) :
      Turn (ds, s) (.error fault) ({ ds with pendingBlocks := rest, current := none }, s)
  | fetchFailed {ds : SessionDataSet} {s s' : Session × World} {fault : Fault Error}
      (hdrained : ds.Drained) (hpending : ds.pendingBlocks = []) (hmore : ds.moreData = true)
      (hfetch : Session.fetchResults server .dataSet ds.queryId ds.statement s =
        (.error fault, s')) :
      Turn (ds, s) (.error fault) ({ ds with current := none }, s')
  | refilled {ds : SessionDataSet} {s s' : Session × World} {blocks : List Slice} {more : Bool}
      (hdrained : ds.Drained) (hpending : ds.pendingBlocks = []) (hmore : ds.moreData = true)
      (hfetch : Session.fetchResults server .dataSet ds.queryId ds.statement s =
        (.ok (blocks, more), s'))
      (hcontinue : (!blocks.isEmpty || more) = true) :
      Turn (ds, s) (.ok none)
        ({ ds with pendingBlocks := blocks, current := none, moreData := more }, s')
  | lastPageEmpty {ds : SessionDataSet} {s s' : Session × World}
      (hdrained : ds.Drained) (hpending : ds.pendingBlocks = []) (hmore : ds.moreData = true)
      (hfetch : Session.fetchResults server .dataSet ds.queryId ds.statement s =
        (.ok ([], false), s')) :
      Turn (ds, s) (.ok (some none))
        ({ ds.shut with moreData := false }, (Session.closeQuery server .dataSet ds.queryId s').2)
  | exhausted {ds : SessionDataSet} {s : Session × World} (hdrained : ds.Drained)
      (hpending : ds.pendingBlocks = []) (hmore : ds.moreData = false) :
      Turn (ds, s) (.ok (some none))
        (ds.shut, (Session.closeQuery server .dataSet ds.queryId s).2)

theorem turn_spec {ds : SessionDataSet} (s : Session × World) (hopen : ds.closed = false) :
    Turn server (ds, s) (turn server (ds, s)).1 (turn server (ds, s)).2 := by
  by_cases hdrained : ds.Drained
  · -- no row is left in the current block: the next block, a fetch or the end
    rw [turn_drained server hdrained]
    cases hpending : ds.pendingBlocks with
    | cons bytes rest =>
        have hnext : ds.dropCurrent.pendingBlocks = bytes :: rest := hpending
        rw [advance_pop server hnext]
        cases hdecode : TsBlock.decode bytes with
        | ok block => exact .decoded hdrained hpending hdecode
        | error fault => exact .corrupt hdrained hpending hdecode
    | nil =>
        have hnext : ds.dropCurrent.pendingBlocks = [] := hpending
        have hopen' : ds.dropCurrent.closed = false := hopen
        cases hmore : ds.moreData with
        | false =>
            have hmore' : ds.dropCurrent.moreData = false := hmore
            rw [advance_end server hnext hmore', finish_eq server hopen']
            exact .exhausted hdrained hpending hmore
        | true =>
            have hmore' : ds.dropCurrent.moreData = true := hmore
            rw [advance_fetch server hnext hmore']
            rcases hfetch : Session.fetchResults server .dataSet ds.dropCurrent.queryId
              ds.dropCurrent.statement s with ⟨fault | ⟨blocks, more⟩, s'⟩
            · exact .fetchFailed hdrained hpending hmore hfetch
            · by_cases hcontinue : (!blocks.isEmpty || more) = true
              · simp only [if_pos hcontinue]
                exact .refilled hdrained hpending hmore hfetch hcontinue
              · -- an empty page that is the last one
                have hlast : blocks = [] ∧ more = false := by simpa using hcontinue
                rw [hlast.1, hlast.2] at hfetch ⊢
                have hshut : ({ ds.dropCurrent with pendingBlocks := [], moreData := false } :
                  SessionDataSet).closed = false := hopen
                simp only [List.isEmpty_nil, Bool.not_true, Bool.or_self, Bool.false_eq_true,
                  if_false]
                rw [finish_eq server hshut]
                exact .lastPageEmpty hdrained hpending hmore hfetch
  · unfold Drained at hdrained
    push Not at hdrained
    obtain ⟨block, hcurrent, hlt⟩ := hdrained
    rw [turn_row server hcurrent hlt]
    cases hrow : ds.assembleAt block ds.rowIndex with
    | ok row => exact .row hcurrent hlt hrow
    | error fault => exact .rowFailed hcurrent hlt hrow

/-- A turn that goes on leaves the result set open. -/
theorem turn_continue {st next : DataSetState} (hopen : st.1.closed = false)
    (h : turn server st = (.ok none, next)) : next.1.closed = false := by
  obtain ⟨ds, s⟩ := st
  have hturn := turn_spec server s hopen
  rw [h] at hturn
  generalize hout : (Except.ok none : Result (Option (Option Row))) = out at hturn
  cases hturn with
  | decoded => exact hopen
  | refilled => exact hopen
  | _ => cases hout

/-! ## Runs -/

/-- States met while a result set is iterated: turns of `next_row` and calls of `close`, in any
order. -/
inductive Reaches (start : DataSetState) : DataSetState → Prop where
  | refl : Reaches start start
  | turn {st : DataSetState} (h : Reaches start st) (hopen : st.1.closed = false) :
      Reaches start (turn server st).2
  | close {st : DataSetState} (h : Reaches start st) : Reaches start (close server st).2

theorem close_eq (ds : SessionDataSet) (s : Session × World) :
    close server (ds, s) =
      if ds.closed then (.ok (), (ds, s))
      else (.ok (), (ds.shut, (Session.closeQuery server .dataSet ds.queryId s).2)) := by
  have hclose := Session.closeQuery_ok server .dataSet ds.queryId s
  simp only [close, bind_apply, self_apply, update_apply, branch_apply, onSession_apply, hclose,
    pure_apply]
  rfl

end SessionDataSet

end IotdbClient
