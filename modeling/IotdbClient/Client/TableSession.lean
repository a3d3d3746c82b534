import IotdbClient.Client.Footprint
import IotdbClient.Library.Machine

/-!
# Table-model sessions

A table session is a session whose dialect is forced to `"table"` when it is opened and that takes
table-model tablets only.  Its runs are the actions of an owner, less the methods that it does not
have.
-/

namespace IotdbClient

open Library Program

structure TableSessionBuilder where
  config : SessionConfig

structure TableSession where
  session : Session

namespace TableSessionBuilder

def new : TableSessionBuilder := ⟨{ SessionConfig.default with sqlDialect := "table" }⟩

def nodeUrls (builder : TableSessionBuilder) (nodeUrls : List String) :
    Result TableSessionBuilder := do
  let config ← builder.config.withNodeUrls nodeUrls
  pure ⟨config⟩

/-- The configuration with the dialect forced. -/
def forced (builder : TableSessionBuilder) : SessionConfig :=
  { builder.config with sqlDialect := "table" }

def build (server : Server) (builder : TableSessionBuilder) (world : World) :
    Result TableSession × World :=
  match Session.open server (Session.new builder.forced, world) with
  | (.ok (), session, world) => (.ok ⟨session⟩, world)
  | (.error e, _, world) => (.error e, world)

end TableSessionBuilder

namespace TableSession

/-- `insert`, on the session inside. -/
def insert (server : Server) (tablet : Tablet) : SessionM Unit :=
  if !tablet.isTableModel then
    raise (.client "TableSession::insert requires a table-model tablet (Tablet::new_table)")
  else Session.insertTablet server tablet

end TableSession

/-- What the owner of a table session does. -/
inductive TableAction where
  | insert (tablet : Tablet)
  | executeNonQuery (sql : String)
  | close
  | executeQuery (sql : String)
  /-- One turn of a `next_row`. -/
  | turn
  | closeDataSet
  /-- The result set goes out of scope. -/
  | dropDataSet

inductive TableEvent where
  | own (action : TableAction)
  /-- Other sessions of the process make calls, and time passes. -/
  | elsewhere (world : World)

namespace TableSession

variable (server : Server)

/-- `none` where the borrow of the session does not allow the action. -/
def act : TableAction → Owner × World → Option (Owner × World)
  | .insert tablet, (⟨session, none⟩, world) =>
      let st := (insert server tablet (session, world)).2
      some (⟨st.1, none⟩, st.2)
  | .insert _, (⟨_, some _⟩, _) => none
  | .executeNonQuery sql, st => Owner.act server (.call (.executeNonQuery sql)) st
  | .close, st => Owner.act server (.call .close) st
  | .executeQuery sql, st => Owner.act server (.executeQuery sql) st
  | .turn, st => Owner.act server .turn st
  | .closeDataSet, st => Owner.act server .closeDataSet st
  | .dropDataSet, st => Owner.act server .dropDataSet st

/-- A table session from its `build` on. -/
def machine (builder : TableSessionBuilder) : Machine (Owner × World) TableEvent where
  init st := st.1.dataSet = none ∧
    ∃ world, builder.build server world = (.ok ⟨st.1.session⟩, st.2)
  step st
    | .own action => act server action st
    | .elsewhere world => if st.2.calls ≤ world.calls then some (st.1, world) else none

end TableSession

/-! ## Inserts of table-model tablets -/

/-- A tablet for a table, with the categories of its columns. -/
def InsertReq.isTable : InsertReq → Bool
  | tablet req => req.writeToTable = some true && req.columnCategories.isSome
  | _ => false

theorem isTable_withSessionId (req : InsertReq) (sessionId : Int64) :
    (req.withSessionId sessionId).isTable = req.isTable := by
  cases req <;> rfl

theorem sortByTimestamp_categories {t t' : Tablet} (h : t.sortByTimestamp = .ok t') :
    t'.columnCategories = t.columnCategories := by
  unfold Tablet.sortByTimestamp at h
  split at h
  · rw [← Except.ok.inj h]
  · obtain ⟨timestamps, -, h⟩ := Library.bind_eq_ok.mp h
    obtain ⟨values, -, h⟩ := Library.bind_eq_ok.mp h
    rw [← Except.ok.inj h]

theorem serializeValues_categories {t t' : Tablet} {bytes : List UInt8}
    (h : t.serializeValues = .ok (bytes, t')) : t'.columnCategories = t.columnCategories := by
  unfold Tablet.serializeValues at h
  obtain ⟨sorted, hsort, h⟩ := Library.bind_eq_ok.mp h
  obtain ⟨cells, -, h⟩ := Library.bind_eq_ok.mp h
  split at h
  · cases h
    exact sortByTimestamp_categories hsort
  · cases h

theorem serializeTimestamps_categories {t t' : Tablet} {bytes : List UInt8}
    (h : t.serializeTimestamps = .ok (bytes, t')) : t'.columnCategories = t.columnCategories := by
  unfold Tablet.serializeTimestamps at h
  obtain ⟨sorted, hsort, h⟩ := Library.bind_eq_ok.mp h
  cases h
  exact sortByTimestamp_categories hsort

/-- The request of a table-model tablet is one for a table. -/
theorem isTable_insertTabletReq {sessionId : Int64} {t : Tablet} {req : TSInsertTabletReq}
    (htable : t.isTableModel = true) (h : insertTabletReq sessionId t = .ok req) :
    (InsertReq.tablet req).isTable = true := by
  unfold insertTabletReq at h
  obtain ⟨⟨values, t₁⟩, hvalues, h⟩ := Library.bind_eq_ok.mp h
  obtain ⟨⟨timestamps, t₂⟩, htimestamps, h⟩ := Library.bind_eq_ok.mp h
  have hcategories : t₂.columnCategories = t.columnCategories := by
    rw [serializeTimestamps_categories htimestamps, serializeValues_categories hvalues]
  cases hsome : t.columnCategories with
  | none =>
      rw [Tablet.isTableModel, hsome] at htable
      cases htable
  | some categories =>
      rw [hsome] at hcategories
      simp only [hcategories] at h
      rw [← Except.ok.inj h]
      rfl

/-! ## Behind a filter for the table model -/

/-- The server behind a filter that lets table-model traffic through only. -/
abbrev Server.behindTable (server : Server) (builder : TableSessionBuilder) : Server :=
  server.behind builder.forced InsertReq.isTable

open Session

variable {server : Server} {builder : TableSessionBuilder}

namespace TableSessionBuilder

theorem build_behind (world : World) :
    builder.build (server.behindTable builder) world = builder.build server world := by
  have hnew := within_new builder.forced builder.forced.database
  have hsame : Session.open (server.behindTable builder) (Session.new builder.forced, world) =
      Session.open server (Session.new builder.forced, world) :=
    (@unfiltered_open server builder.forced InsertReq.isTable).same _ hnew
  unfold build
  rw [hsame]

theorem build_within {world later : World} {session : Session}
    (h : builder.build server world = (.ok ⟨session⟩, later)) : session.Within builder.forced := by
  have hnew := within_new builder.forced builder.forced.database
  have hkept : (Session.open server (Session.new builder.forced, world)).2.1.Within builder.forced :=
    (@unfiltered_open server builder.forced InsertReq.isTable).kept _ hnew
  unfold build at h
  split at h
  · rename_i hopen
    rw [hopen] at hkept
    cases h
    exact hkept
  · cases h

end TableSessionBuilder

namespace TableSession

-- A tree-model tablet is turned away before anything is asked.
theorem unfiltered_tableInsert (tablet : Tablet) :
    Unfiltered server builder.forced InsertReq.isTable anyValue
      fun server ↦ insert server tablet := by
  by_cases htable : tablet.isTableModel = true
  · have hbuilt : ∀ (session : Session) (req : TSInsertTabletReq) (sessionId : Int64),
        insertTabletReq session.sessionId tablet = .ok req →
          ((InsertReq.tablet req).withSessionId sessionId).isTable = true := by
      intro session req sessionId hreq
      rw [isTable_withSessionId]
      exact isTable_insertTabletReq htable hreq
    simp only [insert, htable, Bool.not_true, Bool.false_eq_true, if_false]
    exact unfiltered_built (fun session ↦ insertTabletReq session.sessionId tablet) .tablet
      (fun req ↦ [req.prefixPath]) hbuilt
  · simp only [insert, htable, Bool.not_false, if_true]
    exact Alike.raise _

theorem act_behind {action : TableAction} {owner : Owner} {world : World}
    (howner : owner.session.Within builder.forced) :
    act (server.behindTable builder) action (owner, world) = act server action (owner, world) ∧
      ∀ st, act server action (owner, world) = some st → st.1.session.Within builder.forced := by
  cases action with
  | insert tablet =>
      obtain ⟨session, dataSet⟩ := owner
      cases dataSet with
      | some ds =>
          refine ⟨rfl, fun st hst ↦ ?_⟩
          cases hst
      | none =>
          have hinsert := @unfiltered_tableInsert server builder tablet
          have hsame : insert (server.behindTable builder) tablet (session, world) =
              insert server tablet (session, world) := hinsert.same (session, world) howner
          have hkept : (insert server tablet (session, world)).2.1.Within builder.forced :=
            hinsert.kept (session, world) howner
          simp only [act, hsame, true_and]
          intro st hst
          rw [← Option.some.inj hst]
          exact hkept
  | executeNonQuery sql =>
      apply Owner.act_behind howner
      intro method hmethod st hst
      cases hmethod
      have hrun := @unfiltered_executeNonQuery server builder.forced InsertReq.isTable sql
      exact ⟨congrArg Prod.snd (hrun.same st hst), hrun.kept st hst⟩
  | close =>
      apply Owner.act_behind howner
      intro method hmethod st hst
      cases hmethod
      have hrun := @unfiltered_close server builder.forced InsertReq.isTable
      exact ⟨congrArg Prod.snd (hrun.same st hst), hrun.kept st hst⟩
  | executeQuery | turn | closeDataSet | dropDataSet =>
      apply Owner.act_behind howner
      intro method hmethod
      cases hmethod

/-- A table session works behind a filter that lets nothing but the table model through: sessions are
opened in the dialect `"table"` and under the configured user, and the only inserts are tablets for
tables with the categories of their columns.  Whether it can be built, and whatever its owner then
does, nobody notices. -/
theorem only_table_traffic {st : Owner × World} (hinit : (machine server builder).init st)
    (events : List TableEvent) :
    (∀ world, builder.build (server.behindTable builder) world = builder.build server world) ∧
      (machine (server.behindTable builder) builder).run Machine.anyStep events st =
        (machine server builder).run Machine.anyStep events st := by
  obtain ⟨-, world, hbuilt⟩ := hinit
  have hwithin := TableSessionBuilder.build_within hbuilt
  refine ⟨TableSessionBuilder.build_behind, ?_⟩
  refine Machine.run_congr (I := fun st ↦ st.1.session.Within builder.forced) ?_ ?_ hwithin events
  · intro st event hst
    cases event with
    | own action => exact (act_behind hst).1
    | elsewhere later => rfl
  · intro st event next hst hstep
    cases event with
    | own action => exact (@act_behind server builder action st.1 st.2 hst).2 next hstep
    | elsewhere later =>
        simp only [machine] at hstep
        split at hstep
        · rw [← Option.some.inj hstep]
          exact hst
        · cases hstep

/-- A server that accepts everything. -/
def acceptingServer : Server where
  connect _ _ _ := none
  answer
    | n, _, .openSession _ => .ok ⟨.mk 200 none none none, some (.ofNat n)⟩
    | n, _, .requestStatementId _ => .ok (.ofNat n)
    | _, _, .insert _ => .ok (TSStatus.mk 200 none none none)
    | _, _, _ => .error "not scripted"

/-- The table session that the builder makes of the defaults. -/
def builtSession : Owner × World :=
  let st := (Session.open acceptingServer (Session.new TableSessionBuilder.new.forced, ⟨0, 0, 0⟩)).2
  (⟨st.1, none⟩, st.2)

/-- A tablet of the tree model, which is turned away, and one for a table. -/
def twoInserts : List TableEvent :=
  [.own (.insert ⟨"root.d1", ["s1"], [.int32], [1], [[some (.int32 7)]], none, false⟩),
    .own (.insert ⟨"table1", ["s1"], [.int32], [1], [[some (.int32 7)]], some [.field], false⟩)]

theorem only_table_traffic_inserts :
    ∃ st, (machine (acceptingServer.behindTable .new) .new).run Machine.anyStep twoInserts
        builtSession = some st ∧
      (st.1.session.trace.map fun call ↦ call.request.isHandshake) = [false, true, true] ∧
      (acceptingServer.behindTable .new).answer 0 ⟨0, ⟨"localhost", 6667⟩⟩
        (.openSession (Session.new .default).openSessionReq) = .error "filtered" := by
  have hends : ((machine acceptingServer .new).run Machine.anyStep twoInserts builtSession).any
      (fun st ↦ decide ((st.1.session.trace.map fun call ↦ call.request.isHandshake) =
        [false, true, true])) = true := by
    decide +kernel
  obtain ⟨st, hrun, hst⟩ := (Option.any_eq_true _ _).mp hends
  have hinit : (machine acceptingServer .new).init builtSession := ⟨rfl, ⟨0, 0, 0⟩, rfl⟩
  have hdialect : TableSessionBuilder.new.forced.permits InsertReq.isTable
      (.openSession (Session.new .default).openSessionReq) = false := by
    decide +kernel
  refine ⟨st, ?_, of_decide_eq_true hst, Server.behind_refuses 0 _ hdialect⟩
  rw [(only_table_traffic hinit twoInserts).2, hrun]

end TableSession

end IotdbClient
