import IotdbClient.Client.DataSet
import IotdbClient.Client.SessionSpec

/-!
# The owner of a session

Whoever holds a session calls its methods one at a time, and none of them while a result set borrows
it.  `act` is one such action; a pooled session is used through the same actions.
-/

namespace IotdbClient

open Library Program

/-- A method of the session. -/
inductive SessionCall where
  | open
  | executeNonQuery (sql : String)
  | executeQueryRaw (sql : String)
  | fetchResults (queryId : Int64) (sql : String)
  | closeQuery (queryId : Int64)
  | insertTablet (tablet : Tablet)
  | insertTabletRaw (req : TSInsertTabletReq)
  | insertTablets (tablets : List Tablet) (isAligned : Bool)
  | insertRecord (deviceId : String) (timestamp : Int64) (measurements : List String)
      (values : List Value) (isAligned : Bool)
  | insertRecords (deviceIds : List String) (timestamps : List Int64)
      (measurementsList : List (List String)) (valuesList : List (List Value)) (isAligned : Bool)
  | insertRecordsOfOneDevice (deviceId : String) (timestamps : List Int64)
      (measurementsList : List (List String)) (valuesList : List (List Value)) (isAligned : Bool)
  | redirectHint (deviceId : String)
  | clearRedirectCache
  | close

namespace SessionCall

variable (server : Server)

/-- The session and the world after the call; its result is the caller's business. -/
def run : SessionCall → Session × World → Session × World
  | .open, st => (Session.open server st).2
  | executeNonQuery sql, st => (Session.executeNonQuery server sql st).2
  | executeQueryRaw sql, st => (Session.executeQueryRaw server sql st).2
  | fetchResults queryId sql, st => (Session.fetchResults server .single queryId sql st).2
  | closeQuery queryId, st => (Session.closeQuery server .single queryId st).2
  | insertTablet tablet, st => (Session.insertTablet server tablet st).2
  | insertTabletRaw req, st => (Session.insertTabletRaw server req st).2
  | insertTablets tablets isAligned, st => (Session.insertTablets server tablets isAligned st).2
  | insertRecord deviceId timestamp measurements values isAligned, st =>
      (Session.insertRecord server deviceId timestamp measurements values isAligned st).2
  | insertRecords deviceIds timestamps measurementsList valuesList isAligned, st =>
      (Session.insertRecords server deviceIds timestamps measurementsList valuesList isAligned st).2
  | insertRecordsOfOneDevice deviceId timestamps measurementsList valuesList isAligned, st =>
      (Session.insertRecordsOfOneDevice server deviceId timestamps measurementsList valuesList
        isAligned st).2
  | redirectHint deviceId, st => ((st.1.redirectHint deviceId st.2.clock).2, st.2)
  | clearRedirectCache, st => ({ st.1 with redirectCache := st.1.redirectCache.clear }, st.2)
  | close, st => (Session.close server st).2

variable {server}

/-- A request that cannot be built is not sent. -/
theorem built_step {β : Type} (o : Session → Result β) (f : β → SessionM Unit)
    (hf : ∀ b st, Session.Step server .single st (f b st).2) (st : Session × World) :
    Session.Step server .single st ((do let b ← ofOutcome (o (← Session.self)); f b : SessionM Unit)
      st).2 := by
  simp only [bind_apply, Session.self_apply, ofOutcome_apply]
  cases o st.1 with
  | error fault => exact .idle
  | ok b => exact hf b st

theorem run_step (method : SessionCall) (st : Session × World) :
    Session.Step server .single st (method.run server st) := by
  cases method with
  | «open» => exact Session.open_step st
  | executeNonQuery sql => exact Session.executeNonQuery_step sql st
  | executeQueryRaw sql => exact Session.executeQueryRaw_step sql st
  | fetchResults queryId sql => exact Session.fetchResults_step queryId sql st
  | closeQuery queryId => exact Session.closeQuery_step queryId st
  | insertTabletRaw req => exact Session.insert_step _ _ st
  | insertTablet tablet => exact built_step _ _ (fun _ st ↦ Session.insert_step _ _ st) st
  | insertTablets tablets isAligned =>
      exact built_step _ _ (fun _ st ↦ Session.insert_step _ _ st) st
  | insertRecord deviceId timestamp measurements values isAligned =>
      exact built_step _ _ (fun _ st ↦ Session.insert_step _ _ st) st
  | insertRecords deviceIds timestamps measurementsList valuesList isAligned =>
      exact built_step _ _ (fun _ st ↦ Session.insert_step _ _ st) st
  | insertRecordsOfOneDevice deviceId timestamps measurementsList valuesList isAligned =>
      exact built_step _ _ (fun _ st ↦ Session.insert_step _ _ st) st
  | redirectHint deviceId => exact .hint _
  | clearRedirectCache => exact .hint _
  | close => exact Session.close_step st

end SessionCall

/-- A session, and the result set that borrows it. -/
structure Owner where
  session : Session
  dataSet : Option SessionDataSet

inductive OwnerAction where
  | call (method : SessionCall)
  | executeQuery (sql : String)
  /-- One turn of a `next_row`. -/
  | turn
  | closeDataSet
  /-- The result set goes out of scope. -/
  | dropDataSet

namespace Owner

variable (server : Server)

/-- `none` where the borrow of the session does not allow the action. -/
def act : OwnerAction → Owner × World → Option (Owner × World)
  | .call method, (⟨session, none⟩, world) =>
      let st := method.run server (session, world)
      some (⟨st.1, none⟩, st.2)
  | .executeQuery sql, (⟨session, none⟩, world) =>
      match Session.executeQueryRaw server sql (session, world) with
      | (.ok handle, st) => some (⟨st.1, some (.new handle)⟩, st.2)
      | (.error _, st) => some (⟨st.1, none⟩, st.2)
  | .turn, (⟨session, some ds⟩, world) =>
      if ds.closed then none
      else
        let st := (SessionDataSet.turn server (ds, session, world)).2
        some (⟨st.2.1, some st.1⟩, st.2.2)
  | .closeDataSet, (⟨session, some ds⟩, world) =>
      let st := (SessionDataSet.close server (ds, session, world)).2
      some (⟨st.2.1, some st.1⟩, st.2.2)
  | .dropDataSet, (⟨session, some ds⟩, world) =>
      let st := (SessionDataSet.close server (ds, session, world)).2
      some (⟨st.2.1, none⟩, st.2.2)
  | _, _ => none

/-- What an action does, each with what is known where it is done. -/
inductive Acted : Owner × World → Owner × World → Prop where
  | called (method : SessionCall) (session : Session) (world : World) :
      Acted (⟨session, none⟩, world)
        (⟨(method.run server (session, world)).1, none⟩, (method.run server (session, world)).2)
  | queried {sql : String} {session : Session} {world : World} {handle : QueryHandle}
      {st : Session × World}
      (hrun : Session.executeQueryRaw server sql (session, world) = (.ok handle, st)) :
      Acted (⟨session, none⟩, world) (⟨st.1, some (.new handle)⟩, st.2)
  | queryFailed {sql : String} {session : Session} {world : World} {fault : Fault Error}
      {st : Session × World}
      (hrun : Session.executeQueryRaw server sql (session, world) = (.error fault, st)) :
      Acted (⟨session, none⟩, world) (⟨st.1, none⟩, st.2)
  | turned {ds : SessionDataSet} {session : Session} {world : World}
      {out : Result (Option (Option Row))} {st : DataSetState}
      (hturn : SessionDataSet.Turn server (ds, session, world) out st) :
      Acted (⟨session, some ds⟩, world) (⟨st.2.1, some st.1⟩, st.2.2)
  | closed {ds : SessionDataSet} {session : Session} {world : World} {st : DataSetState}
      (hclose : (SessionDataSet.close server (ds, session, world)).2 = st) :
      Acted (⟨session, some ds⟩, world) (⟨st.2.1, some st.1⟩, st.2.2)
  | dropped {ds : SessionDataSet} {session : Session} {world : World} {st : DataSetState}
      (hclose : (SessionDataSet.close server (ds, session, world)).2 = st) :
      Acted (⟨session, some ds⟩, world) (⟨st.2.1, none⟩, st.2.2)

variable {server} {I : Session × World → Prop}

theorem step_of_query {sql : String} {st st' : Session × World} {out : Result QueryHandle}
    (h : Session.executeQueryRaw server sql st = (out, st')) :
    Session.Step server .single st st' := by
  have hstep : Session.Step server .single st (Session.executeQueryRaw server sql st).2 :=
    Session.executeQueryRaw_step sql st
  rwa [h] at hstep

theorem act_spec {action : OwnerAction} {st st' : Owner × World}
    (h : act server action st = some st') : Acted server st st' := by
  obtain ⟨⟨session, dataSet⟩, world⟩ := st
  cases action with
  | call method =>
      cases dataSet with
      | some ds => cases h
      | none =>
          cases h
          exact .called method session world
  | executeQuery sql =>
      cases dataSet with
      | some ds => cases h
      | none =>
          simp only [act] at h
          split at h
          · rename_i hrun
            cases h
            exact .queried hrun
          · rename_i hrun
            cases h
            exact .queryFailed hrun
  | turn =>
      cases dataSet with
      | none => cases h
      | some ds =>
          simp only [act] at h
          split at h
          · cases h
          · rename_i hopen
            cases h
            exact .turned (SessionDataSet.turn_spec server (session, world) (by simpa using hopen))
  | closeDataSet =>
      cases dataSet with
      | none => cases h
      | some ds =>
          cases h
          exact .closed rfl
  | dropDataSet =>
      cases dataSet with
      | none => cases h
      | some ds =>
          cases h
          exact .dropped rfl

/-- A turn uses the session through `fetch_results` and `close_query` of its own query only. -/
theorem turn_keeps {st st' : DataSetState} {out : Result (Option (Option Row))}
    (h : SessionDataSet.Turn server st out st')
    (hfetch : ∀ sql s, I s → I (Session.fetchResults server .dataSet st.1.queryId sql s).2)
    (hclose : ∀ s, I s → I (Session.closeQuery server .dataSet st.1.queryId s).2) (hst : I st.2) :
    I st'.2 ∧ st'.1.queryId = st.1.queryId := by
  have hfetched : ∀ {sql s out s'},
      Session.fetchResults server .dataSet st.1.queryId sql s = (out, s') → I s → I s' := by
    intro sql s out s' heq hs
    have hnext := hfetch sql s hs
    rwa [heq] at hnext
  cases h with
  | row | rowFailed | decoded | corrupt => exact ⟨hst, rfl⟩
  | fetchFailed _ _ _ heq | refilled _ _ _ heq => exact ⟨hfetched heq hst, rfl⟩
  | lastPageEmpty _ _ _ heq => exact ⟨hclose _ (hfetched heq hst), rfl⟩
  | exhausted => exact ⟨hclose _ hst, rfl⟩

theorem close_keeps (ds : SessionDataSet) {s : Session × World}
    (hclose : ∀ s, I s → I (Session.closeQuery server .dataSet ds.queryId s).2) (hs : I s) :
    I (SessionDataSet.close server (ds, s)).2.2 ∧
      (SessionDataSet.close server (ds, s)).2.1.queryId = ds.queryId := by
  rw [SessionDataSet.close_eq]
  cases ds.closed with
  | true => exact ⟨hs, rfl⟩
  | false => exact ⟨hclose s hs, rfl⟩

/-- An action is one method of the session, or it pages through a result set. -/
theorem act_step_or_pages (hfetch : ∀ queryId sql s, I s →
      I (Session.fetchResults server .dataSet queryId sql s).2)
    (hclose : ∀ queryId s, I s → I (Session.closeQuery server .dataSet queryId s).2)
    {action : OwnerAction} {owner owner' : Owner} {world world' : World}
    (h : act server action (owner, world) = some (owner', world'))
    (hst : I (owner.session, world)) :
    Session.Step server .single (owner.session, world) (owner'.session, world') ∨
      I (owner'.session, world') := by
  cases act_spec h with
  | called method => exact .inl (SessionCall.run_step method _)
  | queried hrun | queryFailed hrun => exact .inl (step_of_query hrun)
  | turned hturn => exact .inr (turn_keeps hturn (hfetch _) (hclose _) hst).1
  | @closed ds _ _ _ heq | @dropped ds _ _ _ heq =>
      subst heq
      exact .inr (close_keeps ds (hclose _) hst).1

/-- What every step of a session keeps, every action of its owner keeps. -/
theorem act_keeps
    (hI : ∀ site, site = .single ∨ site = .dataSet →
      ∀ st st', Session.Step server site st st' → I st → I st')
    {action : OwnerAction} {owner owner' : Owner} {world world' : World}
    (h : act server action (owner, world) = some (owner', world'))
    (hst : I (owner.session, world)) : I (owner'.session, world') := by
  have hfetch : ∀ queryId sql s, I s → I (Session.fetchResults server .dataSet queryId sql s).2 :=
    fun _ _ _ ↦ hI .dataSet (.inr rfl) _ _ (Session.fetchResults_step _ _ _)
  have hclose : ∀ queryId s, I s → I (Session.closeQuery server .dataSet queryId s).2 :=
    fun _ _ ↦ hI .dataSet (.inr rfl) _ _ (Session.closeQuery_step _ _)
  rcases act_step_or_pages hfetch hclose h hst with hstep | hpaged
  · exact hI .single (.inl rfl) _ _ hstep hst
  · exact hpaged

end Owner

end IotdbClient
