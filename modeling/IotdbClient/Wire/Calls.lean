import IotdbClient.Wire.Service

/-!
# Properties of the generated code

The readers of the generated structs take what a writer of another version may send, and the calls of
the service do what the library says of remote calls: over a working connection they are calls of the
handler, and whatever else is at the other end they return nothing that belongs to another call.
-/

namespace IotdbClient.Wire

open Library

variable {P : TProtocol} {ρ η : Type}

/-! ## Structs -/

/-- The reader of a status takes back the whole tree and leaves what stands behind it; on any input it
ends without a panic and gives nothing back. -/
theorem TSStatus.takes_tree (P : TProtocol) :
    (∀ status : TSStatus, status.Fits P.limits →
      Takes P.holds (TSStatus.codec P).run status.write status) ∧
    ∀ s, SafeOn (P := P) (TSStatus.codec P).run s :=
  ⟨fun _ h ↦ (TSStatus.codec P).takes_run h, (TSStatus.codec P).safeOn_run⟩

/-- The generated structs that are not recursive. -/
inductive Struct where
  | endPoint
  | openSessionReq
  | closeSessionReq
  | executeStatementReq
  | fetchResultsReq
  | closeOperationReq
  | insertRecordReq
  | insertTabletReq
  | insertTabletsReq
  | insertRecordsReq
  | insertRecordsOfOneDeviceReq
  | queryDataSet
  | queryNonAlignDataSet
  | tracingInfo
  | executeStatementResp
  | openSessionResp
  | fetchResultsResp
deriving Repr, DecidableEq

namespace Struct

@[reducible]
def Value : Struct → Type
  | endPoint => TEndPoint
  | openSessionReq => TSOpenSessionReq
  | closeSessionReq => TSCloseSessionReq
  | executeStatementReq => TSExecuteStatementReq
  | fetchResultsReq => TSFetchResultsReq
  | closeOperationReq => TSCloseOperationReq
  | insertRecordReq => TSInsertRecordReq
  | insertTabletReq => TSInsertTabletReq
  | insertTabletsReq => TSInsertTabletsReq
  | insertRecordsReq => TSInsertRecordsReq
  | insertRecordsOfOneDeviceReq => TSInsertRecordsOfOneDeviceReq
  | queryDataSet => TSQueryDataSet
  | queryNonAlignDataSet => TSQueryNonAlignDataSet
  | tracingInfo => TSTracingInfo
  | executeStatementResp => TSExecuteStatementResp
  | openSessionResp => TSOpenSessionResp
  | fetchResultsResp => TSFetchResultsResp

def record (P : TProtocol) : (s : Struct) → Record P s.Value
  | endPoint => TEndPoint.record P
  | openSessionReq => TSOpenSessionReq.record P
  | closeSessionReq => TSCloseSessionReq.record P
  | executeStatementReq => TSExecuteStatementReq.record P
  | fetchResultsReq => TSFetchResultsReq.record P
  | closeOperationReq => TSCloseOperationReq.record P
  | insertRecordReq => TSInsertRecordReq.record P
  | insertTabletReq => TSInsertTabletReq.record P
  | insertTabletsReq => TSInsertTabletsReq.record P
  | insertRecordsReq => TSInsertRecordsReq.record P
  | insertRecordsOfOneDeviceReq => TSInsertRecordsOfOneDeviceReq.record P
  | queryDataSet => TSQueryDataSet.record P
  | queryNonAlignDataSet => TSQueryNonAlignDataSet.record P
  | tracingInfo => TSTracingInfo.record P
  | executeStatementResp => TSExecuteStatementResp.record P
  | openSessionResp => TSOpenSessionResp.record P
  | fetchResultsResp => TSFetchResultsResp.record P

end Struct

/-! ## Calls -/

/-! ### A server that ends sessions and does nothing else -/

def good : TSStatus := .mk 200 none none none none none

theorem fits_good : (TSStatus.codec Binary.protocol).fits good := by
  show good.Fits Binary.limits
  simp [good, TSStatus.Fits, TSStatus.FitsSubStatus]

/-- The answers of the server, whatever the number of the call is. -/
def closingAnswer : (m : Rpc) → Except TError m.Resp
  | .closeSession => .ok good
  | _ => .error (.user "not served")

/-- The server counts its calls. -/
def closingHandler : Handler (service Binary.protocol) Nat := fun m _ n ↦ (closingAnswer m, n + 1)

theorem carried_closing {sequenceNumber : Int32} {sessionId : Int64}
    (hcall : (Binary.pack (((service Binary.protocol).method Rpc.closeSession).callMessage
      sequenceNumber ⟨sessionId⟩)).length ≤ Binary.limits.frame)
    (hanswer : (Binary.pack ((service Binary.protocol).answer Rpc.closeSession sequenceNumber
      (.ok good))).length ≤ Binary.limits.frame) :
    (service Binary.protocol).Carried (ι := Rpc) .closeSession sequenceNumber ⟨sessionId⟩
      (.ok good) where
  name := by decide
  args := ⟨⟨trivial, trivial⟩, trivial⟩
  result := by
    rintro resp ⟨⟩
    refine ⟨?_, trivial⟩
    rintro status ⟨⟩
    exact fits_good
  error := by
    rintro e ⟨⟩
  callFrame := hcall
  answerFrame := hanswer

theorem carried_refused :
    (service Binary.protocol).Carried (ι := Rpc) .requestStatementId 2 (7 : Int64)
      (closingAnswer .requestStatementId) where
  name := by decide
  args := ⟨trivial, trivial⟩
  result := by
    rintro resp ⟨⟩
  error := by
    rintro e ⟨⟩
    decide
  callFrame := by decide
  answerFrame := by decide

/-! ### Runs -/

/-- The calls of a new connection are calls of the handler: each is handled once and in order, and its
result is what the handler returned, an error of the handler as the application error it is sent as. -/
theorem remote_run (handler : Handler (service P) η)
    (handleProcessResult : Fault TError → List (List UInt8)) (calls : List (service P).Invocation)
    {clientInput serverInput : P.σ} {state : η} (hclient : P.holds clientInput [])
    (hserver : P.holds serverInput []) (hlen : calls.length < 2 ^ 31)
    (hcarried : (service P).AllCarried handler calls 0 state) :
    ((service P).runRemote ((service P).peer handler handleProcessResult) calls
        (.new clientInput, serverInput, state)).1 =
          ((service P).runDirect handler calls state).1 ∧
      ((service P).runRemote ((service P).peer handler handleProcessResult) calls
        (.new clientInput, serverInput, state)).2.2.2 =
          ((service P).runDirect handler calls state).2 :=
  Service.runRemote_fresh handleProcessResult calls hclient hserver hlen hcarried

theorem holds_nothing : Binary.protocol.holds [] [] := ⟨by simp, rfl⟩

/-- The second of two calls is refused; both are counted. -/
theorem remote_run_refused :
    ((service Binary.protocol).runRemote
      ((service Binary.protocol).peer closingHandler fun _ ↦ [])
      [⟨Rpc.closeSession, ⟨7⟩⟩, ⟨Rpc.requestStatementId, (7 : Int64)⟩] (.new [], [], 0)).2.2.2 = 2 :=
  (remote_run closingHandler (fun _ ↦ []) [⟨Rpc.closeSession, ⟨7⟩⟩, ⟨Rpc.requestStatementId, (7 : Int64)⟩]
    holds_nothing holds_nothing (by decide)
    ⟨carried_closing (by decide) (by decide), carried_refused, trivial⟩).2

/-- Behind a network that delays, repeats and reorders the answers of the server, each call of a
connection up to the first that fails returns the server's answer to itself. -/
theorem answers_not_crossed {result : (m : Rpc) → Int32 → Except TError m.Resp} {peer : Peer ρ}
    (hcourier : (service P).Courier result peer) (calls : List (service P).Invocation)
    {input : P.σ} (hinput : P.holds input []) (state : ρ) :
    (service P).Answered result 0
      ((service P).runRemote peer calls (.new input, state)).1 := by
  have hpending : P.holds (RpcClient.new input).input ([] : List (List Emit)).flatten := hinput
  exact Service.answered_run hcourier calls (by simp) hpending

/-- A network that delivers the answer to the first call again and again. -/
def repeatingPeer : Peer Unit where
  flush _ _ := (.ok [Binary.pack ((service Binary.protocol).answer Rpc.closeSession 1 (.ok good))], ())

theorem courier_repeating :
    (service Binary.protocol).Courier (fun m _ ↦ closingAnswer m) repeatingPeer := by
  intro frame state frames state' hflush
  cases hflush
  refine ⟨[(service Binary.protocol).answer Rpc.closeSession 1 (.ok good)], rfl, ?_⟩
  intro m hm
  obtain rfl := List.mem_singleton.mp hm
  have hcarried : (service Binary.protocol).Carried (ι := Rpc) .closeSession 1 ⟨7⟩ (.ok good) :=
    carried_closing (by decide) (by decide)
  exact ⟨.closeSession, 1, rfl, hcarried.sendable_answer, fun resp h ↦ hcarried.result resp h⟩

theorem answers_not_crossed_repeated :
    (service Binary.protocol).Answered (fun m _ ↦ closingAnswer m) 0
      ((service Binary.protocol).runRemote repeatingPeer
        [⟨Rpc.closeSession, ⟨7⟩⟩, ⟨Rpc.closeSession, ⟨7⟩⟩] (.new [], ())).1 :=
  answers_not_crossed courier_repeating _ holds_nothing ()

end IotdbClient.Wire
