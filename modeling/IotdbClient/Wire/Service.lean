import IotdbClient.Library.Binary
import IotdbClient.Library.RpcSafety
import IotdbClient.Wire.Responses

/-!
# The RPC service

The twelve methods of `IClientRPCService` that a session calls: their argument and result structs, the
generated client method of each, and the processor that dispatches on their names.  The two ends are
instances of the remote calls of the library.
-/

namespace IotdbClient.Wire

open Library

variable {P : TProtocol} {α β : Type}

/-! ## Argument and result structs -/

/-- `IClientRPCService…Args`: a struct with one required field. -/
def argsFields (label : String) (field : Field P α) : Fields P (Option α × Unit) (α × Unit) :=
  .required label field .nil

/-- `IClientRPCService…Result`: the value returned, or nothing. -/
def resultFields (c : Codec P β) : Fields P (Option β × Unit) (Option β × Unit) :=
  .optional ⟨"result_value", 0, c⟩ .nil

def argsRecord (name label : String) (field : Field P α) : Record P α where
  name := name
  fields := argsFields label field
  nodup_ids := List.nodup_singleton field.id
  make := Prod.fst
  parts req := (req, ())
  make_parts _ := rfl

def resultRecord (name : String) (c : Codec P β) : Record P (Option β) where
  name := name
  fields := resultFields c
  nodup_ids := List.nodup_singleton 0
  make := Prod.fst
  parts resp := (resp, ())
  make_parts _ := rfl

/-- A method of the service.  `rust` is the name in the identifiers of the generated structs. -/
def method (name rust label noResult : String) (field : Field P α) (c : Codec P β) :
    Method P α β where
  name := name
  noResult := noResult
  args := (argsRecord (name ++ "_args") ("IClientRPCService" ++ rust ++ "Args." ++ label) field).codec
  result := (resultRecord ("IClientRPCService" ++ rust ++ "Result") c).codec
  args_struct := rfl
  result_struct := rfl

/-- A method with a request struct as its argument. -/
def requestMethod (name rust : String) (args : Codec P α) (c : Codec P β) : Method P α β :=
  method name rust "req" ("no result received for IClientRPCService" ++ rust) ⟨"req", 1, args⟩ c

/-! ## The methods -/

inductive Rpc where
  | openSession
  | requestStatementId
  | executeUpdateStatementV2
  | executeQueryStatementV2
  | fetchResultsV2
  | closeOperation
  | closeSession
  | insertTablet
  | insertTablets
  | insertRecord
  | insertRecords
  | insertRecordsOfOneDevice
deriving Repr, DecidableEq

namespace Rpc

@[reducible]
def Req : Rpc → Type
  | openSession => TSOpenSessionReq
  | requestStatementId => Int64
  | executeUpdateStatementV2 | executeQueryStatementV2 => TSExecuteStatementReq
  | fetchResultsV2 => TSFetchResultsReq
  | closeOperation => TSCloseOperationReq
  | closeSession => TSCloseSessionReq
  | insertTablet => TSInsertTabletReq
  | insertTablets => TSInsertTabletsReq
  | insertRecord => TSInsertRecordReq
  | insertRecords => TSInsertRecordsReq
  | insertRecordsOfOneDevice => TSInsertRecordsOfOneDeviceReq

@[reducible]
def Resp : Rpc → Type
  | openSession => TSOpenSessionResp
  | requestStatementId => Int64
  | executeUpdateStatementV2 | executeQueryStatementV2 => TSExecuteStatementResp
  | fetchResultsV2 => TSFetchResultsResp
  | closeOperation | closeSession | insertTablet | insertTablets | insertRecord | insertRecords
  | insertRecordsOfOneDevice => TSStatus

def method (P : TProtocol) : (m : Rpc) → Method P m.Req m.Resp
  | openSession =>
      requestMethod "openSession" "OpenSession" (TSOpenSessionReq.codec P) (TSOpenSessionResp.codec P)
  | requestStatementId =>
      Wire.method "requestStatementId" "RequestStatementId" "session_id"
        "no result received for IClientRPCServiceRequestStatementId" ⟨"sessionId", 1, .i64 P⟩ (.i64 P)
  | executeUpdateStatementV2 =>
      requestMethod "executeUpdateStatementV2" "ExecuteUpdateStatementV2"
        (TSExecuteStatementReq.codec P) (TSExecuteStatementResp.codec P)
  | executeQueryStatementV2 =>
      requestMethod "executeQueryStatementV2" "ExecuteQueryStatementV2"
        (TSExecuteStatementReq.codec P) (TSExecuteStatementResp.codec P)
  | fetchResultsV2 =>
      -- The generator drops the first "Result" of the name in this text.
      Wire.method "fetchResultsV2" "FetchResultsV2" "req"
        "no result received for IClientRPCServiceFetchsV2Result"
        ⟨"req", 1, TSFetchResultsReq.codec P⟩ (TSFetchResultsResp.codec P)
  | closeOperation =>
      requestMethod "closeOperation" "CloseOperation" (TSCloseOperationReq.codec P) (TSStatus.codec P)
  | closeSession =>
      requestMethod "closeSession" "CloseSession" (TSCloseSessionReq.codec P) (TSStatus.codec P)
  | insertTablet =>
      requestMethod "insertTablet" "InsertTablet" (TSInsertTabletReq.codec P) (TSStatus.codec P)
  | insertTablets =>
      requestMethod "insertTablets" "InsertTablets" (TSInsertTabletsReq.codec P) (TSStatus.codec P)
  | insertRecord =>
      requestMethod "insertRecord" "InsertRecord" (TSInsertRecordReq.codec P) (TSStatus.codec P)
  | insertRecords =>
      requestMethod "insertRecords" "InsertRecords" (TSInsertRecordsReq.codec P) (TSStatus.codec P)
  | insertRecordsOfOneDevice =>
      requestMethod "insertRecordsOfOneDevice" "InsertRecordsOfOneDevice"
        (TSInsertRecordsOfOneDeviceReq.codec P) (TSStatus.codec P)

/-- `match &*message_ident.name` of the processor. -/
def find (name : String) : Option Rpc :=
  if name = "executeQueryStatementV2" then some executeQueryStatementV2
  else if name = "executeUpdateStatementV2" then some executeUpdateStatementV2
  else if name = "fetchResultsV2" then some fetchResultsV2
  else if name = "openSession" then some openSession
  else if name = "closeSession" then some closeSession
  else if name = "closeOperation" then some closeOperation
  else if name = "insertRecord" then some insertRecord
  else if name = "insertTablet" then some insertTablet
  else if name = "insertTablets" then some insertTablets
  else if name = "insertRecords" then some insertRecords
  else if name = "insertRecordsOfOneDevice" then some insertRecordsOfOneDevice
  else if name = "requestStatementId" then some requestStatementId
  else none

theorem find_name (m : Rpc) : find (m.method P).name = some m := by
  cases m <;> rfl

end Rpc

def service (P : TProtocol) : Service P Rpc where
  Req := Rpc.Req
  Resp := Rpc.Resp
  method := Rpc.method P
  find := Rpc.find
  find_name := Rpc.find_name

end IotdbClient.Wire
