import IotdbClient.Client.SessionFrame
import IotdbClient.Client.SessionIds
import IotdbClient.Wire.Calls

/-!
# What a session says over the wire

The session's model knows a server that answers requests.  Here the server answers in the structs of
the wire, and the requests of a session travel to it through the generated client, the protocol and
the generated processor.  What the session was answered is what comes back that way.
-/

namespace IotdbClient.Wire

open Library

variable {P : TProtocol}

/-! ## Responses, as far as the client uses them -/

mutual

def TSStatus.toClient : TSStatus → IotdbClient.TSStatus
  | .mk code message subStatus redirectNode _ _ =>
      .mk code message (subStatusToClient subStatus) redirectNode

def subStatusToClient : Option (List TSStatus) → Option (List IotdbClient.TSStatus)
  | none => none
  | some subs => some (statusesToClient subs)

def statusesToClient : List TSStatus → List IotdbClient.TSStatus
  | [] => []
  | s :: subs => s.toClient :: statusesToClient subs

end

/-- A vector of Rust.  Its length is below the bound, so nothing is cut off. -/
def slice (bytes : List UInt8) : Slice :=
  ⟨bytes.take (2 ^ 63 - 1), Nat.lt_of_le_of_lt (List.length_take_le _ _) (by decide)⟩

def TSOpenSessionResp.toClient (resp : TSOpenSessionResp) : IotdbClient.TSOpenSessionResp where
  status := resp.status.toClient
  sessionId := resp.sessionId

def TSExecuteStatementResp.toClient (resp : TSExecuteStatementResp) :
    IotdbClient.TSExecuteStatementResp where
  status := resp.status.toClient
  queryId := resp.queryId
  columns := resp.columns
  ignoreTimeStamp := resp.ignoreTimeStamp
  dataTypeList := resp.dataTypeList
  queryResult := resp.queryResult.map (·.map slice)
  moreData := resp.moreData
  database := resp.database
  columnIndex2TsBlockColumnIndexList := resp.columnIndex2TsBlockColumnIndexList

def TSFetchResultsResp.toClient (resp : TSFetchResultsResp) : IotdbClient.TSFetchResultsResp where
  status := resp.status.toClient
  hasResultSet := resp.hasResultSet
  queryResult := resp.queryResult.map (·.map slice)
  moreData := resp.moreData

/-! ## Requests, as the client fills them in -/

/-- The map built by `insert`, one entry after the other. -/
def configurationOf (entries : List (String × String)) : BTreeMap String String :=
  entries.foldl (fun m e ↦ m.insert e.1 e.2) .empty

def TSOpenSessionReq.ofClient (req : IotdbClient.TSOpenSessionReq) : TSOpenSessionReq where
  clientProtocol := .iotdbServiceProtocolV3
  zoneId := req.zoneId
  username := req.username
  password := req.password
  configuration := some (configurationOf req.configuration)

def TSInsertTabletReq.ofClient (req : IotdbClient.TSInsertTabletReq) : TSInsertTabletReq where
  sessionId := req.sessionId
  prefixPath := req.prefixPath
  measurements := req.measurements
  values := req.values
  timestamps := req.timestamps
  types := req.types
  size := req.size
  isAligned := req.isAligned
  writeToTable := req.writeToTable
  columnCategories := req.columnCategories
  isCompressed := none
  encodingTypes := none
  compressType := none

def TSInsertRecordReq.ofClient (req : IotdbClient.TSInsertRecordReq) : TSInsertRecordReq where
  sessionId := req.sessionId
  prefixPath := req.prefixPath
  measurements := req.measurements
  values := req.values
  timestamp := req.timestamp
  isAligned := req.isAligned
  isWriteToTable := none
  columnCategoryies := none

/-- The method a request is sent through, and its argument. -/
def invocation : Request → (m : Rpc) × m.Req
  | .openSession req => ⟨.openSession, .ofClient req⟩
  | .requestStatementId sessionId => ⟨.requestStatementId, sessionId⟩
  | .executeUpdate req => ⟨.executeUpdateStatementV2, req⟩
  | .executeQuery req => ⟨.executeQueryStatementV2, req⟩
  | .fetchResults req => ⟨.fetchResultsV2, req⟩
  | .closeOperation req => ⟨.closeOperation, req⟩
  | .closeSession req => ⟨.closeSession, req⟩
  | .insert (.tablet req) => ⟨.insertTablet, .ofClient req⟩
  | .insert (.tablets req) => ⟨.insertTablets, req⟩
  | .insert (.record req) => ⟨.insertRecord, .ofClient req⟩
  | .insert (.records req) => ⟨.insertRecords, req⟩
  | .insert (.recordsOfOneDevice req) => ⟨.insertRecordsOfOneDevice, req⟩

/-- The reply to a request, from the response of its method. -/
def reply : (request : Request) → (invocation request).1.Resp → request.Reply
  | .openSession _, resp => TSOpenSessionResp.toClient resp
  | .requestStatementId _, resp => resp
  | .executeUpdate _, resp | .executeQuery _, resp => TSExecuteStatementResp.toClient resp
  | .fetchResults _, resp => TSFetchResultsResp.toClient resp
  | .closeOperation _, resp | .closeSession _, resp | .insert (.tablet _), resp
  | .insert (.tablets _), resp | .insert (.record _), resp | .insert (.records _), resp
  | .insert (.recordsOfOneDevice _), resp => TSStatus.toClient resp

/-- What a call reports, from what the generated client method returned. -/
def received (request : Request) :
    Outcome TError (invocation request).1.Resp → Except String request.Reply
  | .ok resp => .ok (reply request resp)
  | .error (.error (.application e)) => .error e.message
  | .error _ => .error "connection lost"

/-! ## A server of the wire -/

/-- A server that answers the `n`-th call of the process in the structs of the wire. -/
structure WireServer where
  connect : Nat → Endpoint → ConnectionOptions → Option Error
  answer : Nat → Connection → (m : Rpc) → m.Req → Except TError m.Resp

namespace WireServer

/-- The handler behind one connection; its state is the numbers of the calls still to come. -/
def handler (server : WireServer) (connection : Connection) : Handler (service P) (List Nat) :=
  fun m req numbers ↦ (server.answer (numbers.headD 0) connection m req, numbers.tail)

end WireServer

/-! ## The calls of a session -/

end IotdbClient.Wire
