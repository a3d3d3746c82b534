import IotdbClient.Data.Tablet

/-!
# Protocol messages

The Thrift structures the client builds and reads, with the fields it uses, and the reading of a
`TSStatus`.  The generated client code behind them is not modelled: an RPC is a request and a reply.
-/

namespace IotdbClient

open Library

structure Endpoint where
  host : String
  port : UInt16
deriving Repr, DecidableEq

structure TEndPoint where
  ip : String
  port : Int32
deriving Repr, DecidableEq

inductive TSStatus where
  | mk (code : Int32) (message : Option String) (subStatus : Option (List TSStatus))
      (redirectNode : Option TEndPoint)

namespace TSStatus

def code : TSStatus → Int32
  | mk code _ _ _ => code

def message : TSStatus → Option String
  | mk _ message _ _ => message

def subStatus : TSStatus → Option (List TSStatus)
  | mk _ _ subStatus _ => subStatus

def redirectNode : TSStatus → Option TEndPoint
  | mk _ _ _ redirectNode => redirectNode

end TSStatus

def successStatus : Int32 := 200
def multipleError : Int32 := 302
def redirectionRecommend : Int32 := 400

mutual

def checkStatus : TSStatus → Result Unit
  | .mk code message subStatus _ =>
      if code = successStatus ∨ code = redirectionRecommend then pure ()
      else if code = multipleError then
        match subStatus with
        | none => pure ()
        | some subs =>
            match findFailed subs with
            | none => pure ()
            | some s => fail (.server s.code (s.message.getD ""))
      else fail (.server code (message.getD ""))

/-- `.iter().find(|s| check_status(s).is_err())`. -/
def findFailed : List TSStatus → Option TSStatus
  | [] => none
  | s :: subs =>
      match checkStatus s with
      | .ok () => findFailed subs
      | .error _ => some s

end

theorem ends_checkStatus (status : TSStatus) :
    Ends (fun _ ↦ True) (fun _ ↦ True) (checkStatus status) := by
  obtain ⟨code, message, subStatus, redirectNode⟩ := status
  unfold checkStatus
  by_cases hok : code = successStatus ∨ code = redirectionRecommend
  · rw [if_pos hok]
    exact trivial
  · rw [if_neg hok]
    by_cases hmulti : code = multipleError
    · rw [if_pos hmulti]
      cases subStatus with
      | none => exact trivial
      | some subs =>
          cases hfailed : findFailed subs with
          | none => simp only [hfailed]; exact trivial
          | some failed => simp only [hfailed]; exact trivial
    · rw [if_neg hmulti]
      exact trivial

structure TSOpenSessionReq where
  zoneId : String
  username : String
  password : Option String
  /-- The configuration map, by key. -/
  configuration : List (String × String)
deriving Repr, DecidableEq

structure TSOpenSessionResp where
  status : TSStatus
  sessionId : Option Int64

structure TSExecuteStatementReq where
  sessionId : Int64
  statement : String
  statementId : Int64
  fetchSize : Option Int32
  timeout : Option Int64
  enableRedirectQuery : Option Bool
  jdbcQuery : Option Bool
deriving Repr, DecidableEq

structure TSExecuteStatementResp where
  status : TSStatus
  queryId : Option Int64
  columns : Option (List String)
  ignoreTimeStamp : Option Bool
  dataTypeList : Option (List String)
  queryResult : Option (List Slice)
  moreData : Option Bool
  database : Option String
  columnIndex2TsBlockColumnIndexList : Option (List Int32)

structure TSFetchResultsReq where
  sessionId : Int64
  statement : String
  fetchSize : Int32
  queryId : Int64
  isAlign : Bool
  timeout : Option Int64
  statementId : Option Int64
deriving Repr, DecidableEq

structure TSFetchResultsResp where
  status : TSStatus
  hasResultSet : Bool
  queryResult : Option (List Slice)
  moreData : Option Bool

structure TSCloseOperationReq where
  sessionId : Int64
  queryId : Option Int64
  statementId : Option Int64
  preparedStatementName : Option String
deriving Repr, DecidableEq

structure TSCloseSessionReq where
  sessionId : Int64
deriving Repr, DecidableEq

structure TSInsertTabletReq where
  sessionId : Int64
  prefixPath : String
  measurements : List String
  values : List UInt8
  timestamps : List UInt8
  types : List Int32
  size : Int32
  isAligned : Option Bool
  writeToTable : Option Bool
  columnCategories : Option (List Int8)
deriving Repr, DecidableEq

structure TSInsertTabletsReq where
  sessionId : Int64
  prefixPaths : List String
  measurementsList : List (List String)
  valuesList : List (List UInt8)
  timestampsList : List (List UInt8)
  typesList : List (List Int32)
  sizeList : List Int32
  isAligned : Option Bool
deriving Repr, DecidableEq

structure TSInsertRecordReq where
  sessionId : Int64
  prefixPath : String
  measurements : List String
  values : List UInt8
  timestamp : Int64
  isAligned : Option Bool
deriving Repr, DecidableEq

structure TSInsertRecordsReq where
  sessionId : Int64
  prefixPaths : List String
  measurementsList : List (List String)
  valuesList : List (List UInt8)
  timestamps : List Int64
  isAligned : Option Bool
deriving Repr, DecidableEq

structure TSInsertRecordsOfOneDeviceReq where
  sessionId : Int64
  prefixPath : String
  measurementsList : List (List String)
  valuesList : List (List UInt8)
  timestamps : List Int64
  isAligned : Option Bool
deriving Repr, DecidableEq

end IotdbClient
