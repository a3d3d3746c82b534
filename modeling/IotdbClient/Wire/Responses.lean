import IotdbClient.Wire.Requests

/-!
# Responses on the wire

The structs a server sends back, with all their fields.
-/

namespace IotdbClient.Wire

open Library

/-! ## TSQueryDataSet -/

structure TSQueryDataSet where
  time : List UInt8
  valueList : List (List UInt8)
  bitmapList : List (List UInt8)

def TSQueryDataSet.fields (P : TProtocol) :=
  Fields.required "TSQueryDataSet.time" ⟨"time", 1, .bytes P⟩ <|
  .required "TSQueryDataSet.value_list" ⟨"valueList", 2, .list (.bytes P)⟩ <|
  .required "TSQueryDataSet.bitmap_list" ⟨"bitmapList", 3, .list (.bytes P)⟩ .nil

theorem TSQueryDataSet.nodup_ids (P : TProtocol) : (TSQueryDataSet.fields P).ids.Nodup := by
  show ([1, 2, 3] : List Int16).Nodup
  decide

def TSQueryDataSet.record (P : TProtocol) : Record P TSQueryDataSet where
  name := "TSQueryDataSet"
  fields := TSQueryDataSet.fields P
  nodup_ids := TSQueryDataSet.nodup_ids P
  make v := ⟨v.1, v.2.1, v.2.2.1⟩
  parts r := (r.time, r.valueList, r.bitmapList, ())
  make_parts _ := rfl

def TSQueryDataSet.codec (P : TProtocol) : Codec P TSQueryDataSet := (TSQueryDataSet.record P).codec

/-! ## TSQueryNonAlignDataSet -/

structure TSQueryNonAlignDataSet where
  timeList : List (List UInt8)
  valueList : List (List UInt8)

def TSQueryNonAlignDataSet.fields (P : TProtocol) :=
  Fields.required "TSQueryNonAlignDataSet.time_list" ⟨"timeList", 1, .list (.bytes P)⟩ <|
  .required "TSQueryNonAlignDataSet.value_list" ⟨"valueList", 2, .list (.bytes P)⟩ .nil

theorem TSQueryNonAlignDataSet.nodup_ids (P : TProtocol) :
    (TSQueryNonAlignDataSet.fields P).ids.Nodup := by
  show ([1, 2] : List Int16).Nodup
  decide

def TSQueryNonAlignDataSet.record (P : TProtocol) : Record P TSQueryNonAlignDataSet where
  name := "TSQueryNonAlignDataSet"
  fields := TSQueryNonAlignDataSet.fields P
  nodup_ids := TSQueryNonAlignDataSet.nodup_ids P
  make v := ⟨v.1, v.2.1⟩
  parts r := (r.timeList, r.valueList, ())
  make_parts _ := rfl

def TSQueryNonAlignDataSet.codec (P : TProtocol) : Codec P TSQueryNonAlignDataSet :=
  (TSQueryNonAlignDataSet.record P).codec

/-! ## TSTracingInfo -/

structure TSTracingInfo where
  activityList : List String
  elapsedTimeList : List Int64
  seriesPathNum : Option Int32
  seqFileNum : Option Int32
  unSeqFileNum : Option Int32
  sequenceChunkNum : Option Int32
  sequenceChunkPointNum : Option Int64
  unsequenceChunkNum : Option Int32
  unsequenceChunkPointNum : Option Int64
  totalPageNum : Option Int32
  overlappedPageNum : Option Int32

def TSTracingInfo.fields (P : TProtocol) :=
  Fields.required "TSTracingInfo.activity_list" ⟨"activityList", 1, .list (.string P)⟩ <|
  .required "TSTracingInfo.elapsed_time_list" ⟨"elapsedTimeList", 2, .list (.i64 P)⟩ <|
  .optional ⟨"seriesPathNum", 3, .i32 P⟩ <|
  .optional ⟨"seqFileNum", 4, .i32 P⟩ <|
  .optional ⟨"unSeqFileNum", 5, .i32 P⟩ <|
  .optional ⟨"sequenceChunkNum", 6, .i32 P⟩ <|
  .optional ⟨"sequenceChunkPointNum", 7, .i64 P⟩ <|
  .optional ⟨"unsequenceChunkNum", 8, .i32 P⟩ <|
  .optional ⟨"unsequenceChunkPointNum", 9, .i64 P⟩ <|
  .optional ⟨"totalPageNum", 10, .i32 P⟩ <|
  .optional ⟨"overlappedPageNum", 11, .i32 P⟩ .nil

theorem TSTracingInfo.nodup_ids (P : TProtocol) : (TSTracingInfo.fields P).ids.Nodup := by
  show ([1, 2, 3, 4, 5, 6, 7, 8, 9, 10, 11] : List Int16).Nodup
  decide

def TSTracingInfo.record (P : TProtocol) : Record P TSTracingInfo where
  name := "TSTracingInfo"
  fields := TSTracingInfo.fields P
  nodup_ids := TSTracingInfo.nodup_ids P
  make v := ⟨v.1, v.2.1, v.2.2.1, v.2.2.2.1, v.2.2.2.2.1, v.2.2.2.2.2.1, v.2.2.2.2.2.2.1,
    v.2.2.2.2.2.2.2.1, v.2.2.2.2.2.2.2.2.1, v.2.2.2.2.2.2.2.2.2.1, v.2.2.2.2.2.2.2.2.2.2.1⟩
  parts r := (r.activityList, r.elapsedTimeList, r.seriesPathNum, r.seqFileNum, r.unSeqFileNum,
    r.sequenceChunkNum, r.sequenceChunkPointNum, r.unsequenceChunkNum, r.unsequenceChunkPointNum,
    r.totalPageNum, r.overlappedPageNum, ())
  make_parts _ := rfl

def TSTracingInfo.codec (P : TProtocol) : Codec P TSTracingInfo := (TSTracingInfo.record P).codec

/-! ## TSExecuteStatementResp -/

structure TSExecuteStatementResp where
  status : TSStatus
  queryId : Option Int64
  columns : Option (List String)
  operationType : Option String
  ignoreTimeStamp : Option Bool
  dataTypeList : Option (List String)
  queryDataSet : Option TSQueryDataSet
  nonAlignQueryDataSet : Option TSQueryNonAlignDataSet
  columnNameIndexMap : Option (BTreeMap String Int32)
  sgColumns : Option (List String)
  aliasColumns : Option (List Int8)
  tracingInfo : Option TSTracingInfo
  queryResult : Option (List (List UInt8))
  moreData : Option Bool
  database : Option String
  tableModel : Option Bool
  columnIndex2TsBlockColumnIndexList : Option (List Int32)

def TSExecuteStatementResp.fields (P : TProtocol) :=
  Fields.required "TSExecuteStatementResp.status" ⟨"status", 1, TSStatus.codec P⟩ <|
  .optional ⟨"queryId", 2, .i64 P⟩ <|
  .optional ⟨"columns", 3, .list (.string P)⟩ <|
  .optional ⟨"operationType", 4, .string P⟩ <|
  .optional ⟨"ignoreTimeStamp", 5, .bool P⟩ <|
  .optional ⟨"dataTypeList", 6, .list (.string P)⟩ <|
  .optional ⟨"queryDataSet", 7, TSQueryDataSet.codec P⟩ <|
  .optional ⟨"nonAlignQueryDataSet", 8, TSQueryNonAlignDataSet.codec P⟩ <|
  .optional ⟨"columnNameIndexMap", 9, .map (.string P) (.i32 P)⟩ <|
  .optional ⟨"sgColumns", 10, .list (.string P)⟩ <|
  .optional ⟨"aliasColumns", 11, .list (.i8 P)⟩ <|
  .optional ⟨"tracingInfo", 12, TSTracingInfo.codec P⟩ <|
  .optional ⟨"queryResult", 13, .list (.bytes P)⟩ <|
  .optional ⟨"moreData", 14, .bool P⟩ <|
  .optional ⟨"database", 15, .string P⟩ <|
  .optional ⟨"tableModel", 16, .bool P⟩ <|
  .optional ⟨"columnIndex2TsBlockColumnIndexList", 17, .list (.i32 P)⟩ .nil

theorem TSExecuteStatementResp.nodup_ids (P : TProtocol) :
    (TSExecuteStatementResp.fields P).ids.Nodup := by
  show ([1, 2, 3, 4, 5, 6, 7, 8, 9, 10, 11, 12, 13, 14, 15, 16, 17] : List Int16).Nodup
  decide

def TSExecuteStatementResp.record (P : TProtocol) : Record P TSExecuteStatementResp where
  name := "TSExecuteStatementResp"
  fields := TSExecuteStatementResp.fields P
  nodup_ids := TSExecuteStatementResp.nodup_ids P
  make v := ⟨v.1, v.2.1, v.2.2.1, v.2.2.2.1, v.2.2.2.2.1, v.2.2.2.2.2.1, v.2.2.2.2.2.2.1,
    v.2.2.2.2.2.2.2.1, v.2.2.2.2.2.2.2.2.1, v.2.2.2.2.2.2.2.2.2.1, v.2.2.2.2.2.2.2.2.2.2.1,
    v.2.2.2.2.2.2.2.2.2.2.2.1, v.2.2.2.2.2.2.2.2.2.2.2.2.1, v.2.2.2.2.2.2.2.2.2.2.2.2.2.1,
    v.2.2.2.2.2.2.2.2.2.2.2.2.2.2.1, v.2.2.2.2.2.2.2.2.2.2.2.2.2.2.2.1,
    v.2.2.2.2.2.2.2.2.2.2.2.2.2.2.2.2.1⟩
  parts r := (r.status, r.queryId, r.columns, r.operationType, r.ignoreTimeStamp, r.dataTypeList,
    r.queryDataSet, r.nonAlignQueryDataSet, r.columnNameIndexMap, r.sgColumns, r.aliasColumns,
    r.tracingInfo, r.queryResult, r.moreData, r.database, r.tableModel,
    r.columnIndex2TsBlockColumnIndexList, ())
  make_parts _ := rfl

def TSExecuteStatementResp.codec (P : TProtocol) : Codec P TSExecuteStatementResp :=
  (TSExecuteStatementResp.record P).codec

/-! ## TSOpenSessionResp -/

structure TSOpenSessionResp where
  status : TSStatus
  serverProtocolVersion : TSProtocolVersion
  sessionId : Option Int64
  configuration : Option (BTreeMap String String)

def TSOpenSessionResp.fields (P : TProtocol) :=
  Fields.required "TSOpenSessionResp.status" ⟨"status", 1, TSStatus.codec P⟩ <|
  .required "TSOpenSessionResp.server_protocol_version"
    ⟨"serverProtocolVersion", 2, TSProtocolVersion.codec P⟩ <|
  .optional ⟨"sessionId", 3, .i64 P⟩ <|
  .optional ⟨"configuration", 4, .map (.string P) (.string P)⟩ .nil

theorem TSOpenSessionResp.nodup_ids (P : TProtocol) : (TSOpenSessionResp.fields P).ids.Nodup := by
  show ([1, 2, 3, 4] : List Int16).Nodup
  decide

def TSOpenSessionResp.record (P : TProtocol) : Record P TSOpenSessionResp where
  name := "TSOpenSessionResp"
  fields := TSOpenSessionResp.fields P
  nodup_ids := TSOpenSessionResp.nodup_ids P
  make v := ⟨v.1, v.2.1, v.2.2.1, v.2.2.2.1⟩
  parts r := (r.status, r.serverProtocolVersion, r.sessionId, r.configuration, ())
  make_parts _ := rfl

def TSOpenSessionResp.codec (P : TProtocol) : Codec P TSOpenSessionResp :=
  (TSOpenSessionResp.record P).codec

/-! ## TSFetchResultsResp -/

structure TSFetchResultsResp where
  status : TSStatus
  hasResultSet : Bool
  isAlign : Bool
  queryDataSet : Option TSQueryDataSet
  nonAlignQueryDataSet : Option TSQueryNonAlignDataSet
  queryResult : Option (List (List UInt8))
  moreData : Option Bool

def TSFetchResultsResp.fields (P : TProtocol) :=
  Fields.required "TSFetchResultsResp.status" ⟨"status", 1, TSStatus.codec P⟩ <|
  .required "TSFetchResultsResp.has_result_set" ⟨"hasResultSet", 2, .bool P⟩ <|
  .required "TSFetchResultsResp.is_align" ⟨"isAlign", 3, .bool P⟩ <|
  .optional ⟨"queryDataSet", 4, TSQueryDataSet.codec P⟩ <|
  .optional ⟨"nonAlignQueryDataSet", 5, TSQueryNonAlignDataSet.codec P⟩ <|
  .optional ⟨"queryResult", 6, .list (.bytes P)⟩ <|
  .optional ⟨"moreData", 7, .bool P⟩ .nil

theorem TSFetchResultsResp.nodup_ids (P : TProtocol) : (TSFetchResultsResp.fields P).ids.Nodup := by
  show ([1, 2, 3, 4, 5, 6, 7] : List Int16).Nodup
  decide

def TSFetchResultsResp.record (P : TProtocol) : Record P TSFetchResultsResp where
  name := "TSFetchResultsResp"
  fields := TSFetchResultsResp.fields P
  nodup_ids := TSFetchResultsResp.nodup_ids P
  make v := ⟨v.1, v.2.1, v.2.2.1, v.2.2.2.1, v.2.2.2.2.1, v.2.2.2.2.2.1, v.2.2.2.2.2.2.1⟩
  parts r := (r.status, r.hasResultSet, r.isAlign, r.queryDataSet, r.nonAlignQueryDataSet,
    r.queryResult, r.moreData, ())
  make_parts _ := rfl

def TSFetchResultsResp.codec (P : TProtocol) : Codec P TSFetchResultsResp :=
  (TSFetchResultsResp.record P).codec

end IotdbClient.Wire
