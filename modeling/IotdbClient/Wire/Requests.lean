import IotdbClient.Wire.Status

/-!
# Requests on the wire

The structs a client sends, with all their fields, and their generated writers and readers as
descriptions of their fields: name, id, type, and whether the field is required.
-/

namespace IotdbClient.Wire

open Library

/-! ## TSProtocolVersion -/

inductive TSProtocolVersion where
  | iotdbServiceProtocolV1
  | iotdbServiceProtocolV2
  | iotdbServiceProtocolV3
deriving Repr, DecidableEq

namespace TSProtocolVersion

/-- `self as i32`. -/
def asI32 : TSProtocolVersion → Int32
  | iotdbServiceProtocolV1 => 0
  | iotdbServiceProtocolV2 => 1
  | iotdbServiceProtocolV3 => 2

def tryFrom (i : Int32) : Outcome TError TSProtocolVersion :=
  if i = 0 then pure iotdbServiceProtocolV1
  else if i = 1 then pure iotdbServiceProtocolV2
  else if i = 2 then pure iotdbServiceProtocolV3
  else fail (.protocol .invalidData
    ("cannot convert enum constant " ++ toString i.toInt ++ " to TSProtocolVersion"))

theorem tryFrom_asI32 (version : TSProtocolVersion) : tryFrom version.asI32 = .ok version := by
  cases version <;> rfl

theorem noPanic_tryFrom (i : Int32) : NoPanic (tryFrom i) := by
  intro message heq
  unfold tryFrom at heq
  repeat' split at heq
  all_goals cases heq

def codec (P : TProtocol) : Codec P TSProtocolVersion :=
  .via (.i32 P) tryFrom asI32 tryFrom_asI32 noPanic_tryFrom

end TSProtocolVersion

/-! ## TSOpenSessionReq -/

structure TSOpenSessionReq where
  clientProtocol : TSProtocolVersion
  zoneId : String
  username : String
  password : Option String
  configuration : Option (BTreeMap String String)

def TSOpenSessionReq.fields (P : TProtocol) :=
  Fields.required "TSOpenSessionReq.client_protocol"
    ⟨"client_protocol", 1, TSProtocolVersion.codec P⟩ <|
  .required "TSOpenSessionReq.zone_id" ⟨"zoneId", 2, .string P⟩ <|
  .required "TSOpenSessionReq.username" ⟨"username", 3, .string P⟩ <|
  .optional ⟨"password", 4, .string P⟩ <|
  .optional ⟨"configuration", 5, .map (.string P) (.string P)⟩ .nil

theorem TSOpenSessionReq.nodup_ids (P : TProtocol) : (TSOpenSessionReq.fields P).ids.Nodup := by
  show ([1, 2, 3, 4, 5] : List Int16).Nodup
  decide

def TSOpenSessionReq.record (P : TProtocol) : Record P TSOpenSessionReq where
  name := "TSOpenSessionReq"
  fields := TSOpenSessionReq.fields P
  nodup_ids := TSOpenSessionReq.nodup_ids P
  make v := ⟨v.1, v.2.1, v.2.2.1, v.2.2.2.1, v.2.2.2.2.1⟩
  parts r := (r.clientProtocol, r.zoneId, r.username, r.password, r.configuration, ())
  make_parts _ := rfl

def TSOpenSessionReq.codec (P : TProtocol) : Codec P TSOpenSessionReq :=
  (TSOpenSessionReq.record P).codec

/-! ## TSCloseSessionReq -/

def TSCloseSessionReq.fields (P : TProtocol) :=
  Fields.required "TSCloseSessionReq.session_id" ⟨"sessionId", 1, .i64 P⟩ .nil

theorem TSCloseSessionReq.nodup_ids (P : TProtocol) : (TSCloseSessionReq.fields P).ids.Nodup := by
  show ([1] : List Int16).Nodup
  decide

def TSCloseSessionReq.record (P : TProtocol) : Record P TSCloseSessionReq where
  name := "TSCloseSessionReq"
  fields := TSCloseSessionReq.fields P
  nodup_ids := TSCloseSessionReq.nodup_ids P
  make v := ⟨v.1⟩
  parts r := (r.sessionId, ())
  make_parts _ := rfl

def TSCloseSessionReq.codec (P : TProtocol) : Codec P TSCloseSessionReq :=
  (TSCloseSessionReq.record P).codec

/-! ## TSExecuteStatementReq -/

def TSExecuteStatementReq.fields (P : TProtocol) :=
  Fields.required "TSExecuteStatementReq.session_id" ⟨"sessionId", 1, .i64 P⟩ <|
  .required "TSExecuteStatementReq.statement" ⟨"statement", 2, .string P⟩ <|
  .required "TSExecuteStatementReq.statement_id" ⟨"statementId", 3, .i64 P⟩ <|
  .optional ⟨"fetchSize", 4, .i32 P⟩ <|
  .optional ⟨"timeout", 5, .i64 P⟩ <|
  .optional ⟨"enableRedirectQuery", 6, .bool P⟩ <|
  .optional ⟨"jdbcQuery", 7, .bool P⟩ .nil

theorem TSExecuteStatementReq.nodup_ids (P : TProtocol) :
    (TSExecuteStatementReq.fields P).ids.Nodup := by
  show ([1, 2, 3, 4, 5, 6, 7] : List Int16).Nodup
  decide

def TSExecuteStatementReq.record (P : TProtocol) : Record P TSExecuteStatementReq where
  name := "TSExecuteStatementReq"
  fields := TSExecuteStatementReq.fields P
  nodup_ids := TSExecuteStatementReq.nodup_ids P
  make v := ⟨v.1, v.2.1, v.2.2.1, v.2.2.2.1, v.2.2.2.2.1, v.2.2.2.2.2.1, v.2.2.2.2.2.2.1⟩
  parts r := (r.sessionId, r.statement, r.statementId, r.fetchSize, r.timeout,
    r.enableRedirectQuery, r.jdbcQuery, ())
  make_parts _ := rfl

def TSExecuteStatementReq.codec (P : TProtocol) : Codec P TSExecuteStatementReq :=
  (TSExecuteStatementReq.record P).codec

/-! ## TSFetchResultsReq -/

def TSFetchResultsReq.fields (P : TProtocol) :=
  Fields.required "TSFetchResultsReq.session_id" ⟨"sessionId", 1, .i64 P⟩ <|
  .required "TSFetchResultsReq.statement" ⟨"statement", 2, .string P⟩ <|
  .required "TSFetchResultsReq.fetch_size" ⟨"fetchSize", 3, .i32 P⟩ <|
  .required "TSFetchResultsReq.query_id" ⟨"queryId", 4, .i64 P⟩ <|
  .required "TSFetchResultsReq.is_align" ⟨"isAlign", 5, .bool P⟩ <|
  .optional ⟨"timeout", 6, .i64 P⟩ <|
  .optional ⟨"statementId", 7, .i64 P⟩ .nil

theorem TSFetchResultsReq.nodup_ids (P : TProtocol) : (TSFetchResultsReq.fields P).ids.Nodup := by
  show ([1, 2, 3, 4, 5, 6, 7] : List Int16).Nodup
  decide

def TSFetchResultsReq.record (P : TProtocol) : Record P TSFetchResultsReq where
  name := "TSFetchResultsReq"
  fields := TSFetchResultsReq.fields P
  nodup_ids := TSFetchResultsReq.nodup_ids P
  make v := ⟨v.1, v.2.1, v.2.2.1, v.2.2.2.1, v.2.2.2.2.1, v.2.2.2.2.2.1, v.2.2.2.2.2.2.1⟩
  parts r := (r.sessionId, r.statement, r.fetchSize, r.queryId, r.isAlign, r.timeout,
    r.statementId, ())
  make_parts _ := rfl

def TSFetchResultsReq.codec (P : TProtocol) : Codec P TSFetchResultsReq :=
  (TSFetchResultsReq.record P).codec

/-! ## TSCloseOperationReq -/

def TSCloseOperationReq.fields (P : TProtocol) :=
  Fields.required "TSCloseOperationReq.session_id" ⟨"sessionId", 1, .i64 P⟩ <|
  .optional ⟨"queryId", 2, .i64 P⟩ <|
  .optional ⟨"statementId", 3, .i64 P⟩ <|
  .optional ⟨"preparedStatementName", 4, .string P⟩ .nil

theorem TSCloseOperationReq.nodup_ids (P : TProtocol) :
    (TSCloseOperationReq.fields P).ids.Nodup := by
  show ([1, 2, 3, 4] : List Int16).Nodup
  decide

def TSCloseOperationReq.record (P : TProtocol) : Record P TSCloseOperationReq where
  name := "TSCloseOperationReq"
  fields := TSCloseOperationReq.fields P
  nodup_ids := TSCloseOperationReq.nodup_ids P
  make v := ⟨v.1, v.2.1, v.2.2.1, v.2.2.2.1⟩
  parts r := (r.sessionId, r.queryId, r.statementId, r.preparedStatementName, ())
  make_parts _ := rfl

def TSCloseOperationReq.codec (P : TProtocol) : Codec P TSCloseOperationReq :=
  (TSCloseOperationReq.record P).codec

/-! ## TSInsertRecordReq -/

structure TSInsertRecordReq where
  sessionId : Int64
  prefixPath : String
  measurements : List String
  values : List UInt8
  timestamp : Int64
  isAligned : Option Bool
  isWriteToTable : Option Bool
  columnCategoryies : Option (List Int8)

def TSInsertRecordReq.fields (P : TProtocol) :=
  Fields.required "TSInsertRecordReq.session_id" ⟨"sessionId", 1, .i64 P⟩ <|
  .required "TSInsertRecordReq.prefix_path" ⟨"prefixPath", 2, .string P⟩ <|
  .required "TSInsertRecordReq.measurements" ⟨"measurements", 3, .list (.string P)⟩ <|
  .required "TSInsertRecordReq.values" ⟨"values", 4, .bytes P⟩ <|
  .required "TSInsertRecordReq.timestamp" ⟨"timestamp", 5, .i64 P⟩ <|
  .optional ⟨"isAligned", 6, .bool P⟩ <|
  .optional ⟨"isWriteToTable", 7, .bool P⟩ <|
  .optional ⟨"columnCategoryies", 8, .list (.i8 P)⟩ .nil

theorem TSInsertRecordReq.nodup_ids (P : TProtocol) : (TSInsertRecordReq.fields P).ids.Nodup := by
  show ([1, 2, 3, 4, 5, 6, 7, 8] : List Int16).Nodup
  decide

def TSInsertRecordReq.record (P : TProtocol) : Record P TSInsertRecordReq where
  name := "TSInsertRecordReq"
  fields := TSInsertRecordReq.fields P
  nodup_ids := TSInsertRecordReq.nodup_ids P
  make v := ⟨v.1, v.2.1, v.2.2.1, v.2.2.2.1, v.2.2.2.2.1, v.2.2.2.2.2.1, v.2.2.2.2.2.2.1,
    v.2.2.2.2.2.2.2.1⟩
  parts r := (r.sessionId, r.prefixPath, r.measurements, r.values, r.timestamp, r.isAligned,
    r.isWriteToTable, r.columnCategoryies, ())
  make_parts _ := rfl

def TSInsertRecordReq.codec (P : TProtocol) : Codec P TSInsertRecordReq :=
  (TSInsertRecordReq.record P).codec

/-! ## TSInsertTabletReq -/

structure TSInsertTabletReq where
  sessionId : Int64
  prefixPath : String
  measurements : List String
  values : List UInt8
  timestamps : List UInt8
  types : List Int32
  size : Int32
  isAligned : Option Bool
  writeToTable : Option Bool
  columnCategories : Option (List Int8)
  isCompressed : Option Bool
  encodingTypes : Option (List Int8)
  compressType : Option Int8

def TSInsertTabletReq.fields (P : TProtocol) :=
  Fields.required "TSInsertTabletReq.session_id" ⟨"sessionId", 1, .i64 P⟩ <|
  .required "TSInsertTabletReq.prefix_path" ⟨"prefixPath", 2, .string P⟩ <|
  .required "TSInsertTabletReq.measurements" ⟨"measurements", 3, .list (.string P)⟩ <|
  .required "TSInsertTabletReq.values" ⟨"values", 4, .bytes P⟩ <|
  .required "TSInsertTabletReq.timestamps" ⟨"timestamps", 5, .bytes P⟩ <|
  .required "TSInsertTabletReq.types" ⟨"types", 6, .list (.i32 P)⟩ <|
  .required "TSInsertTabletReq.size" ⟨"size", 7, .i32 P⟩ <|
  .optional ⟨"isAligned", 8, .bool P⟩ <|
  .optional ⟨"writeToTable", 9, .bool P⟩ <|
  .optional ⟨"columnCategories", 10, .list (.i8 P)⟩ <|
  .optional ⟨"isCompressed", 11, .bool P⟩ <|
  .optional ⟨"encodingTypes", 12, .list (.i8 P)⟩ <|
  .optional ⟨"compressType", 13, .i8 P⟩ .nil

theorem TSInsertTabletReq.nodup_ids (P : TProtocol) : (TSInsertTabletReq.fields P).ids.Nodup := by
  show ([1, 2, 3, 4, 5, 6, 7, 8, 9, 10, 11, 12, 13] : List Int16).Nodup
  decide

def TSInsertTabletReq.record (P : TProtocol) : Record P TSInsertTabletReq where
  name := "TSInsertTabletReq"
  fields := TSInsertTabletReq.fields P
  nodup_ids := TSInsertTabletReq.nodup_ids P
  make v := ⟨v.1, v.2.1, v.2.2.1, v.2.2.2.1, v.2.2.2.2.1, v.2.2.2.2.2.1, v.2.2.2.2.2.2.1,
    v.2.2.2.2.2.2.2.1, v.2.2.2.2.2.2.2.2.1, v.2.2.2.2.2.2.2.2.2.1, v.2.2.2.2.2.2.2.2.2.2.1,
    v.2.2.2.2.2.2.2.2.2.2.2.1, v.2.2.2.2.2.2.2.2.2.2.2.2.1⟩
  parts r := (r.sessionId, r.prefixPath, r.measurements, r.values, r.timestamps, r.types, r.size,
    r.isAligned, r.writeToTable, r.columnCategories, r.isCompressed, r.encodingTypes,
    r.compressType, ())
  make_parts _ := rfl

def TSInsertTabletReq.codec (P : TProtocol) : Codec P TSInsertTabletReq :=
  (TSInsertTabletReq.record P).codec

/-! ## TSInsertTabletsReq -/

def TSInsertTabletsReq.fields (P : TProtocol) :=
  Fields.required "TSInsertTabletsReq.session_id" ⟨"sessionId", 1, .i64 P⟩ <|
  .required "TSInsertTabletsReq.prefix_paths" ⟨"prefixPaths", 2, .list (.string P)⟩ <|
  .required "TSInsertTabletsReq.measurements_list"
    ⟨"measurementsList", 3, .list (.list (.string P))⟩ <|
  .required "TSInsertTabletsReq.values_list" ⟨"valuesList", 4, .list (.bytes P)⟩ <|
  .required "TSInsertTabletsReq.timestamps_list" ⟨"timestampsList", 5, .list (.bytes P)⟩ <|
  .required "TSInsertTabletsReq.types_list" ⟨"typesList", 6, .list (.list (.i32 P))⟩ <|
  .required "TSInsertTabletsReq.size_list" ⟨"sizeList", 7, .list (.i32 P)⟩ <|
  .optional ⟨"isAligned", 8, .bool P⟩ .nil

theorem TSInsertTabletsReq.nodup_ids (P : TProtocol) : (TSInsertTabletsReq.fields P).ids.Nodup := by
  show ([1, 2, 3, 4, 5, 6, 7, 8] : List Int16).Nodup
  decide

def TSInsertTabletsReq.record (P : TProtocol) : Record P TSInsertTabletsReq where
  name := "TSInsertTabletsReq"
  fields := TSInsertTabletsReq.fields P
  nodup_ids := TSInsertTabletsReq.nodup_ids P
  make v := ⟨v.1, v.2.1, v.2.2.1, v.2.2.2.1, v.2.2.2.2.1, v.2.2.2.2.2.1, v.2.2.2.2.2.2.1,
    v.2.2.2.2.2.2.2.1⟩
  parts r := (r.sessionId, r.prefixPaths, r.measurementsList, r.valuesList, r.timestampsList,
    r.typesList, r.sizeList, r.isAligned, ())
  make_parts _ := rfl

def TSInsertTabletsReq.codec (P : TProtocol) : Codec P TSInsertTabletsReq :=
  (TSInsertTabletsReq.record P).codec

/-! ## TSInsertRecordsReq -/

def TSInsertRecordsReq.fields (P : TProtocol) :=
  Fields.required "TSInsertRecordsReq.session_id" ⟨"sessionId", 1, .i64 P⟩ <|
  .required "TSInsertRecordsReq.prefix_paths" ⟨"prefixPaths", 2, .list (.string P)⟩ <|
  .required "TSInsertRecordsReq.measurements_list"
    ⟨"measurementsList", 3, .list (.list (.string P))⟩ <|
  .required "TSInsertRecordsReq.values_list" ⟨"valuesList", 4, .list (.bytes P)⟩ <|
  .required "TSInsertRecordsReq.timestamps" ⟨"timestamps", 5, .list (.i64 P)⟩ <|
  .optional ⟨"isAligned", 6, .bool P⟩ .nil

theorem TSInsertRecordsReq.nodup_ids (P : TProtocol) : (TSInsertRecordsReq.fields P).ids.Nodup := by
  show ([1, 2, 3, 4, 5, 6] : List Int16).Nodup
  decide

def TSInsertRecordsReq.record (P : TProtocol) : Record P TSInsertRecordsReq where
  name := "TSInsertRecordsReq"
  fields := TSInsertRecordsReq.fields P
  nodup_ids := TSInsertRecordsReq.nodup_ids P
  make v := ⟨v.1, v.2.1, v.2.2.1, v.2.2.2.1, v.2.2.2.2.1, v.2.2.2.2.2.1⟩
  parts r := (r.sessionId, r.prefixPaths, r.measurementsList, r.valuesList, r.timestamps,
    r.isAligned, ())
  make_parts _ := rfl

def TSInsertRecordsReq.codec (P : TProtocol) : Codec P TSInsertRecordsReq :=
  (TSInsertRecordsReq.record P).codec

/-! ## TSInsertRecordsOfOneDeviceReq -/

def TSInsertRecordsOfOneDeviceReq.fields (P : TProtocol) :=
  Fields.required "TSInsertRecordsOfOneDeviceReq.session_id" ⟨"sessionId", 1, .i64 P⟩ <|
  .required "TSInsertRecordsOfOneDeviceReq.prefix_path" ⟨"prefixPath", 2, .string P⟩ <|
  .required "TSInsertRecordsOfOneDeviceReq.measurements_list"
    ⟨"measurementsList", 3, .list (.list (.string P))⟩ <|
  .required "TSInsertRecordsOfOneDeviceReq.values_list" ⟨"valuesList", 4, .list (.bytes P)⟩ <|
  .required "TSInsertRecordsOfOneDeviceReq.timestamps" ⟨"timestamps", 5, .list (.i64 P)⟩ <|
  .optional ⟨"isAligned", 6, .bool P⟩ .nil

theorem TSInsertRecordsOfOneDeviceReq.nodup_ids (P : TProtocol) :
    (TSInsertRecordsOfOneDeviceReq.fields P).ids.Nodup := by
  show ([1, 2, 3, 4, 5, 6] : List Int16).Nodup
  decide

def TSInsertRecordsOfOneDeviceReq.record (P : TProtocol) : Record P TSInsertRecordsOfOneDeviceReq where
  name := "TSInsertRecordsOfOneDeviceReq"
  fields := TSInsertRecordsOfOneDeviceReq.fields P
  nodup_ids := TSInsertRecordsOfOneDeviceReq.nodup_ids P
  make v := ⟨v.1, v.2.1, v.2.2.1, v.2.2.2.1, v.2.2.2.2.1, v.2.2.2.2.2.1⟩
  parts r := (r.sessionId, r.prefixPath, r.measurementsList, r.valuesList, r.timestamps,
    r.isAligned, ())
  make_parts _ := rfl

def TSInsertRecordsOfOneDeviceReq.codec (P : TProtocol) : Codec P TSInsertRecordsOfOneDeviceReq :=
  (TSInsertRecordsOfOneDeviceReq.record P).codec

end IotdbClient.Wire
