import IotdbClient.Library.Cursor
import IotdbClient.Client.Requests
import IotdbClient.Data.TsBlock
import IotdbClient.Data.TsBlockCodec
import IotdbClient.Data.TsBlockShape
import IotdbClient.Client.Redirect
import IotdbClient.Client.Session
import IotdbClient.Client.DataSet
import IotdbClient.Client.DataSetSafety
import IotdbClient.Client.Delivery
import IotdbClient.Client.DeliveryGaps
import IotdbClient.Client.SessionSpec
import IotdbClient.Client.Owner
import IotdbClient.Library.Machine
import IotdbClient.Client.SessionIds
import IotdbClient.Client.Pool
import IotdbClient.Client.PoolSpec
import IotdbClient.Client.PoolSlots
import IotdbClient.Client.PoolWakeup
import IotdbClient.Client.PoolDatabase
import IotdbClient.Client.PoolHealth
import IotdbClient.Data.RecordServer
import IotdbClient.Client.InsertPaths
import IotdbClient.Client.RedirectSpec
import IotdbClient.Data.TabletState
import IotdbClient.Client.InsertSafety
import IotdbClient.Client.SessionDatabase
import IotdbClient.Client.DataSetClose
import IotdbClient.Client.PoolClosing
import IotdbClient.Data.TsBlockPrefix
import IotdbClient.Data.TsBlockTypes
import IotdbClient.Client.LogicalTypes
import IotdbClient.Client.Failover
import IotdbClient.Client.Retry
import IotdbClient.Client.RecordPairing
import IotdbClient.Client.RowOrder
import IotdbClient.Client.RedirectPairing
import IotdbClient.Client.PoolDevice
import IotdbClient.Client.SessionFrame
import IotdbClient.Client.PoolQueue
import IotdbClient.Client.PoolSweep
import IotdbClient.Client.PoolFloor
import IotdbClient.Client.RedirectExpiry
import IotdbClient.Client.StatusErrors
import IotdbClient.Data.BitMirror
import IotdbClient.Client.Endpoint
import IotdbClient.Data.WireLayout
import IotdbClient.Client.WireLengths
import IotdbClient.Library.RpcSafety
import IotdbClient.Library.Binary
import IotdbClient.Wire.Calls
import IotdbClient.Wire.Traffic
import IotdbClient.Client.QueryRoundTrip
import IotdbClient.Client.PoolProgress
import IotdbClient.Client.PoolHandOut
import IotdbClient.Client.PoolConnections
import IotdbClient.Client.PoolFootprint
import IotdbClient.Client.TableSession
import IotdbClient.Client.PoolSpread
import IotdbClient.Client.Writes
