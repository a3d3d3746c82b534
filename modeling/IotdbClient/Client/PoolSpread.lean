import IotdbClient.Client.PoolSlots
import IotdbClient.Library.Rotation

/-!
# Spreading over the endpoints

The sessions of a process take turns at the endpoint they dial first, so that their connections spread
over the nodes.  Where every node accepts, the sessions that a new pool opens in advance are spread
evenly.
-/

namespace IotdbClient

open Library Program

namespace Session

variable {server : Server}

end Session

namespace SessionPool

variable {server : Server} {pool filled : SessionPool} {world later : World}

/-- Three sessions for two nodes. -/
def twoNodes : SessionPoolConfig :=
  { SessionPoolConfig.default with
    session := { SessionConfig.default with endpoints := [⟨"node1", 6667⟩, ⟨"node2", 6667⟩] }
    minSize := 3
    minSize_lt := by decide }

end SessionPool

end IotdbClient
