import DistributedAi.CString
import DistributedAi.JsonObject
import DistributedAi.JsonTokener
import DistributedAi.Message
import DistributedAi.Codec
import DistributedAi.System
import DistributedAi.Process
import DistributedAi.Registry
import DistributedAi.Sessions
import DistributedAi.Submit
import DistributedAi.Network
import DistributedAi.Listener
import DistributedAi.Dispatch
import DistributedAi.Sweep
import DistributedAi.Status
import DistributedAi.Addressing
import DistributedAi.Locking
import DistributedAi.Accounting
import DistributedAi.Health
import DistributedAi.Identity
