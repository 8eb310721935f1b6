import SoftwareOnSilicon.Program
import SoftwareOnSilicon.Symbol
import SoftwareOnSilicon.Pool
import SoftwareOnSilicon.Representation
import SoftwareOnSilicon.Alternation
import SoftwareOnSilicon.Shutdown
import SoftwareOnSilicon.Codec
import SoftwareOnSilicon.Restart
import SoftwareOnSilicon.StopRequest
import SoftwareOnSilicon.Resolver
import SoftwareOnSilicon.Ring
import SoftwareOnSilicon.Blocks
import SoftwareOnSilicon.Order
import SoftwareOnSilicon.SingleToken
import SoftwareOnSilicon.Requests
import SoftwareOnSilicon.Outcome
import SoftwareOnSilicon.Delivery
import SoftwareOnSilicon.ComBuffers
import SoftwareOnSilicon.ReadEvents
import SoftwareOnSilicon.BlockRead
import SoftwareOnSilicon.AppendLog
import SoftwareOnSilicon.RestWrite
import SoftwareOnSilicon.Mailbox
import SoftwareOnSilicon.Bounds
import SoftwareOnSilicon.Described
import SoftwareOnSilicon.Copies
import SoftwareOnSilicon.Conflict
import SoftwareOnSilicon.BigEndian
import SoftwareOnSilicon.Conversions
import SoftwareOnSilicon.Loop
