import Uubt.StallRecovery
import Uubt.TransportLock
import Uubt.Progress
import Uubt.ControlPipe
import Uubt.FirmwareLoading
import Uubt.Independence
import Uubt.Leases
import Uubt.Lifecycle
import Uubt.EventPace
import Uubt.PortReset
import Uubt.Sending
import Uubt.Framing
import Uubt.LoaderLoop
import Uubt.Power
import Uubt.LoaderIsolation
import Uubt.Heartbeat
import Uubt.DataToggle
import Uubt.DriverState
import Uubt.Liveness
import Uubt.Separation
import Uubt.DelayTime
import Uubt.AclStream
import Uubt.CounterLines
import Uubt.LoaderProtocol
import Uubt.EndpointProtocols
import Uubt.Invitations
import Uubt.Mailboxes
import Uubt.ResetProgress
