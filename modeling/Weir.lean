import Weir.Wab.AckOrder
import Weir.Wab.RoundTrip
import Weir.Wab.Reentry
import Weir.Drain.LastChance
import Weir.Drain.Once
import Weir.Drain.Ownership
import Weir.Drain.ConfirmCrash
import Weir.Lock.Evidence
import Weir.Ingest.Order
import Weir.Ingest.Timers
import Weir.Drain.Replay
import Weir.Wire.Canonical
import Weir.Server.Cap
import Weir.Client.Batch
import Weir.Client.Errors
import Weir.Sink.Postgres
import Weir.Sink.Bodies
import Weir.Ctl.DeadLetter
import Weir.Ctl.Growth
import Weir.Admin.Framing
import Weir.Status.Board
import Weir.Status.Redaction
import Weir.Status.Deletion
