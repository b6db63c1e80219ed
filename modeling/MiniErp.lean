import MiniErp.Wip.Claim
import MiniErp.Stage.Finishable
import MiniErp.Live.Recovery
import MiniErp.Mutation.LocksSafe
import MiniErp.Queue.SessionAudit
import MiniErp.Materials.Admission
import MiniErp.Transfer.Frame
import MiniErp.Queue.LegacyReorder
import MiniErp.Qolip.SaveLocation
import MiniErp.Qolip.CellQr
import MiniErp.Apparatus.Freshness
import MiniErp.Session.Revocation
import MiniErp.Backup.Retention
import MiniErp.Queue.BarrierOrder
import MiniErp.Queue.StrictQueue
import MiniErp.Queue.FrozenTransition
import MiniErp.Compiler.Runner
import MiniErp.Chain.Symmetry
import MiniErp.Aasx.Canonical
import MiniErp.Compiler.Slices
import MiniErp.Capacity.Windows
import MiniErp.Capacity.ReservationSql
import MiniErp.Live.WorkerListTrip
import MiniErp.Live.WorkerWindow
import MiniErp.Live.OrderPage
import MiniErp.Catalog.Topology
import MiniErp.Catalog.InputWidths
import MiniErp.Doctor.Latch
import MiniErp.Paddon.Weights
import MiniErp.Gscale.Epc
import MiniErp.Layer.Remainder
import MiniErp.Formula.Close
import MiniErp.Preparation.Requirement
import MiniErp.Preparation.Decimal
import MiniErp.Transfer.History
import MiniErp.Capacity.Planning
import MiniErp.Queue.Follow
