import SiphonSigtran.Lib.Machine
import SiphonSigtran.Lib.Serial
import SiphonSigtran.Lib.Check
import SiphonSigtran.M2pa.Message
import SiphonSigtran.M2pa.Link
import SiphonSigtran.M2pa.LinkMoves
import SiphonSigtran.M2pa.LinkIndications
import SiphonSigtran.M2pa.LinkSequence
import SiphonSigtran.M2pa.LinkOrder
import SiphonSigtran.M2pa.LinkLedger
import SiphonSigtran.M2pa.LinkReceive
import SiphonSigtran.M2pa.LinkSupervision
import SiphonSigtran.M2pa.LinkPair
import SiphonSigtran.M2pa.AbnormalBsn
import SiphonSigtran.M2pa.Changeover
import SiphonSigtran.M2pa.Serving
import SiphonSigtran.M2pa.RunnerSteps
import SiphonSigtran.M2pa.RunnerMoves
import SiphonSigtran.M2pa.RunnerSettles
import SiphonSigtran.M2pa.Handover
import SiphonSigtran.M2pa.RunnerTold
import SiphonSigtran.M2pa.RunnerTimers
import SiphonSigtran.Mtp3.ManagementSteps
import SiphonSigtran.Mtp3.LinkPhases
import SiphonSigtran.Mtp3.Told
import SiphonSigtran.Mtp3.RouteMarks
import SiphonSigtran.Mtp3.PointBelief
import SiphonSigtran.Mtp3.Announced
import SiphonSigtran.Mtp3.Held
import SiphonSigtran.Mtp3.Inhibit
import SiphonSigtran.Mtp3.Waiting
import SiphonSigtran.Mtp3.Handshake
import SiphonSigtran.Tcap.Engine
import SiphonSigtran.Tcap.Kept
import SiphonSigtran.Tcap.Life
import SiphonSigtran.Tcap.EngineSteps
import SiphonSigtran.Tcap.Closing
import SiphonSigtran.Tcap.Renewal
import SiphonSigtran.Tcap.Lane
import SiphonSigtran.Tcap.Ceiling
import SiphonSigtran.Tcap.Answer
import SiphonSigtran.Tcap.Outcome
import SiphonSigtran.Tcap.FailedFlush
import SiphonSigtran.Tcap.InvokeIds
import SiphonSigtran.Tcap.Rejects
import SiphonSigtran.Tcap.Endable
import SiphonSigtran.Tcap.Idle
import SiphonSigtran.Tcap.Claims
import SiphonSigtran.Transport.Rerouting
import SiphonSigtran.Transport.Ssnm
import SiphonSigtran.Transport.Layer
import SiphonSigtran.Transport.Audit
import SiphonSigtran.Transport.Admitted
import SiphonSigtran.Transport.Controlled
import SiphonSigtran.Transport.Pending
import SiphonSigtran.Routing.ContentRules
import SiphonSigtran.Routing.Screening
import SiphonSigtran.Routing.Admission
import SiphonSigtran.Transport.Reflection
import SiphonSigtran.Transport.Selection
import SiphonSigtran.Transport.Framing
import SiphonSigtran.Transport.Bridge
import SiphonSigtran.Transport.Dial
import SiphonSigtran.Transport.Identity
import SiphonSigtran.Transport.AspSide
import SiphonSigtran.Transport.AspmTells
import SiphonSigtran.Transport.Agreement
import SiphonSigtran.Transport.Answers
import SiphonSigtran.Configuration.Promised
import SiphonSigtran.Routing.Isup
import SiphonSigtran.Transport.Lineage
import SiphonSigtran.Transport.SccpRelay
import SiphonSigtran.Transport.Transit
import SiphonSigtran.Transport.Journey
import SiphonSigtran.Lib.Refresh
import SiphonSigtran.Transport.Availability
import SiphonSigtran.Mtp3.StandingOrders
import SiphonSigtran.M2pa.RunnerObeys
import SiphonSigtran.Transport.LinkLevels
import SiphonSigtran.Mtp3.LateTimeouts
import SiphonSigtran.Mtp3.Runtime
import SiphonSigtran.Lib.Turns
import SiphonSigtran.Routing.Shares
import SiphonSigtran.Transport.Occupancy
