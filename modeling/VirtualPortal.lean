import VirtualPortal.Lib.Bytes
import VirtualPortal.Lib.Run
import VirtualPortal.Lib.Alternating
import VirtualPortal.Lib.Ring
import VirtualPortal.Lib.Conservation
import VirtualPortal.Lib.Packed
import VirtualPortal.Lib.Indexed
import VirtualPortal.Lib.RoundRobin
import VirtualPortal.Lib.Bounded
import VirtualPortal.Hid.Session
import VirtualPortal.Storage.Disk
import VirtualPortal.Storage.Journal
import VirtualPortal.Storage.Recovery
import VirtualPortal.Storage.PowerCuts
import VirtualPortal.Storage.CrashSafety
import VirtualPortal.Storage.Machine
import VirtualPortal.Storage.Catalog
import VirtualPortal.Storage.Poll
import VirtualPortal.Storage.PollSteps
import VirtualPortal.Hid.Control
import VirtualPortal.Hid.Process
import VirtualPortal.Hid.RequestSteps
import VirtualPortal.Hid.ReplyQueue
import VirtualPortal.System
import VirtualPortal.Storage.Moves
import VirtualPortal.Storage.OneJob
import VirtualPortal.Storage.Slots
import VirtualPortal.Storage.SecondFigure
import VirtualPortal.Hid.Figures
import VirtualPortal.Hid.Requests
import VirtualPortal.Hid.Worker
import VirtualPortal.Hid.Deliveries
import VirtualPortal.Hid.Acks
import VirtualPortal.Hid.Replies
import VirtualPortal.Hid.StatusCodes
import VirtualPortal.Hid.Showing
import VirtualPortal.Hid.StatusStream
import VirtualPortal.Hid.MenuState
import VirtualPortal.Storage.BackgroundSaves
import VirtualPortal.Hid.ReadDeadlines
import VirtualPortal.Storage.RemovalDelay
import VirtualPortal.Storage.SingleJob
import VirtualPortal.Storage.LoadJob
import VirtualPortal.Storage.SwapAction
import VirtualPortal.Storage.AtomicActions
import VirtualPortal.Storage.OnCard
import VirtualPortal.Storage.CardJobs
import VirtualPortal.Storage.CleanSlots
import VirtualPortal.Overlay.Menu
import VirtualPortal.Overlay.Arbitration
import VirtualPortal.Overlay.SafeRemoval
import VirtualPortal.Overlay.Draw
import VirtualPortal.Overlay.InsideFrame
import VirtualPortal.Hid.MenuRequests
import VirtualPortal.Overlay.Mailbox
import VirtualPortal.Overlay.Numbers
import VirtualPortal.Overlay.ExactlyOnce
import VirtualPortal.Overlay.Labels
import VirtualPortal.Hid.Dispatch
import VirtualPortal.Hid.Routing
import VirtualPortal.Hidv5.Portal
import VirtualPortal.Hidv5.StockPath
import VirtualPortal.Lib.Seqlock
import VirtualPortal.Overlay.Snapshot
import VirtualPortal.Storage.LoadReference
import VirtualPortal.Storage.Uids
import VirtualPortal.Lib.Schedule
import VirtualPortal.Hid.Startup
import VirtualPortal.Hid.FairRuns
import VirtualPortal.Hid.RequestsEnd
import VirtualPortal.Storage.ActionsEnd
import VirtualPortal.Storage.Autoload
import VirtualPortal.Storage.AllSaved
import VirtualPortal.Storage.Records
import VirtualPortal.Storage.Words
import VirtualPortal.Storage.WordSteps
import VirtualPortal.Storage.CatalogBounds
import VirtualPortal.Hid.Commands
import VirtualPortal.Hid.Confined
import VirtualPortal.Hidv5.Replies
import VirtualPortal.Lib.Segments
import VirtualPortal.Lib.Placed
import VirtualPortal.Lib.Parts
import VirtualPortal.Lib.Handles
import VirtualPortal.Lib.Succession
import VirtualPortal.Lib.Settling
import VirtualPortal.Lib.Replaced
import VirtualPortal.PortalCore.Slots
import VirtualPortal.PortalCore.Service
import VirtualPortal.PortalCore.Steps
import VirtualPortal.PortalCore.Codes
import VirtualPortal.PortalCore.Replies
import VirtualPortal.PortalCore.HotSwap
import VirtualPortal.PortalCore.Lab
import VirtualPortal.Tools.DolPatch
import VirtualPortal.Tools.Paths
import VirtualPortal.Tools.Library
import VirtualPortal.Tools.Merge
import VirtualPortal.Tools.Catalogue
import VirtualPortal.Tools.Extend
import VirtualPortal.Tools.Agreement
import VirtualPortal.Tools.Prepare
import VirtualPortal.Tools.Prepared
import VirtualPortal.Tools.ArmBranch
import VirtualPortal.Tools.BuildOverlay
import VirtualPortal.Tools.OverlayImage
import VirtualPortal.Hidv5.Install
import VirtualPortal.Hidv5.Installed
import VirtualPortal.Hidv5.Bootstrap
import VirtualPortal.Hidv5.Calls
