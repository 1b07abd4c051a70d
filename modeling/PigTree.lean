import PigTree.Engine.Accounting
import PigTree.Engine.Browse
import PigTree.Engine.Response
import PigTree.Engine.Reordering
import PigTree.Client.FrameCodec
import PigTree.Protocol.ObservationStream
import PigTree.Worker.Classes
import PigTree.Worker.Coverage
import PigTree.Worker.Agreement
import PigTree.Protocol.FailedWrites
import PigTree.Worker.Settles
import PigTree.Worker.DirectoryTree
import PigTree.Engine.Paths
import PigTree.Engine.Pages
import PigTree.Engine.ContentStreams
import PigTree.Engine.Rejections
import PigTree.Engine.LinkEvidence
import PigTree.Engine.HardLinkReport
import PigTree.Protocol.JsonDocuments
import PigTree.Session.ScanCall
import PigTree.Cli.ScanCommand
import PigTree.Cli.EventStream
import PigTree.Cli.ExitClass
import PigTree.Engine.Progress
import PigTree.Engine.ScanLoop
import PigTree.Session.PipeSecurity
import PigTree.Session.ScanTarget
import PigTree.Worker.DirectoryBuffer
import PigTree.Worker.FindData
import PigTree.Session.CommandLine
import PigTree.Client.BoundedPageCache
import PigTree.Client.Checksums
import PigTree.Foundation.Decimal
import PigTree.Foundation.Calendar
import PigTree.Protocol.Timestamp
import PigTree.Foundation.Preorder
import PigTree.Client.TreeProjection
import PigTree.Client.ExpandedTree
import PigTree.Client.Selection
import PigTree.Engine.OfflineLca
import PigTree.Session.TargetValidation
import PigTree.Engine.CommandLoop
import PigTree.Foundation.Ledger
import PigTree.Engine.Conversation
import PigTree.Engine.ServedPages
import PigTree.Client.EngineClient
import PigTree.Client.SessionRuns
import PigTree.Client.ServedTree
import PigTree.Client.MainViewModel
import PigTree.Worker.Launch
