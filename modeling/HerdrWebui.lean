import HerdrWebui.Builtin.Focus
import HerdrWebui.Data.Tail
import HerdrWebui.Hub.ReplayRing
import HerdrWebui.Hub.ReaderLoop
import HerdrWebui.Hub.SharedAttach
import HerdrWebui.Hub.Join
import HerdrWebui.Terminal.Runtime
import HerdrWebui.Terminal.Attach
import HerdrWebui.Storage.AtomicWrite
import HerdrWebui.Server.Auth
import HerdrWebui.Server.Sessions
import HerdrWebui.Server.Credentials
import HerdrWebui.Server.Sidecar
import HerdrWebui.Data.Text
import HerdrWebui.Data.Logged
import HerdrWebui.Data.Json
import HerdrWebui.Data.Growth
import HerdrWebui.Server.Settings
import HerdrWebui.Server.SettingsRace
import HerdrWebui.Server.SettingsFile
import HerdrWebui.Server.SessionFile
import HerdrWebui.Session.Lifecycle
import HerdrWebui.Agent.Detection
import HerdrWebui.Agent.Throttle
import HerdrWebui.Agent.Publication
import HerdrWebui.Terminal.Exit
import HerdrWebui.Terminal.Backpressure
import HerdrWebui.Terminal.Connection
import HerdrWebui.Hub.Closing
import HerdrWebui.Hub.Detach
import HerdrWebui.Builtin.Rows
import HerdrWebui.Builtin.Checkouts
import HerdrWebui.Builtin.PaneEvents
import HerdrWebui.Builtin.Lifetimes
import HerdrWebui.Server.Promotion
import HerdrWebui.Server.Cookies
import HerdrWebui.Server.Logout
import HerdrWebui.Server.RotatedCookie
import HerdrWebui.Server.LoginThrottle
import HerdrWebui.Server.SessionOrder
import HerdrWebui.Notes.Store
import HerdrWebui.Notes.Persist
import HerdrWebui.Files.OptimisticSave
import HerdrWebui.Files.FileTree
import HerdrWebui.Files.Containment
import HerdrWebui.Git.Tokens
import HerdrWebui.Git.UnifiedDiff
import HerdrWebui.Git.Requests
import HerdrWebui.Git.Processes
import HerdrWebui.Git.Transports
import HerdrWebui.Git.WorktreeCache
import HerdrWebui.Lsp.Registry
import HerdrWebui.Lsp.Requests
import HerdrWebui.Concurrency.Waiting
import HerdrWebui.Lsp.IdleShutdown
import HerdrWebui.Lsp.Locks
import HerdrWebui.Transcript.Messages
import HerdrWebui.Transcript.Turns
import HerdrWebui.Transcript.Growth
import HerdrWebui.Transcript.Parts
import HerdrWebui.Transcript.ToolOutput
import HerdrWebui.Transcript.Images
import HerdrWebui.Data.Paging
import HerdrWebui.Transcript.Paging
import HerdrWebui.Git.StatusState
import HerdrWebui.Git.WorktreeList
import HerdrWebui.Git.WorktreeOrder
import HerdrWebui.Terminal.Protocol
import HerdrWebui.Terminal.Paste
import HerdrWebui.Session.SocketPaths
import HerdrWebui.Terminal.StyledText
import HerdrWebui.Terminal.OscAgreement
import HerdrWebui.Terminal.ImageChunks
import HerdrWebui.Terminal.LineTruncation
import HerdrWebui.Terminal.TabStops
import HerdrWebui.Terminal.WideCells
import HerdrWebui.Terminal.CursorMovement
import HerdrWebui.Terminal.AnsiStrip
import HerdrWebui.Terminal.GraphicsBridge
import HerdrWebui.Agent.ProcessTree
import HerdrWebui.Files.PathSearch
import HerdrWebui.Files.SearchChunks
import HerdrWebui.Files.SearchEndpoints
import HerdrWebui.Transcript.Base64
import HerdrWebui.Transcript.SessionIndex
import HerdrWebui.Transcript.ToolFolding
import HerdrWebui.Git.RailStatus
import HerdrWebui.Git.StatusPaths
import HerdrWebui.Git.ChunkPatch
import HerdrWebui.Tui.App
import HerdrWebui.Tui.Keys
import HerdrWebui.Tui.Layers
import HerdrWebui.Git.DiffRows
import HerdrWebui.Files.StatusColors
import HerdrWebui.Files.GitQuoting
import HerdrWebui.Files.PorcelainStatus
import HerdrWebui.Files.ContentSearch
import HerdrWebui.Git.ActivityKeys
import HerdrWebui.Git.LogGraph
import HerdrWebui.Git.DiffNumbers
import HerdrWebui.Git.DiffBlocks
import HerdrWebui.Git.DiffNames
import HerdrWebui.Agent.PaneProcesses
import HerdrWebui.Git.BranchDelete
import HerdrWebui.Git.BlameAuthors
import HerdrWebui.Files.MarkdownOutline
import HerdrWebui.Server.NoSleep
import HerdrWebui.Tui.FileEditor
import HerdrWebui.Panes.Mirror
import HerdrWebui.Panes.OneOwner
import HerdrWebui.Tui.Search
import HerdrWebui.Data.Utf8Frames
import HerdrWebui.Tui.Frames
import HerdrWebui.Terminal.MouseModes
import HerdrWebui.Terminal.QueryReplies
import HerdrWebui.Tui.Overlays
import HerdrWebui.Tui.Scrollback
import HerdrWebui.Data.Blocks
import HerdrWebui.Tui.ChangesView
import HerdrWebui.Data.Runs
import HerdrWebui.Agent.PromptCards
import HerdrWebui.Tui.Explorer
import HerdrWebui.Tui.EditorTurns
import HerdrWebui.Tui.Screens
import HerdrWebui.Tui.Panels
import HerdrWebui.Tui.PanelRuns
import HerdrWebui.Tui.UnsavedEdits
import HerdrWebui.Tui.Footer
import HerdrWebui.Tui.DiffSearch
