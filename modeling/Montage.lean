import Montage.Asset.Fetch
import Montage.Asset.Name
import Montage.Asset.Probe
import Montage.Asset.Redirect
import Montage.Asset.Upload
import Montage.Clock.Timestamp
import Montage.Engine.Output
import Montage.Engine.Run
import Montage.Files.Tree
import Montage.Host.Character
import Montage.Host.Context
import Montage.Host.Direction
import Montage.Host.Label
import Montage.Host.Name
import Montage.Host.Punycode
import Montage.Http.App
import Montage.Http.Basic
import Montage.Http.Cors
import Montage.Http.Route
import Montage.Job.Basic
import Montage.Job.Store
import Montage.Json.Basic
import Montage.Json.Encoding
import Montage.Json.Reader
import Montage.Json.Text
import Montage.Json.Wording
import Montage.Json.Writer
import Montage.Number.Basic
import Montage.Number.Binary64
import Montage.Number.Decimal
import Montage.Number.HalfEven
import Montage.Number.Literal
import Montage.Plan.Basic
import Montage.Plan.Compile
import Montage.Plan.Escape
import Montage.Plan.Filter
import Montage.Plan.Label
import Montage.Plan.Tempo
import Montage.Problem
import Montage.Proofs.AlikeClips
import Montage.Proofs.Assembly
import Montage.Proofs.AssetPlaces
import Montage.Proofs.Bystanders
import Montage.Proofs.CallMoves
import Montage.Proofs.Checks
import Montage.Proofs.ClipLengths
import Montage.Proofs.CompileOutcome
import Montage.Proofs.Courses
import Montage.Proofs.Deletions
import Montage.Proofs.Deliveries
import Montage.Proofs.Diagnostics
import Montage.Proofs.DownloadAnswers
import Montage.Proofs.DownloadRuns
import Montage.Proofs.DownloadSchedules
import Montage.Proofs.Draining
import Montage.Proofs.EngineRuns
import Montage.Proofs.ExactNumbers
import Montage.Proofs.Expiry
import Montage.Proofs.FailedRemovals
import Montage.Proofs.Fates
import Montage.Proofs.Fetched
import Montage.Proofs.FilePlaces
import Montage.Proofs.FilterOrder
import Montage.Proofs.FilterText
import Montage.Proofs.FiniteNumbers
import Montage.Proofs.FixedForms
import Montage.Proofs.Gathering
import Montage.Proofs.GraphText
import Montage.Proofs.Homes
import Montage.Proofs.Independence
import Montage.Proofs.JobHistory
import Montage.Proofs.JobPlaces
import Montage.Proofs.JobStates
import Montage.Proofs.LabelEvents
import Montage.Proofs.LabelOutcome
import Montage.Proofs.LabelText
import Montage.Proofs.MediaRequests
import Montage.Proofs.NearestError
import Montage.Proofs.NearestOrder
import Montage.Proofs.NumberOrder
import Montage.Proofs.OpenJobs
import Montage.Proofs.OpenedOutputs
import Montage.Proofs.Orphans
import Montage.Proofs.Outputs
import Montage.Proofs.PlaceWatch
import Montage.Proofs.PlainFiles
import Montage.Proofs.PlanLayout
import Montage.Proofs.PlanWays
import Montage.Proofs.ProbeAnswers
import Montage.Proofs.ProgressNotes
import Montage.Proofs.ReadBack
import Montage.Proofs.ReadFilters
import Montage.Proofs.ReadNumbers
import Montage.Proofs.Removals
import Montage.Proofs.RemovedPlaces
import Montage.Proofs.Rewording
import Montage.Proofs.Scanning
import Montage.Proofs.Sections
import Montage.Proofs.SetAside
import Montage.Proofs.SharedStore
import Montage.Proofs.Shares
import Montage.Proofs.SixPlaces
import Montage.Proofs.SlotCounts
import Montage.Proofs.Spellings
import Montage.Proofs.SourceNames
import Montage.Proofs.StageFlow
import Montage.Proofs.Standing
import Montage.Proofs.StoreCalls
import Montage.Proofs.StoreDirectories
import Montage.Proofs.StoreRecords
import Montage.Proofs.StoredTimeline
import Montage.Proofs.StreamGuards
import Montage.Proofs.StreamReading
import Montage.Proofs.Submissions
import Montage.Proofs.Supplies
import Montage.Proofs.Sweeps
import Montage.Proofs.TaskFrames
import Montage.Proofs.TaskMoves
import Montage.Proofs.TaskTable
import Montage.Proofs.Tempos
import Montage.Proofs.TextLines
import Montage.Proofs.TokenReading
import Montage.Proofs.Trims
import Montage.Proofs.UniformInputs
import Montage.Proofs.UploadNames
import Montage.Proofs.Uploads
import Montage.Proofs.Validity
import Montage.Proofs.Ways
import Montage.Proofs.WrittenLengths
import Montage.Proofs.WrittenNumbers
import Montage.Proofs.WrittenTimes
import Montage.Schema.Basic
import Montage.Service.Basic
import Montage.Service.Call
import Montage.Service.Run
import Montage.Service.Slots
import Montage.Service.Submit
import Montage.Service.Task
import Montage.Service.World
import Montage.Settings
import Montage.Text.Ascii
import Montage.Text.Blank
import Montage.Text.Case
import Montage.Text.Composed
import Montage.Text.Digit
import Montage.Text.Foreign
import Montage.Text.Half
import Montage.Text.Letter
import Montage.Text.Lines
import Montage.Text.Order
import Montage.Text.Quoted
import Montage.Text.Utf8
import Montage.Timeline.Basic
import Montage.Timeline.Check
import Montage.Timeline.Pattern
import Montage.Timeline.Reader
import Montage.Timeline.Request
import Montage.Timeline.Writer
import Montage.Url.Address
import Montage.Url.Basic
import Montage.Url.Parts
import Montage.Url.Path
import Montage.Url.Percent
import Montage.Url.Request
import Montage.Url.Resolve
