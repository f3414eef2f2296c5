import GophProfile.Library.Table
import GophProfile.Library.Pool
import GophProfile.Breaker
import GophProfile.ImageProc
import GophProfile.Postgres
import GophProfile.Publisher
import GophProfile.S3
import GophProfile.Service
import GophProfile.Worker
import GophProfile.Keys
import GophProfile.World
import GophProfile.Response
import GophProfile.Rest
import GophProfile.Web
import GophProfile.Thread
import GophProfile.Programs
import GophProfile.Ownership
import GophProfile.Outline
import GophProfile.Tokens
import GophProfile.Isolation
import GophProfile.Deletion
import GophProfile.Processing
import GophProfile.Originals
import GophProfile.Storage
import GophProfile.ContentTags
import GophProfile.Cleanup
import GophProfile.Consumer
import GophProfile.Retries
import GophProfile.Server
import GophProfile.Breakers
import GophProfile.Recovery
import GophProfile.Redelivery
import GophProfile.Conditional
import GophProfile.Configuration
import GophProfile.Form
import GophProfile.Faults
import GophProfile.Backlog
import GophProfile.CurrentAvatar
import GophProfile.Connection
import GophProfile.Upkeep
import GophProfile.Confirms
import GophProfile.Closing
import GophProfile.Readiness
import GophProfile.CurrentDeletion
import GophProfile.Consume
import GophProfile.Shutdown
import GophProfile.Redirect
import GophProfile.BreakerStreak
import GophProfile.Logger
import GophProfile.FileName
import GophProfile.Detect
import GophProfile.DamagedTags
import GophProfile.FormData
import GophProfile.Multipart
import GophProfile.UploadLimit
import GophProfile.Health
import GophProfile.Library.Defer
import GophProfile.Library.JsonText
import GophProfile.ServerProcess
import GophProfile.Wire
import GophProfile.WorkerProcess
import GophProfile.Tracing
import GophProfile.Bucket
import GophProfile.Gallery
import GophProfile.GalleryCalls
import GophProfile.GalleryRuns
import GophProfile.GallerySessions
import GophProfile.Answers
import GophProfile.Endpoints
import GophProfile.Library.Guard
import GophProfile.Schema
import GophProfile.Deadlines
import GophProfile.Writing
import GophProfile.Router
import GophProfile.ProgramRuns
