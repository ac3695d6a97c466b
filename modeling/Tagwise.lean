import Tagwise.Lib.Machine
import Tagwise.Lib.Cells
import Tagwise.Lib.Table
import Tagwise.Lib.LastWrite
import Tagwise.Lib.Prog
import Tagwise.Lib.Pool
import Tagwise.Lib.Ensures
import Tagwise.Lib.Record
import Tagwise.Lib.Debt
import Tagwise.Lib.Borsh
import Tagwise.Lib.Limiter
import Tagwise.Lib.Shortlist
import Tagwise.Lib.Expansion
import Tagwise.Lib.TwoRun
import Tagwise.Lib.Bargain
import Tagwise.Lib.Schedule
import Tagwise.Lib.Refine
import Tagwise.Lib.Licence
import Tagwise.Lib.Layer
import Tagwise.Js.CaseTables
import Tagwise.Js.Text
import Tagwise.Js.Format
import Tagwise.Js.BigInt
import Tagwise.Js.Json
import Tagwise.Js.JsonText
import Tagwise.Js.Url
import Tagwise.Js.Date
import Tagwise.Js.Calendar
import Tagwise.Core.Normalize
import Tagwise.Core.Seeds
import Tagwise.Core.Account
import Tagwise.Core.Reserved
import Tagwise.Program.State
import Tagwise.Program.Validation
import Tagwise.Program.Sample
import Tagwise.Program.Instructions
import Tagwise.Program.Entry
import Tagwise.Sdk.Chain
import Tagwise.Sdk.Errors
import Tagwise.Sdk.Http
import Tagwise.Moderation.Profanity
import Tagwise.Moderation.Gate
import Tagwise.Moderation.Variants
import Tagwise.Services.Identity
import Tagwise.Services.World
import Tagwise.Services.Deployment
import Tagwise.Services.Stamps
import Tagwise.Indexer.ApplyChange
import Tagwise.Indexer.Pipeline
import Tagwise.Indexer.Spec
import Tagwise.Indexer.SyncLoop
import Tagwise.Indexer.Outages
import Tagwise.Indexer.Phases
import Tagwise.Indexer.BackfillModeration
import Tagwise.Api.Message
import Tagwise.Api.Tags
import Tagwise.Api.Mirror
import Tagwise.Api.Auth
import Tagwise.Api.Transactions
import Tagwise.Api.Throttle
import Tagwise.Api.Server
import Tagwise.Api.Endpoints
import Tagwise.Api.ExceptionFilter
import Tagwise.Api.Profile
import Tagwise.Sdk.Profile
import Tagwise.Api.Sample
import Tagwise.Api.CacheText
import Tagwise.Api.Http
import Tagwise.Api.Wire
import Tagwise.Sdk.Client
import Tagwise.Protocol.Network
import Tagwise.Protocol.Site
import Tagwise.Protocol.Remote
import Tagwise.Proofs.Authority
import Tagwise.Proofs.Parity
import Tagwise.Proofs.Representation
import Tagwise.Proofs.Codec
import Tagwise.Proofs.Convergence
import Tagwise.Proofs.Overlap
import Tagwise.Proofs.Coverage
import Tagwise.Proofs.ChainReaders
import Tagwise.Proofs.MirrorRecord
import Tagwise.Proofs.LookupPath
import Tagwise.Proofs.WriterPath
import Tagwise.Proofs.MirrorLedger
import Tagwise.Proofs.Freshness
import Tagwise.Proofs.NegativeCache
import Tagwise.Proofs.SingleFlight
import Tagwise.Proofs.ColumnOwnership
import Tagwise.Proofs.WriteTimeOwnership
import Tagwise.Proofs.Backfill
import Tagwise.Proofs.Transactions
import Tagwise.Proofs.TagGrammar
import Tagwise.Proofs.RateLimit
import Tagwise.Proofs.ThrottleScript
import Tagwise.Proofs.RecordRange
import Tagwise.Proofs.Disguise
import Tagwise.Proofs.Padding
import Tagwise.Proofs.VariantSet
import Tagwise.Proofs.Cursor
import Tagwise.Proofs.Reconcile
import Tagwise.Proofs.BlockedInvisible
import Tagwise.Proofs.SearchResults
import Tagwise.Proofs.Registration
import Tagwise.Proofs.ProfilePatch
import Tagwise.Proofs.SingleUse
import Tagwise.Proofs.SignIn
import Tagwise.Proofs.SignInMessage
import Tagwise.Proofs.Expiration
import Tagwise.Proofs.Admission
import Tagwise.Proofs.TypedErrors
import Tagwise.Proofs.Attestation
import Tagwise.Proofs.Journey
import Tagwise.Proofs.Schedules
import Tagwise.Proofs.Custody
import Tagwise.Proofs.Recovery
import Tagwise.Proofs.CacheTexts
import Tagwise.Proofs.Screening
import Tagwise.Proofs.Warrant
import Tagwise.Proofs.Transparency
