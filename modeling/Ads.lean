import Ads.Foundation.PrefixOrder
import Ads.Foundation.CircularChain
import Ads.Foundation.StateExcept
import Ads.Foundation.Table
import Ads.Foundation.Runs
import Ads.Foundation.LockFiles
import Ads.Foundation.Interrupted
import Ads.Foundation.Disturbed
import Ads.Foundation.Brackets
import Ads.Foundation.Leases
import Ads.Dns.Name
import Ads.Dns.Records
import Ads.Dns.Zone
import Ads.Dns.Chains
import Ads.Python.Base32
import Ads.Python.Digits
import Ads.SandboxEgress.DnssecValidation
import Ads.SandboxEgress.DnssecDenial
import Ads.SandboxEgress.NsecDenial
import Ads.SandboxEgress.NsecWildcard
import Ads.SandboxEgress.Nsec3Denial
import Ads.SandboxEgress.DnssecChain
import Ads.Python.Text
import Ads.Python.IpAddress
import Ads.SandboxEgress.Policy
import Ads.Foundation.Wildcards
import Ads.Foundation.PrefixCodes
import Ads.Foundation.Cutting
import Ads.Foundation.Alphabets
import Ads.SandboxEgress.AntPatterns
import Ads.SandboxEgress.Destinations
import Ads.SandboxEgress.Membership
import Ads.SandboxEgress.MembershipSafety
import Ads.SandboxEgress.DnssecAnswer
import Ads.SandboxEgress.AnswerSoundness
import Ads.SandboxEgress.Http2Proxy
import Ads.SandboxEgress.Http2Exchanges
import Ads.SandboxEgress.Framing
import Ads.SandboxEgress.RawHeaders
import Ads.SandboxEgress.ChunkedWire
import Ads.SandboxEgress.ChunkedGrammar
import Ads.SandboxEgress.RequestAuthorization
import Ads.Python.IpAddressText
import Ads.Python.ReversePointer
import Ads.SandboxEgress.ReverseNames
import Ads.SandboxEgress.OcspDer
import Ads.SandboxEgress.OcspFields
import Ads.SandboxEgress.CanonicalHost
import Ads.SandboxEgress.PolicyDecision
import Ads.SandboxEgress.CanonicalSettings
import Ads.SandboxEgress.PolicyStore
import Ads.SandboxEgress.Http2
import Ads.SandboxEgress.IdentityStore
import Ads.SandboxEgress.IdentityMoves
import Ads.SandboxEgress.IdentityJournals
import Ads.SandboxEgress.IdentityInvariants
import Ads.SandboxEgress.CrlRepository
import Ads.SandboxEgress.CrlHistory
import Ads.SandboxEgress.CrlSafety
import Ads.SandboxEgress.CrlStatus
import Ads.SandboxEgress.CrlReference
import Ads.SandboxEgress.CrlAgreement
import Ads.SandboxEgress.EchLifecycle
import Ads.SandboxEgress.EchJournal
import Ads.SandboxEgress.EchSafety
import Ads.SandboxEgress.EchAnswers
import Ads.SandboxEgress.Http2Bodies
import Ads.SandboxEgress.Http2Isolation
import Ads.SandboxEgress.DnsTransport
import Ads.SandboxEgress.DnsAccounting
import Ads.SandboxEgress.InventoryEncoding
import Ads.Context.History
import Ads.Context.Compactor
import Ads.Context.CompactorRounds
import Ads.Context.Boundaries
import Ads.Context.Frames
import Ads.Context.FrameBudget
import Ads.Context.FrameBatches
import Ads.Context.FrameTermination
import Ads.Transcript.Database
import Ads.Transcript.Services
import Ads.Transcript.Chain
import Ads.Transcript.Walk
import Ads.Transcript.Promotion
import Ads.Transcript.Settlement
import Ads.Transcript.Output
import Ads.Transcript.Sending
import Ads.Transcript.Invariant
import Ads.Transcript.Execution
import Ads.Transcript.Rollback
import Ads.Transcript.Delivery
import Ads.Transcript.Watchdog
import Ads.Transcript.Freezing
import Ads.Transcript.LastOrder
import Ads.PtpTools.Plugin
import Ads.PtpTools.Exclusion
import Ads.PtpTools.History
import Ads.PtpTools.Links
import Ads.PtpTools.Attachment
import Ads.SandboxIpc.Service
import Ads.SandboxIpc.AtMostOnce
import Ads.SandboxIpc.Shutdown
import Ads.SandboxIpc.EgressDelivery
import Ads.SandboxIpc.EgressRevisions
import Ads.SandboxMcp.Service
import Ads.SandboxMcp.Handshake
import Ads.SandboxManager.Reaping
import Ads.SandboxManager.Sealing
import Ads.SandboxManager.CreatorMoves
import Ads.SandboxManager.Transit
import Ads.SandboxManager.TransitSafety
import Ads.ManagerKafka.AdmissionSafety
import Ads.ManagerKafka.Group
import Ads.ManagerKafka.Barrier
import Ads.ManagerKafka.BarrierSafety
import Ads.ManagerPing.Verdicts
import Ads.Engine.CompletionOnly
import Ads.Deploy.Reset
import Ads.Deploy.ResetInvariant
import Ads.Deploy.ResetOperations
import Ads.Deploy.ResetPhases
import Ads.Deploy.ResetSafety
