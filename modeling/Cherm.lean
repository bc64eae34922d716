import Cherm.Client.Account
import Cherm.Lib.JsonText
import Cherm.Lib.JsonExact
import Cherm.Lib.JsonPretty
import Cherm.Lib.Prog
import Cherm.Client.Processor
import Cherm.Client.Asks
import Cherm.Frames
import Cherm.Ideal
import Cherm.Relay.Store
import Cherm.Proof.KeyDistribution
import Cherm.Proof.KeyTexts
import Cherm.Proof.PinCheck
import Cherm.Proof.Suspension
import Cherm.Proof.ChatKinds
import Cherm.Proof.ChatIntegrity
import Cherm.Client.CommandAsks
import Cherm.Client.FrameAsks
import Cherm.Proof.DmIsolation
import Cherm.Lib.Crew
import Cherm.Lib.Trace
import Cherm.Proof.Authentication
import Cherm.Relay.System
import Cherm.Relay.Handlers
import Cherm.Relay.Tasks
import Cherm.Relay.Copies
import Cherm.Proof.OutboxOnce
import Cherm.Relay.Progress
import Cherm.Proof.CopiesKept
import Cherm.Proof.SendOrder
import Cherm.Proof.SendReplies
import Cherm.Proof.Backlog
import Cherm.Client.AccountUse
import Cherm.Lib.Handler
import Cherm.Client.Engine
import Cherm.Client.Links
import Cherm.Client.EngineView
import Cherm.Client.EngineRuns
import Cherm.Proof.OneProcessor
import Cherm.Proof.LinkIdentity
import Cherm.Relay.Duties
import Cherm.Proof.FetchRate
import Cherm.Relay.Replay
import Cherm.Lib.Team
import Cherm.Lib.Twin
import Cherm.Proof.Directory
import Cherm.Proof.Presence
import Cherm.Proof.Prekeys
import Cherm.Proof.FanOut
import Cherm.Proof.FrameSizes
import Cherm.Proof.Authority
import Cherm.Proof.MegolmOnce
import Cherm.Proof.WireFormat
import Cherm.Relay.Alike
import Cherm.Proof.Blindness
import Cherm.Proof.PinnedKey
import Cherm.Lib.Checks
import Cherm.Attest.Crates
import Cherm.Attest.Official
import Cherm.Attest.Nitro
import Cherm.Attest.Verify
import Cherm.Attest.Ideal
import Cherm.Proof.Attestation
import Cherm.Proof.Enclave
import Cherm.Proof.QuoteAge
import Cherm.Client.Ledger
import Cherm.Proof.Eviction
import Cherm.Proof.InviteKeys
import Cherm.Proof.Deadlines
import Cherm.Proof.OlmAtomic
import Cherm.Proof.Repinning
import Cherm.Proof.OwnerShares
import Cherm.Client.Walk
import Cherm.Client.CommandWalk
import Cherm.Client.ChatTrust
import Cherm.Client.CommandTrust
import Cherm.Client.Lines
import Cherm.Proof.SystemLines
import Cherm.Proof.TrustedOrder
import Cherm.Proof.ModeratedSilence
import Cherm.Client.Retimed
import Cherm.Lib.Steps
import Cherm.Proof.OutboxCaps
import Cherm.Proof.PrekeyRetry
import Cherm.Plugin.Manifest
import Cherm.Plugin.Manager
import Cherm.Plugin.Ideal
import Cherm.Proof.PluginDirs
import Cherm.Proof.PluginContent
import Cherm.Edge.Js
import Cherm.Edge.Worker
import Cherm.Edge.Ideal
import Cherm.Proof.StoreReads
import Cherm.Proof.Submissions
import Cherm.Lib.Attempt
import Cherm.Update.Client
import Cherm.Proof.UpdateSigned
import Cherm.Lib.GoText
import Cherm.Tui.Types
import Cherm.Tui.Model
import Cherm.Tui.Update
import Cherm.Tui.Quiet
import Cherm.Tui.Ideal
import Cherm.Proof.RedCountdown
import Cherm.Proof.Restarts
import Cherm.Proof.ServersApart
import Cherm.Client.Control
import Cherm.Lib.Pace
import Cherm.Relay.FetchGate
import Cherm.Proof.PluginPaths
import Cherm.Proof.Addresses
import Cherm.Lib.Padded
import Cherm.Plugin.Updates
import Cherm.Proof.Versions
import Cherm.Proof.UpdateAtomic
import Cherm.Proof.OneCountdown
import Cherm.Proof.InstalledFlags
import Cherm.Tui.Render
import Cherm.Proof.Transcript
import Cherm.Plugin.Requests
import Cherm.Plugin.Texts
import Cherm.Proof.CleanTexts
import Cherm.Lib.Ranking
import Cherm.Proof.VersionOrder
import Cherm.Edge.Routes
import Cherm.Proof.PluginNames
import Cherm.Proof.KeyCustody
import Cherm.Proof.ReplyOrder
import Cherm.Proof.DmInOrder
import Cherm.Proof.GroupInOrder
import Cherm.Proof.KnownServers
import Cherm.Proof.Admission
import Cherm.Proof.CommandLines
