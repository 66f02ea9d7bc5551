import ShadeTree.Lib.Run
import ShadeTree.Lib.MerkleTree
import ShadeTree.Lib.Frames
import ShadeTree.Lib.Sums
import ShadeTree.Lib.Table
import ShadeTree.Lib.BondLedger
import ShadeTree.Lib.Regroup
import ShadeTree.Lib.Json
import ShadeTree.Lib.Decimal
import ShadeTree.Lib.Document
import ShadeTree.Lib.Revise
import ShadeTree.Lib.Script
import ShadeTree.Lib.OrderedMap
import ShadeTree.Lib.Patricia
import ShadeTree.Roots.Reconstruct
import ShadeTree.Contracts.Tree
import ShadeTree.Contracts.PoseidonT3
import ShadeTree.Contracts.StakedReputationSet
import ShadeTree.Contracts.PaidAccessSet
import ShadeTree.Contracts.PaidBookkeeping
import ShadeTree.Contracts.RootAgreement
import ShadeTree.Contracts.GatewayRegistry
import ShadeTree.Contracts.Bonds
import ShadeTree.Contracts.Solvency
import ShadeTree.Contracts.Lifecycle
import ShadeTree.Contracts.PoseidonT2
import ShadeTree.Contracts.RateCommitment
import ShadeTree.Contracts.ExitReplay
import ShadeTree.Contracts.FieldAlias
import ShadeTree.Roots.FreshRing
import ShadeTree.Roots.Provider
import ShadeTree.Roots.LogPages
import ShadeTree.Roots.Incremental
import ShadeTree.Roots.MptProof
import ShadeTree.Roots.LightRead
import ShadeTree.Roots.InStep
import ShadeTree.Contracts.ProviderAgreement
import ShadeTree.Client.Refresh
import ShadeTree.Gateway.Envelope
import ShadeTree.Gateway.SpentSet
import ShadeTree.Gateway.SpentEpochs
import ShadeTree.Gateway.FleetTally
import ShadeTree.Gateway.Fleet
import ShadeTree.Gateway.Slasher
import ShadeTree.Gateway.PayloadBudget
import ShadeTree.Gateway.EgressTarget
import ShadeTree.Gateway.Handler
import ShadeTree.Gateway.HandlerBalance
import ShadeTree.Gateway.EarlyBytes
import ShadeTree.Gateway.Dialer
import ShadeTree.Slots.Allocator
import ShadeTree.Slots.Uniqueness
import ShadeTree.Registrar.Engine
import ShadeTree.Registrar.Turns
import ShadeTree.Registrar.Sound
import ShadeTree.Registrar.ExactlyOnce
import ShadeTree.Registrar.Backing
import ShadeTree.Registrar.OneLeaf
import ShadeTree.Bootnode.Onion
import ShadeTree.Bootnode.Announce
import ShadeTree.Bootnode.Registry
import ShadeTree.Bootnode.Calls
import ShadeTree.Bootnode.Ageing
import ShadeTree.Bootnode.Capacity
import ShadeTree.Bootnode.Identity
import ShadeTree.Bootnode.Replay
import ShadeTree.Bootnode.Gossip
import ShadeTree.Bootnode.RelayConservation
import ShadeTree.Bootnode.RelayReporter
import ShadeTree.Bootnode.RelayRetry
import ShadeTree.Bootnode.RelayTelemetry
import ShadeTree.Directory.Caps
import ShadeTree.Proto.Caps
import ShadeTree.Directory.Verify
import ShadeTree.Directory.Threshold
import ShadeTree.Directory.Selection
import ShadeTree.Bootnode.Delta
import ShadeTree.Grove.Activity
import ShadeTree.Grove.BlockIndex
import ShadeTree.Grove.ActivityCounts
import ShadeTree.Lib.SortBy
import ShadeTree.Roots.RawLogs
import ShadeTree.Native.Tree
import ShadeTree.Native.Leaves
import ShadeTree.Lib.Paging
import ShadeTree.Roots.LogWindows
import ShadeTree.Native.Discovery
import ShadeTree.Lib.RoundRobin
import ShadeTree.Lib.WeightedOrder
import ShadeTree.Directory.Spread
import ShadeTree.Native.Selection
import ShadeTree.Native.Rotation
import ShadeTree.Proto.Directory
import ShadeTree.Native.DirCache
import ShadeTree.Client.Health
import ShadeTree.Roots.Composite
import ShadeTree.Gateway.RecentRoots
import ShadeTree.Lib.Euclid
import ShadeTree.Lib.Lucas
import ShadeTree.Lib.Text
import ShadeTree.Gateway.Recovery
import ShadeTree.Gateway.EgressPolicy
import ShadeTree.Lib.Inet
import ShadeTree.Gateway.IsIP
import ShadeTree.Gateway.EgressAddress
import ShadeTree.Lib.LineFrame
import ShadeTree.Lib.Utf8
import ShadeTree.Gateway.EnvelopeFrame
import ShadeTree.Client.Ack
import ShadeTree.Native.Ack
import ShadeTree.Payments.WwwAuthenticate
import ShadeTree.Lib.Base64
import ShadeTree.Payments.Eip3009
import ShadeTree.Payments.Offer
import ShadeTree.Payments.X402
import ShadeTree.Lib.IsoDate
import ShadeTree.Payments.Mpp
import ShadeTree.Payments.RoundTrip
import ShadeTree.Payments.Binding
import ShadeTree.Lib.ShiftRegister
import ShadeTree.Bootnode.OnionCodec
import ShadeTree.Proto.Onion
import ShadeTree.Contracts.TierTables
import ShadeTree.Gateway.TargetBinding
import ShadeTree.Client.PlanEnvelope
import ShadeTree.Lib.Potential
import ShadeTree.Bootnode.TokenBucket
import ShadeTree.Bootnode.RelaySnapshot
import ShadeTree.Grove.Collector
import ShadeTree.Grove.Settlements
import ShadeTree.Grove.Publication
import ShadeTree.Directory.CapsFixed
import ShadeTree.Bootnode.ServedCaps
import ShadeTree.Directory.Total
import ShadeTree.Gateway.Honest
import ShadeTree.Bootnode.Accepted
import ShadeTree.Client.Connect
import ShadeTree.Gateway.TallyTransport
import ShadeTree.Gateway.TallyMesh
import ShadeTree.Lib.IsoParse
import ShadeTree.Grove.Snapshot
import ShadeTree.Grove.SnapshotRuns
import ShadeTree.Grove.SnapshotChain
import ShadeTree.Bootnode.Federation
