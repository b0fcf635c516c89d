import ChainBreaker.Lib.Arrival
import ChainBreaker.Lib.Fallible
import ChainBreaker.Lib.FileSteps
import ChainBreaker.Lib.FramedLog
import ChainBreaker.Lib.Lex
import ChainBreaker.Lib.Marker
import ChainBreaker.Lib.Measure
import ChainBreaker.Lib.OrderStatistic
import ChainBreaker.Lib.OffsetReader
import ChainBreaker.Lib.PairTree
import ChainBreaker.Lib.PrefixCode
import ChainBreaker.Lib.Sha256
import ChainBreaker.Py
import ChainBreaker.Crypto
import ChainBreaker.Governance
import ChainBreaker.Registry
import ChainBreaker.RegistryStep
import ChainBreaker.KeyHistory
import ChainBreaker.Rotation
import ChainBreaker.Codec
import ChainBreaker.Block
import ChainBreaker.Identity
import ChainBreaker.Ledger
import ChainBreaker.LedgerRules
import ChainBreaker.Batch
import ChainBreaker.AlphaBlocks
import ChainBreaker.Work
import ChainBreaker.Reorg
import ChainBreaker.ReorgRules
import ChainBreaker.SharedPrefix
import ChainBreaker.ForkChoice
import ChainBreaker.Completeness
import ChainBreaker.NodeOrder
import ChainBreaker.RegistryBytes
import ChainBreaker.GovernanceErrors
import ChainBreaker.Acceptance
import ChainBreaker.Answers
import ChainBreaker.CacheCoherence
import ChainBreaker.KeyOrder
import ChainBreaker.Threshold
import ChainBreaker.ReplayProtection
import ChainBreaker.KeyOwners
import ChainBreaker.SignatureOrder
import ChainBreaker.CanonicalJson
import ChainBreaker.Commitment
import ChainBreaker.MerkleProof
import ChainBreaker.Attestation
import ChainBreaker.Text
import ChainBreaker.JsonText
import ChainBreaker.JsonBack
import ChainBreaker.EscapedJson
import ChainBreaker.LoadedJson
import ChainBreaker.RustJson
import ChainBreaker.RustGenesis
import ChainBreaker.HeaderCodec
import ChainBreaker.WriterLock
import ChainBreaker.Journal
import ChainBreaker.StorageFormats
import ChainBreaker.GrownChain
import ChainBreaker.Mining
import ChainBreaker.RegistryRead
import ChainBreaker.RegistryGrammar
import ChainBreaker.BlockWire
import ChainBreaker.TransactionWire
import ChainBreaker.Envelope
import ChainBreaker.Framing
import ChainBreaker.FrameErrors
import ChainBreaker.TcpTransport
import ChainBreaker.MessageQueue
import ChainBreaker.Messages
import ChainBreaker.TypedMessages
import ChainBreaker.MessageCodecs
import ChainBreaker.Handshake
import ChainBreaker.ConnectionManager
import ChainBreaker.HandshakeAgreement
import ChainBreaker.Store
import ChainBreaker.HeaderSync
import ChainBreaker.AppendBlock
import ChainBreaker.SyncEngine
import ChainBreaker.SyncRequests
import ChainBreaker.BlockDelivery
import ChainBreaker.Retarget
import ChainBreaker.Relay
import ChainBreaker.Recovery
import ChainBreaker.RecoveryRules
import ChainBreaker.HeadRecord
import ChainBreaker.RecoveryRepeat
import ChainBreaker.RecoveredTip
import ChainBreaker.Locator
import ChainBreaker.GossipRates
import ChainBreaker.GossipSuppression
import ChainBreaker.GossipHops
import ChainBreaker.GossipForward
import ChainBreaker.HandshakeInvariant
import ChainBreaker.LegacyRegistry
import ChainBreaker.CommonAncestor
import ChainBreaker.Lib.Window
import ChainBreaker.SendRate
import ChainBreaker.Archive
import ChainBreaker.BlockResponses
import ChainBreaker.CandidateSelection
import ChainBreaker.Discovery
import ChainBreaker.GovernanceSigning
import ChainBreaker.BranchReads
import ChainBreaker.BranchRuns
import ChainBreaker.Lib.Outstanding
import ChainBreaker.Lib.Trace
import ChainBreaker.RelayExchange
import ChainBreaker.Lib.WriteBehind
import ChainBreaker.MemoryDisk
