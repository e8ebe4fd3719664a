import FabricIBC.Lib.Outcome
import FabricIBC.Lib.ByteString
import FabricIBC.Lib.Wire
import FabricIBC.Lib.Buffer
import FabricIBC.Lib.Reading
import FabricIBC.Lib.MVCC
import FabricIBC.Lib.OrderedMap
import FabricIBC.Lib.Cache
import FabricIBC.Lib.Serial
import FabricIBC.Commitment.Definitions
import FabricIBC.Commitment.Keys
import FabricIBC.Commitment.Sequence
import FabricIBC.Commitment.Clock
import FabricIBC.LightClient.Definitions
import FabricIBC.LightClient.Transition
import FabricIBC.LightClient.Membership
import FabricIBC.LightClient.Messages
import FabricIBC.LightClient.Acceptance
import FabricIBC.LightClient.Symbolic
import FabricIBC.LightClient.Authorisation
import FabricIBC.LightClient.LifeCycle
import FabricIBC.LightClient.History
import FabricIBC.LightClient.Storage
import FabricIBC.LightClient.Persistence
import FabricIBC.LightClient.Following
import FabricIBC.LightClient.Panics
import FabricIBC.LightClient.Usability
import FabricIBC.LightClient.Replay
import FabricIBC.LightClient.Batches
import FabricIBC.LightClient.Frozen
import FabricIBC.Chaincode.Effects
import FabricIBC.Chaincode.SequenceLog
import FabricIBC.Chaincode.Agreement
import FabricIBC.Chaincode.HeightBinding
import FabricIBC.Chaincode.Origin
import FabricIBC.Relay.Prover
import FabricIBC.Relay.Position
import FabricIBC.Relay.Queries
import FabricIBC.Chaincode.BlockTime
import FabricIBC.Chaincode.PastView
import FabricIBC.Chaincode.Concurrency
import FabricIBC.Chaincode.KeySpace
import FabricIBC.Chaincode.Packets
import FabricIBC.Database.Definitions
import FabricIBC.Database.Reference
import FabricIBC.Database.Iterators
import FabricIBC.Database.Refinement
import FabricIBC.Chaincode.Iteration
import FabricIBC.Store.Definitions
import FabricIBC.Store.Mounting
import FabricIBC.Store.Isolation
import FabricIBC.App.Definitions
import FabricIBC.App.Atomicity
import FabricIBC.App.Ante
import FabricIBC.App.Query
import FabricIBC.Ledger.Definitions
import FabricIBC.Ledger.Refinement
import FabricIBC.Ledger.Endorsing
import FabricIBC.Ledger.Interleaving
import FabricIBC.Ledger.Submitters
