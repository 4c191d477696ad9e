import DimensionChain.Chain.Confirmations
import DimensionChain.Chain.Irreversibility
import DimensionChain.ForkDb.BranchPaths
import DimensionChain.ForkDb.BestHead
import DimensionChain.Controller.Restart
import DimensionChain.Chain.SchedulePipeline
import DimensionChain.Auth.Exactness
import DimensionChain.Auth.Hierarchy
import DimensionChain.System.Execution
import DimensionChain.System.Custody
import DimensionChain.System.Refunds
import DimensionChain.System.RamAccounting
import DimensionChain.System.ConsensusSwitch
import DimensionChain.Apply.Billing
import DimensionChain.Apply.Acceptance
import DimensionChain.Controller.Tapos
import DimensionChain.Chain.MerkleAppend
import DimensionChain.Chain.SignatureKeys
import DimensionChain.Producer.Watermarks
import DimensionChain.Producer.NextBlock
import DimensionChain.Log.StateHistoryRuns
import DimensionChain.Log.StateHistoryRecovery
import DimensionChain.Abi.RoundTrip
import DimensionChain.Abi.SystemAbi
import DimensionChain.Abi.HistoryDecoding
import DimensionChain.Wasm.SoftFloat
import DimensionChain.Db.DeltaReplay
import DimensionChain.Resource.Admission
import DimensionChain.Chain.PackedTransaction
import DimensionChain.Log.SnapshotReader
import DimensionChain.Log.Repair
import DimensionChain.Wasm.Nesting
import DimensionChain.Wasm.CallDepth
import DimensionChain.System.VoteWeight
import DimensionChain.Net.BlockMessages
import DimensionChain.Contract.Varint
