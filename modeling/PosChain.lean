import PosChain.Admission.Restart
import PosChain.Ante.AuthzLimiter.Theorems
import PosChain.Ante.Evm.Replay
import PosChain.Ante.Evm.Storage
import PosChain.Bridge.Authorisation
import PosChain.Bridge.Authorisations
import PosChain.Bridge.Conservation
import PosChain.Bridge.Limits
import PosChain.Bridge.Outbound
import PosChain.Bridge.Signers
import PosChain.Bridge.Totality
import PosChain.Bridge.Traces
import PosChain.Erc20.Backing.Moves
import PosChain.Evm.ApplyTransaction.Authorizations
import PosChain.Evm.BlockHash
import PosChain.Evm.EstimateGas
import PosChain.Evm.Execution.Calls
import PosChain.Evm.Store.Branches
import PosChain.Evm.Store.Runs
import PosChain.FeeMarket.Restart
import PosChain.Incentives.Restart
import PosChain.Incentives.Snapshot
import PosChain.Incentives.YearlyCap
import PosChain.Mempool.HeightStore
import PosChain.Mempool.HeightSync.Theorems
import PosChain.Mempool.InsertQueue.Delivery
import PosChain.Rpc.LogFilter
import PosChain.Rpc.Stream.Queue
import PosChain.Rpc.TxIndices
