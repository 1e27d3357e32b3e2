import HermezNode.Go.Runtime
import HermezNode.Common.Bytes
import HermezNode.Common.Types
import HermezNode.Common.PoolL2Tx
import HermezNode.Common.Compressed
import HermezNode.Common.Signature
import HermezNode.Graph.StrongComponents
import HermezNode.Api.TxsPool
import HermezNode.TxSelector.Filter
import HermezNode.TxSelector.Sort
import HermezNode.TxSelector.Admitted
import HermezNode.TxSelector.Pipeline
import HermezNode.TxSelector.Fees
import HermezNode.TxSelector.Selection
import HermezNode.TxSelector.Returned
import HermezNode.TxSelector.Runtime
