import ModGate.Database.Ranges
import ModGate.Gatedb.Lint
import ModGate.Gatedb.Correctness
import ModGate.Gatedb.Frame
import ModGate.Gatedb.Failure
import ModGate.Request.Resolution
import ModGate.Request.Lookup
import ModGate.Request.Declined
import ModGate.Tools.IndexRb
import ModGate.Tools.Pipeline
import ModGate.Concurrency.Serializability
import ModGate.Url.Query
import ModGate.Body.Protocol
import ModGate.Body.Delivery
import ModGate.Ruby.Rowset
import ModGate.Ruby.Connection
import ModGate.Body.Lines
import ModGate.Request.Precedence
import ModGate.Url.Decoder
import ModGate.Url.Encoder
import ModGate.Config.Merge
import ModGate.Tools.Offenders
import ModGate.Gatedb.Cmdline
import ModGate.Body.Indexing
import ModGate.Ruby.Binding
import ModGate.Ruby.Loading
import ModGate.Util.Replace
import ModGate.Sqlite.Query
import ModGate.Apr.Iterator
import ModGate.Apr.Rmdir
import ModGate.Apr.Traversal
import ModGate.Ruby.Backtrace
import ModGate.Containers.Cycles
import ModGate.Gatedb.Permute
import ModGate.Gatedb.Permutation
import ModGate.Concurrency.Writers
import ModGate.Gatedb.Interpretation
import ModGate.Ruby.DebugInfo
import ModGate.Ruby.Statements
import ModGate.Concurrency.Deployment
import ModGate.Body.Forms
import ModGate.Ruby.Execution
import ModGate.Apr.Pruning
import ModGate.Body.Shares
import ModGate.Ruby.TraceText
import ModGate.Url.Reencoding
import ModGate.Gatedb.Leftover
import ModGate.Gatedb.Agreement
