import Discv5.Lib.Outcome
import Discv5.Lib.Bytes
import Discv5.Lib.Rlp
import Discv5.External
import Discv5.Packet.Basic
import Discv5.Packet.RoundTrip
import Discv5.Lib.Boundary
import Discv5.Kbucket.Bucket
import Discv5.Kbucket.BucketInvariant
import Discv5.Kbucket.Key
import Discv5.Kbucket.Table
import Discv5.Kbucket.Closest
import Discv5.Kbucket.TableInvariant
import Discv5.Kbucket.ClosestOrder
import Discv5.Rpc.Message
import Discv5.Rpc.RoundTrip
import Discv5.Lib.Primitives
import Discv5.Lib.ListMap
import Discv5.Lib.VecMap
import Discv5.NodeInfo
import Discv5.Handler.Crypto
import Discv5.Handler.Session
import Discv5.Handler.KeyAgreement
import Discv5.Handler.ActiveRequests
import Discv5.Handler.Basic
import Discv5.Socket.RateLimiter
import Discv5.Kbucket.Guard
import Discv5.Kbucket.Filter
import Discv5.Lib.SortedMap
import Discv5.QueryPool.Closest
import Discv5.QueryPool.Predicate
import Discv5.QueryPool.Invariant
import Discv5.QueryPool.Refinement
import Discv5.Rpc.Canonical
import Discv5.Lib.Chunking
import Discv5.Kbucket.TableNodes
import Discv5.Service.Nodes
import Discv5.Service.Findnode
import Discv5.Service.PacketSize
import Discv5.Service.RpcResponse
import Discv5.Service.Admission
import Discv5.Service.AdmissionRun
import Discv5.Kbucket.Placement
import Discv5.Kbucket.Pending
import Discv5.Handler.Decryption
import Discv5.QueryPool.Progress
import Discv5.Packet.Decode
import Discv5.LruTimeCache
import Discv5.Service.IpVote
import Discv5.Handler.Bookkeeping
import Discv5.Lib.Window
import Discv5.QueryPool.Pool
import Discv5.Socket.PacketCache
import Discv5.Service.Connectivity
import Discv5.Lib.Gcra
import Discv5.Socket.RateBound
