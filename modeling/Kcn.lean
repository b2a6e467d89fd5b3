import Kcn.Library.Program
import Kcn.Library.Bytes
import Kcn.Library.Run
import Kcn.Library.Framing
import Kcn.Kernel
import Kcn.Buf
import Kcn.BufRules
import Kcn.Eq
import Kcn.File
import Kcn.FileRules
import Kcn.Window
import Kcn.Msg
import Kcn.Db
import Kcn.Frame
import Kcn.Stops
import Kcn.Locator
import Kcn.Chain
import Kcn.Link
import Kcn.Index
import Kcn.LocAdd
import Kcn.Answered
import Kcn.LocRuns
import Kcn.Record
import Kcn.Scan
import Kcn.Table
import Kcn.Calls
import Kcn.Locks
import Kcn.TableFile
import Kcn.Opening
import Kcn.Steps
import Kcn.Codec
import Kcn.Frames
import Kcn.Server
import Kcn.Serving
import Kcn.Delivery
import Kcn.Net
import Kcn.Connection
import Kcn.Lifetime
import Kcn.Session
import Kcn.Client
import Kcn.Receiving
import Kcn.Results
import Kcn.Search
import Kcn.Str
import Kcn.Bulk
import Kcn.Fields
import Kcn.Load
import Kcn.Numeral
import Kcn.Parse
import Kcn.Adding
import Kcn.Library.Words
import Kcn.Keyword
import Kcn.Netstat
import Kcn.Routing
import Kcn.Uri
import Kcn.Google
import Kcn.Paging
import Kcn.Service
import Kcn.Robust
import Kcn.Finding
import Kcn.Concurrent
import Kcn.Splitting
import Kcn.Rounds
import Kcn.Validation
import Kcn.Parameters
import Kcn.Library.Ranking
import Kcn.Registry
import Kcn.Info
import Kcn.Query
import Kcn.CString
import Kcn.Joining
import Kcn.Token
import Kcn.RawBuf
import Kcn.Library.Cursor
import Kcn.BufRuns
import Kcn.Remaining
import Kcn.RecordLog
import Kcn.Capacity
import Kcn.Heap
import Kcn.Storing
import Kcn.Cached
import Kcn.Apart
import Kcn.Overflow
import Kcn.Store
import Kcn.Durable
import Kcn.Answers
import Kcn.Asking
import Kcn.Counting
import Kcn.Messages
import Kcn.Library.Descriptors
import Kcn.Socket
import Kcn.Worker
import Kcn.Connecting
import Kcn.Loading
import Kcn.Http
