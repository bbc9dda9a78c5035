import PeerNode.Lib.Json
import PeerNode.Lib.JsonRoundTrip
import PeerNode.Lib.Machine
import PeerNode.Lib.PopLoop
import PeerNode.Counters
import PeerNode.Sniper
import PeerNode.Request
import PeerNode.Rapidjson.Writer
import PeerNode.Config
import PeerNode.Message
import PeerNode.Worker
import PeerNode.Lib.Custody
import PeerNode.Moves
import PeerNode.Ledger
import PeerNode.OutQueue
import PeerNode.Limit
import PeerNode.Retries
import PeerNode.Provenance
import PeerNode.Replies
import PeerNode.Process
import PeerNode.Statistics
import PeerNode.QueueSize
import PeerNode.Classification
import PeerNode.HexPrefix
import PeerNode.DryRun
import PeerNode.Reports
import PeerNode.Network
import PeerNode.Lib.Decimal
import PeerNode.Rapidjson.Itoa
import PeerNode.StatsReport
import PeerNode.QueueFigure
import PeerNode.Startup
import PeerNode.Lifecycle
import PeerNode.Shutdown
import PeerNode.Launched
import PeerNode.Rapidjson.Value
import PeerNode.Rapidjson.Reader
import PeerNode.Rapidjson.Document
import PeerNode.Rapidjson.Syntax
import PeerNode.Rapidjson.Lexical
import PeerNode.Rapidjson.NumberText
import PeerNode.Rapidjson.NumberValue
import PeerNode.Rapidjson.Grammar
import PeerNode.Rapidjson.RoundTrip
import PeerNode.ReadBack
import PeerNode.Exchange
