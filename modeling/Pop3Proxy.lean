import Pop3Proxy.Basic
import Pop3Proxy.Library.Scan
import Pop3Proxy.Library.EventSystem
import Pop3Proxy.Library.DotStuffing
import Pop3Proxy.ParserFactory
import Pop3Proxy.CommandParser
import Pop3Proxy.ResponseParsers
import Pop3Proxy.Buffer
import Pop3Proxy.Selector
import Pop3Proxy.Stm
import Pop3Proxy.Pop3
import Pop3Proxy.ClientNio
import Pop3Proxy.Proxy
import Pop3Proxy.Wires
import Pop3Proxy.Control
import Pop3Proxy.Suscription
import Pop3Proxy.Connection
import Pop3Proxy.Accept
import Pop3Proxy.WorldInvariant
import Pop3Proxy.ProxyInvariant
import Pop3Proxy.Runs
import Pop3Proxy.Data
import Pop3Proxy.Safety
import Pop3Proxy.Stranding
import Pop3Proxy.Session
import Pop3Proxy.Dialogue
import Pop3Proxy.Linked
import Pop3Proxy.Stages
import Pop3Proxy.Simulation
import Pop3Proxy.Filter.Pop3Multi
import Pop3Proxy.Lifetime
import Pop3Proxy.HandOff
import Pop3Proxy.Descriptors
import Pop3Proxy.Holdings
import Pop3Proxy.Library.Tape
import Pop3Proxy.Filter.Strcmpi
import Pop3Proxy.Filter.MimeMsg
import Pop3Proxy.Filter.ContentType
import Pop3Proxy.Filter.MediaTypes
import Pop3Proxy.Filter.StripMime
import Pop3Proxy.Library.Divergence
import Pop3Proxy.Library.Visits
import Pop3Proxy.Filter.Matching
import Pop3Proxy.Filter.Transparency
import Pop3Proxy.Filter.Mail
import Pop3Proxy.Filter.Chunks
import Pop3Proxy.Filter.Cursor
import Pop3Proxy.Filter.Bounds
import Pop3Proxy.Filter.Restart
import Pop3Proxy.Library.Traced
import Pop3Proxy.Admin.SpeedwagonDecoder
import Pop3Proxy.Admin.AdminNio
import Pop3Proxy.Admin.Confined
import Pop3Proxy.Admin.AdminClient
import Pop3Proxy.Admin.Ban
import Pop3Proxy.BufferQueue
import Pop3Proxy.SelectorTable
import Pop3Proxy.Library.Pattern
import Pop3Proxy.ReplyEnds
import Pop3Proxy.CommandLines
import Pop3Proxy.Filter.Tokens
import Pop3Proxy.Filter.Fields
import Pop3Proxy.Filter.Boundary
import Pop3Proxy.Filter.BoundaryParameter
import Pop3Proxy.StmBrackets
import Pop3Proxy.Admin.Joined
import Pop3Proxy.Pool
import Pop3Proxy.SelectorIndices
import Pop3Proxy.SelectorGrowth
import Pop3Proxy.Filter.Matchers
import Pop3Proxy.Filter.MatcherTables
import Pop3Proxy.Filter.BoundaryStrings
import Pop3Proxy.Filter.HeaderNames
import Pop3Proxy.Filter.Configured
import Pop3Proxy.Filter.Decision
import Pop3Proxy.Filter.ValueText
import Pop3Proxy.Filter.FieldRuns
import Pop3Proxy.Filter.TypeRuns
import Pop3Proxy.Filter.TypeField
import Pop3Proxy.Filter.Retyping
import Pop3Proxy.Filter.PartHeader
import Pop3Proxy.Filter.Awaiting
import Pop3Proxy.Filter.SilentBody
import Pop3Proxy.Filter.HeaderText
import Pop3Proxy.Filter.PartRead
import Pop3Proxy.Filter.Censoring
import Pop3Proxy.Codec
import Pop3Proxy.SessionParser
import Pop3Proxy.Exchange
import Pop3Proxy.Framing
import Pop3Proxy.Relaying
import Pop3Proxy.Pipelining
import Pop3Proxy.FilterInput
import Pop3Proxy.FilterOutput
import Pop3Proxy.Segmentation
import Pop3Proxy.Library.Parallel
import Pop3Proxy.Alone
import Pop3Proxy.Isolation
import Pop3Proxy.Dispatch
import Pop3Proxy.Postings
import Pop3Proxy.Passage
import Pop3Proxy.Pace
import Pop3Proxy.Filter.Environment
import Pop3Proxy.Admin.Requests
import Pop3Proxy.Admin.Sessions
import Pop3Proxy.Admin.Banned
import Pop3Proxy.Library.Chain
import Pop3Proxy.Library.Calls
import Pop3Proxy.Filter.ListNodes
import Pop3Proxy.Filter.StackNodes
import Pop3Proxy.RunSocket
import Pop3Proxy.Arguments
