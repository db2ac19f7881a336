import LibCheck.Bytes
import LibCheck.Platform
import LibCheck.Pack
import LibCheck.Punpack
import LibCheck.Decode
import LibCheck.Stream
import LibCheck.Prog
import LibCheck.Cursor
import LibCheck.CkList
import LibCheck.List32
import LibCheck.Objects
import LibCheck.Msg
import LibCheck.Print
import LibCheck.Xml
import LibCheck.Log
import LibCheck.Fun
import LibCheck.Run
import LibCheck.XmlEscape
import LibCheck.XmlReading
import LibCheck.XmlFrame
import LibCheck.XmlParts
import LibCheck.Frame
import LibCheck.Lockstep
import LibCheck.Closed
import LibCheck.Guarded
import LibCheck.Counters
import LibCheck.Nested
import LibCheck.Select
import LibCheck.Plain
import LibCheck.Report
import LibCheck.Verdict
import LibCheck.Pending
import LibCheck.Events
import LibCheck.Statics
import LibCheck.Tap
import LibCheck.Attribution
import LibCheck.Logging
import LibCheck.Delivery
import LibCheck.Endings
import LibCheck.Reentry
import LibCheck.Interleave
import LibCheck.Senders
import LibCheck.Death
import LibCheck.Enclosing
import LibCheck.Brackets
import LibCheck.Pipes
import LibCheck.Signals
import LibCheck.Regex
import LibCheck.Awk
import LibCheck.Checkmk
import LibCheck.Directive
import LibCheck.Groups
import LibCheck.Plan
import LibCheck.Registry
import LibCheck.Output
import LibCheck.Harness
import LibCheck.Acceptance
import LibCheck.CLines
import LibCheck.CLiteral
import LibCheck.LineNumbers
import LibCheck.LinePlaces
import LibCheck.Receiver
import LibCheck.Duration
import LibCheck.Ownership
import LibCheck.TapReader
import LibCheck.XmlLog
import LibCheck.XmlReadBack
import LibCheck.Subunit
import LibCheck.Prefixes
import LibCheck.Calls
import LibCheck.Fixtures
import LibCheck.Queries
import LibCheck.Located
import LibCheck.Sessions
import LibCheck.ForkTree
import LibCheck.CheckFork
import LibCheck.Snprintf
import LibCheck.SnprintfText
import LibCheck.Format
import LibCheck.Numerals
import LibCheck.SnprintfInt
import LibCheck.StrPrintf
import LibCheck.Getline
import LibCheck.Script
import LibCheck.Isolation
import LibCheck.Outcomes
import LibCheck.Agreement
import LibCheck.Filtered
