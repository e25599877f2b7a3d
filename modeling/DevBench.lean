import DevBench.Core.Reader
import DevBench.Core.Reads
import DevBench.Core.Arrays
import DevBench.Eap.Types
import DevBench.Wire.Message
import DevBench.Core.Leb128
import DevBench.Wire.Varint
import DevBench.Wire.Decode
import DevBench.Wire.Safety
import DevBench.Wire.Grammar
import DevBench.Wire.Walk
import DevBench.Wire.StudyStart
import DevBench.Core.Spelling
import DevBench.Core.Stuffing
import DevBench.Wire.Canonical
import DevBench.Wire.Cobs
import DevBench.Core.Emit
import DevBench.Wire.Encode
import DevBench.Wire.RoundTrip
import DevBench.Core.Trace
import DevBench.Eap.Interp
import DevBench.Eap.Subscripts
import DevBench.Bench.ProtocolStep
import DevBench.Bench.Bridge
import DevBench.Bench.Taps
import DevBench.Bench.Dispatch
import DevBench.Bench.Gate
import DevBench.Core.Delimited
import DevBench.Link.Receive
import DevBench.Bridge.ClockedLoop
import DevBench.Core.Machine
import DevBench.Bridge.Deadlines
import DevBench.Bench.TapCalls
import DevBench.Wire.Transcript
import DevBench.Bench.Capture
import DevBench.Bench.Ledger
import DevBench.Bench.WireOrder
import DevBench.Bench.TapWindows
import DevBench.Wire.Sizes
import DevBench.Bench.StepResults
import DevBench.Link.Capacity
import DevBench.Core.Crc
import DevBench.Wire.Crc32
import DevBench.Wire.Seals
import DevBench.Wire.Exact
import DevBench.Core.Program
import DevBench.Bridge.Census
import DevBench.Bridge.State
import DevBench.Bridge.Callbacks
import DevBench.Bridge.Connect
import DevBench.Bridge.Discover
import DevBench.Bridge.Exchange
import DevBench.Bridge.Monitor
import DevBench.Bridge.ProtocolRun
import DevBench.Bridge.Execute
import DevBench.Bridge.Events
import DevBench.Bridge.Tables
import DevBench.Bridge.Frames
import DevBench.Bridge.Stable
import DevBench.Bridge.Subscriptions
import DevBench.Bridge.Labels
import DevBench.Bridge.LiveCalls
import DevBench.Bridge.LiveRuns
import DevBench.Bridge.Filters
import DevBench.Core.PrefixCode
import DevBench.Wire.Entries
import DevBench.Wire.Streams
import DevBench.Eap.Verdicts
import DevBench.Core.Ring
import DevBench.Log.Backlog
import DevBench.Log.Conservation
import DevBench.Core.BitField
import DevBench.Core.Buffers
import DevBench.Core.Logged
import DevBench.Pd.Objects
import DevBench.Pd.Shell
import DevBench.Pd.Bench
import DevBench.Pd.System
import DevBench.Pd.Frame
import DevBench.Pd.Source
import DevBench.Pd.Sink
import DevBench.Pd.Keepalive
import DevBench.Pd.Swaps
import DevBench.Pd.PowerPath
import DevBench.Pd.PowerSafety
import DevBench.Core.Counter
import DevBench.Bridge.Advertisers
import DevBench.Bridge.Responses
import DevBench.Bridge.Selective
import DevBench.Eap.Entries
import DevBench.Eap.Residence
import DevBench.Eap.Pump
import DevBench.Eap.Truncation
import DevBench.Wire.Buffers
import DevBench.Log.Levels
import DevBench.Log.Lines
import DevBench.Bench.Walks
import DevBench.Link.Overruns
import DevBench.Bridge.Names
import DevBench.Bridge.Report
import DevBench.Pd.Credit
import DevBench.Pd.Ask
import DevBench.Pd.Refusals
import DevBench.Core.Places
import DevBench.Eap.Codec
import DevBench.Bridge.FlatIndex
import DevBench.Core.Flowchart
import DevBench.Eap.Language
import DevBench.Eap.Outlines
import DevBench.Eap.Silence
import DevBench.Link.Arrival
import DevBench.Link.Writers
import DevBench.Bridge.Verdict
import DevBench.Core.Lockstep
import DevBench.Bridge.Alike
import DevBench.Bridge.Settled
import DevBench.Bridge.SettledRuns
import DevBench.Bridge.HardReset
import DevBench.Bridge.WholeBench
import DevBench.Bridge.Scratch
import DevBench.Core.Rounds
import DevBench.Bridge.ProtocolRounds
import DevBench.Bridge.LoopRefinement
import DevBench.Bridge.Progress
import DevBench.Pd.Answers
import DevBench.Bridge.Survey
