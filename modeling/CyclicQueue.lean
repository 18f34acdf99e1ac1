import CyclicQueue.ByteRing.Basic
import CyclicQueue.ByteRing.Call
import CyclicQueue.ByteRing.Codec
import CyclicQueue.ByteRing.Compare
import CyclicQueue.ByteRing.Contents
import CyclicQueue.ByteRing.Export
import CyclicQueue.ByteRing.Framing
import CyclicQueue.ByteRing.Guarded.Basic
import CyclicQueue.ByteRing.Guarded.Look
import CyclicQueue.ByteRing.Guarded.Session
import CyclicQueue.ByteRing.Json
import CyclicQueue.ByteRing.Search
import CyclicQueue.ByteRing.Session
import CyclicQueue.ByteRing.Stream
import CyclicQueue.ByteRing.Tally
import CyclicQueue.ByteRing.Text
import CyclicQueue.ByteRing.Transfer
import CyclicQueue.ByteRing.Turn
import CyclicQueue.ByteRing.Update
import CyclicQueue.ByteRing.Walk
import CyclicQueue.Bytes.Occurrence
import CyclicQueue.Cursor
import CyclicQueue.Decimal.Shortest
import CyclicQueue.Decimal.Style
import CyclicQueue.Deque
import CyclicQueue.Fault
import CyclicQueue.Fifo
import CyclicQueue.Json.Numeral
import CyclicQueue.Json.ReadFault
import CyclicQueue.Json.Record
import CyclicQueue.Json.Scan
import CyclicQueue.Json.Skip
import CyclicQueue.Json.Value
import CyclicQueue.Machine
import CyclicQueue.Memory
import CyclicQueue.Mirror
import CyclicQueue.Proofs.ByteRing.Building
import CyclicQueue.Proofs.ByteRing.Bulk
import CyclicQueue.Proofs.ByteRing.Changes
import CyclicQueue.Proofs.ByteRing.Characters
import CyclicQueue.Proofs.ByteRing.Conservation
import CyclicQueue.Proofs.ByteRing.Copying
import CyclicQueue.Proofs.ByteRing.Counting
import CyclicQueue.Proofs.ByteRing.Cursors
import CyclicQueue.Proofs.ByteRing.Digits
import CyclicQueue.Proofs.ByteRing.Equality
import CyclicQueue.Proofs.ByteRing.Framing
import CyclicQueue.Proofs.ByteRing.Guarded.Basic
import CyclicQueue.Proofs.ByteRing.Guarded.Look
import CyclicQueue.Proofs.ByteRing.Guarded.Session
import CyclicQueue.Proofs.ByteRing.Guarded.Stream
import CyclicQueue.Proofs.ByteRing.Indistinguishable
import CyclicQueue.Proofs.ByteRing.JsonRoundTrip
import CyclicQueue.Proofs.ByteRing.Layout
import CyclicQueue.Proofs.ByteRing.Looking
import CyclicQueue.Proofs.ByteRing.Loops
import CyclicQueue.Proofs.ByteRing.Ranges
import CyclicQueue.Proofs.ByteRing.Reachable
import CyclicQueue.Proofs.ByteRing.Refinement
import CyclicQueue.Proofs.ByteRing.Rendering
import CyclicQueue.Proofs.ByteRing.Searching
import CyclicQueue.Proofs.ByteRing.Sessions
import CyclicQueue.Proofs.ByteRing.Streaming
import CyclicQueue.Proofs.ByteRing.Transitions
import CyclicQueue.Proofs.ByteRing.TwoEnds
import CyclicQueue.Proofs.ByteRing.Walking
import CyclicQueue.Proofs.ByteRing.Writing
import CyclicQueue.Proofs.Bytes.Splitting
import CyclicQueue.Proofs.Deque
import CyclicQueue.Proofs.Json.Reading
import CyclicQueue.Proofs.Mirroring
import CyclicQueue.Proofs.Refusal
import CyclicQueue.Proofs.SlotTracker.Cursors
import CyclicQueue.Proofs.SlotTracker.Guarded
import CyclicQueue.Proofs.SlotTracker.Limit
import CyclicQueue.Proofs.SlotTracker.Moves
import CyclicQueue.Proofs.SlotTracker.Observing
import CyclicQueue.Proofs.SlotTracker.Placement
import CyclicQueue.Proofs.SlotTracker.Undoing
import CyclicQueue.Proofs.SlotTracker.WordLaws
import CyclicQueue.Proofs.SlotTracker.WordMoves
import CyclicQueue.Proofs.SlotTracker.Words
import CyclicQueue.Proofs.Trial
import CyclicQueue.Registers
import CyclicQueue.SlotTracker.Basic
import CyclicQueue.SlotTracker.Guarded
import CyclicQueue.SlotTracker.Json
import CyclicQueue.SlotTracker.Options
import CyclicQueue.SlotTracker.Session
import CyclicQueue.SlotTracker.Sight
import CyclicQueue.SlotTracker.Text
import CyclicQueue.SlotTracker.WordSession
import CyclicQueue.SlotTracker.Words
import CyclicQueue.Text.Escape
import CyclicQueue.Text.Grapheme
import CyclicQueue.Text.Hex
import CyclicQueue.Text.Latin1
import CyclicQueue.Text.Layout
import CyclicQueue.Text.Printable
import CyclicQueue.Text.Utf8
import CyclicQueue.Trial.Action
import CyclicQueue.Trial.Decode
import CyclicQueue.Trial.Run
