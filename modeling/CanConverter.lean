import CanConverter.Lib.Run
import CanConverter.Lib.Fifo
import CanConverter.Lib.Latest
import CanConverter.Lib.Roll
import CanConverter.Master.Proto
import CanConverter.Master.Store
import CanConverter.Frames.Candef
import CanConverter.Frames.Send
import CanConverter.Periodic.Loop
import CanConverter.Periodic.Schedule
import CanConverter.Tx.Thread
import CanConverter.Tx.Attribution
import CanConverter.System.Step
import CanConverter.System.Broadcast
import CanConverter.System.Faults
import CanConverter.System.Valid
import CanConverter.System.Silence
import CanConverter.System.Backlog
import CanConverter.Lib.Cobs
import CanConverter.Rs485.Encode
import CanConverter.Rs485.Stream
import CanConverter.Lib.Crc32
import CanConverter.Dfu.Host
import CanConverter.Dfu.Image
import CanConverter.Lib.Server
import CanConverter.Dfu.Session
import CanConverter.Lib.History
import CanConverter.Bus.Recovery
import CanConverter.Bus.StatusLed
import CanConverter.Lib.Conveyor
import CanConverter.System.Flow
import CanConverter.Frames.Counts
import CanConverter.Dfu.Window
import CanConverter.Dfu.Failure
import CanConverter.Lib.Slice
import CanConverter.Elf.Patch
import CanConverter.Lib.Split
import CanConverter.Frames.Split
import CanConverter.Lib.Meter
import CanConverter.System.Stats
import CanConverter.System.Partition
import CanConverter.System.Window
import CanConverter.Lib.Chop
import CanConverter.Rs485.Overhead
import CanConverter.Elf.Rerun
import CanConverter.Lib.Poll
import CanConverter.Monitor.Decode
import CanConverter.Monitor.Listen
import CanConverter.Lib.Lock
import CanConverter.Master.Locked
import CanConverter.Lib.Wait
import CanConverter.System.Latency
import CanConverter.Tx.Accounting
import CanConverter.System.Provenance
import CanConverter.Lib.Settle
import CanConverter.System.Settle
import CanConverter.Bus.ActivityLeds
import CanConverter.Bus.Attempts
import CanConverter.System.Freshness
import CanConverter.Dfu.Receive
import CanConverter.Lib.Race
import CanConverter.System.Race
import CanConverter.Elf.Build
import CanConverter.Lib.Deadline
import CanConverter.Rs485.Automated
import CanConverter.Monitor.Summary
import CanConverter.Dfu.Completion
import CanConverter.Rs485.Damage
import CanConverter.Frames.Inputs
import CanConverter.System.Damage
