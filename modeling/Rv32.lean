import Rv32.Correctness.Alu
import Rv32.Correctness.BreakpointSet
import Rv32.Correctness.Breakpoints
import Rv32.Correctness.ChecksumGate
import Rv32.Correctness.Constants
import Rv32.Correctness.Continue
import Rv32.Correctness.ContinueProgress
import Rv32.Correctness.CsrCells
import Rv32.Correctness.DebuggerBounds
import Rv32.Correctness.Decoder
import Rv32.Correctness.EnabledIrq
import Rv32.Correctness.EscapeRoundTrip
import Rv32.Correctness.EvenPc
import Rv32.Correctness.Frozen
import Rv32.Correctness.HonestReply
import Rv32.Correctness.IrqHistory
import Rv32.Correctness.Jumps
import Rv32.Correctness.LittleEndian
import Rv32.Correctness.MainMemory
import Rv32.Correctness.MemoryReads
import Rv32.Correctness.MemoryRoundTrip
import Rv32.Correctness.MulDiv
import Rv32.Correctness.NoNesting
import Rv32.Correctness.PacketBuilder
import Rv32.Correctness.PendingIrq
import Rv32.Correctness.PreciseFault
import Rv32.Correctness.RegisterRoundTrip
import Rv32.Correctness.ReplyDiscipline
import Rv32.Correctness.Reset
import Rv32.Correctness.Retransmission
import Rv32.Correctness.SameMeaning
import Rv32.Correctness.Session
import Rv32.Correctness.Simultaneous
import Rv32.Correctness.SpecificRegister
import Rv32.Correctness.StepFrame
import Rv32.Correctness.StopReplies
import Rv32.Correctness.StrayAccess
import Rv32.Correctness.System
import Rv32.Correctness.Terminal
import Rv32.Correctness.Transparency
import Rv32.Correctness.ZeroHidden
import Rv32.Correctness.ZeroObservable
import Rv32.Guest.Hello
import Rv32.Correctness.Preemption
