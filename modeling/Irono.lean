import Irono.Lib.Mailbox
import Irono.Base.Correctness.LogStop
import Irono.Base.Correctness.LogOnFile
import Irono.Base.Correctness.ThreadStart
import Irono.Net.Correctness.BufferShrink
import Irono.Net.Correctness.PollerRegistry
import Irono.Net.Correctness.PollerIndex
import Irono.Net.Correctness.PollResults
import Irono.Net.Correctness.AcceptedSockets
import Irono.Net.Correctness.FunctorOrder
import Irono.Net.Correctness.Wakeup
import Irono.Net.Correctness.TimerCancel
import Irono.Net.Correctness.TimerFd
import Irono.Net.Correctness.TimerArmed
import Irono.Net.Correctness.TimerSpacing
import Irono.Net.Correctness.CloseCallback
import Irono.Net.Correctness.HalfClose
import Irono.Net.Correctness.Quit
import Irono.Net.Correctness.ConnectorAsserts
import Irono.Net.Correctness.RawThis
import Irono.Net.Correctness.ObjectsSound
import Irono.Net.Correctness.WatchedChannels
import Irono.Net.Correctness.Multiplexers
import Irono.Base.Correctness.PoolBacklog
import Irono.Net.Correctness.AddTimerRead
import Irono.Net.Correctness.ShutdownKept
import Irono.Net.Correctness.DeadChannels
import Irono.Net.Correctness.QuitDrain
import Irono.Net.Correctness.StartOnce
import Irono.Net.Correctness.Disconnect
import Irono.Base.Correctness.LogNumerals
import Irono.Base.Correctness.LogItems
import Irono.Base.Correctness.LogSuffix
import Irono.Base.Correctness.LogSpareBuffers
import Irono.Example.Correctness.Framing
import Irono.Example.Correctness.TimingWheel
import Irono.Example.Correctness.ChatInput
import Irono.Example.Correctness.CopyOnWrite
import Irono.Example.Correctness.PingPong
