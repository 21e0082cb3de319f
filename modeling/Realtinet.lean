import Realtinet.UdpConnectorStates
import Realtinet.UdpConnectionClock
import Realtinet.UdpConnectionInterest
import Realtinet.UdpConnectionUpDown
import Realtinet.UdpCodecConnection
import Realtinet.UdpServerLockout
import Realtinet.UdpServerDestruction
import Realtinet.UdpServerNames
import Realtinet.UdpClientNames
import Realtinet.UdpClientDestruction
import Realtinet.BoundedPrint
import Realtinet.SortedSet
import Realtinet.TimerQueue
import Realtinet.TimerQueueCustody
import Realtinet.TimerQueueCalls
import Realtinet.TimerQueueAlarm
import Realtinet.EventLoopFunctors
import Realtinet.EPollPoller
import Realtinet.PollPoller
import Realtinet.PollersAgree
import Realtinet.OneChannel
import Realtinet.BufferRuns
import Realtinet.HoleHeap
import Realtinet.TcpConnection
import Realtinet.TcpConnectionOutput
import Realtinet.TcpConnectionSends
import Realtinet.TcpLengthHeaderCodec
import Realtinet.UdpChatServer
import Realtinet.WinTimerQueue
import Realtinet.AnyValues
import Realtinet.UdpServerThreads
import Realtinet.UdpConnectorSockets
