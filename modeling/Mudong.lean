import Mudong.AddOneServer.Survival
import Mudong.Buffer.Bounds
import Mudong.Buffer.Lines
import Mudong.Buffer.Queue
import Mudong.Buffer.Scatter
import Mudong.Buffer.SizeT
import Mudong.Buffer.Typed
import Mudong.CountDownLatch
import Mudong.EchoServer.Backpressure
import Mudong.EchoServer.Expiry
import Mudong.EchoServer.Forgotten
import Mudong.EPollPoller.Batch
import Mudong.EPollPoller.Fairness
import Mudong.EventLoop.Start
import Mudong.EventLoop.Tasks
import Mudong.EventLoopThread.Destructor
import Mudong.InetAddress.RoundTrip
import Mudong.TcpClient.Attempts
import Mudong.TcpClient.Current
import Mudong.TcpClient.Descriptors
import Mudong.TcpClient.Destroyed
import Mudong.TcpClient.Errors
import Mudong.TcpConnection.Closed
import Mudong.TcpConnection.Dispatch
import Mudong.TcpConnection.HalfClose
import Mudong.TcpConnection.HighWater
import Mudong.TcpConnection.Link
import Mudong.TcpConnection.Shutdown
import Mudong.TcpConnection.StopRead
import Mudong.TcpConnection.WriteInterest
import Mudong.TcpServer.Destructor
import Mudong.TcpServerSingle.Accept
import Mudong.TcpServerSingle.Batch
import Mudong.TcpServerSingle.Deaths
import Mudong.TcpServerSingle.Outlived
import Mudong.ThreadPool.Conservation
import Mudong.ThreadPool.Stranded
import Mudong.TimerQueue.Destructor
import Mudong.TimerQueue.Dispatch
