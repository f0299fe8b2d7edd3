import RemoteDeviceConsole.Server.Reference
import RemoteDeviceConsole.Server.PeerFaults
import RemoteDeviceConsole.Server.Roles
import RemoteDeviceConsole.Server.AckAccounting
import RemoteDeviceConsole.Server.Conservation
import RemoteDeviceConsole.Viewer.NetworkWorker
import RemoteDeviceConsole.Viewer.Delivery
import RemoteDeviceConsole.Viewer.MetricsAuthenticity
import RemoteDeviceConsole.Loadgen.Client
import RemoteDeviceConsole.Loadgen.Connect
import RemoteDeviceConsole.Loadgen.MainLoop
import RemoteDeviceConsole.Loadgen.Balance
import RemoteDeviceConsole.Loadgen.StopAndWait
import RemoteDeviceConsole.Protocol.StatusGrammar
import RemoteDeviceConsole.Simulator.Main
import RemoteDeviceConsole.Server.PayloadJson
import RemoteDeviceConsole.Server.Interleavings
import RemoteDeviceConsole.Loadgen.ConnectOutcome
import RemoteDeviceConsole.Loadgen.Sequences
import RemoteDeviceConsole.Loadgen.SocketFaults
import RemoteDeviceConsole.Viewer.DeviceViews
import RemoteDeviceConsole.Server.MqttTopic
import RemoteDeviceConsole.Server.AckDecoding
import RemoteDeviceConsole.Protocol.FieldOrder
import RemoteDeviceConsole.Server.Reporting
import RemoteDeviceConsole.Loadgen.Credit
import RemoteDeviceConsole.Loadgen.Rotation
import RemoteDeviceConsole.Loadgen.Percentile
import RemoteDeviceConsole.Viewer.AutoFit
import RemoteDeviceConsole.Viewer.MetricsChart
import RemoteDeviceConsole.Viewer.Console
import RemoteDeviceConsole.Viewer.Consistency
import RemoteDeviceConsole.Viewer.TableAges
import RemoteDeviceConsole.Viewer.MapPainting
import RemoteDeviceConsole.Loadgen.StoreFreshness
import RemoteDeviceConsole.Viewer.ViewFreshness
import RemoteDeviceConsole.Server.Process
import RemoteDeviceConsole.Loadgen.ExitCode
import RemoteDeviceConsole.Server.MqttMirror
import RemoteDeviceConsole.Simulator.Process
