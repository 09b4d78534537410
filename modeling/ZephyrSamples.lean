import ZephyrSamples.Lib.Runs
import ZephyrSamples.Lib.Mailbox
import ZephyrSamples.Lib.Segments
import ZephyrSamples.Lib.Binary32
import ZephyrSamples.Lib.Ramp
import ZephyrSamples.Lib.Descent
import ZephyrSamples.Lighting.RangeBinding
import ZephyrSamples.Lighting.Temperature
import ZephyrSamples.Lighting.Convergence
import ZephyrSamples.Lighting.Move
import ZephyrSamples.Lighting.Transactions
import ZephyrSamples.Lighting.DeltaTarget
import ZephyrSamples.Lighting.DeltaTransactions
import ZephyrSamples.Lighting.RemainingTime
import ZephyrSamples.Lighting.SaveRequests
import ZephyrSamples.Lighting.Settings
import ZephyrSamples.WpanSerial.Delivery
import ZephyrSamples.WpanSerial.RoundTrip
import ZephyrSamples.WpanSerial.Commands
import ZephyrSamples.HciUart.Reassembly
import ZephyrSamples.HciTransports.Receive
import ZephyrSamples.Lib.SlotTable
import ZephyrSamples.Zperf.Pacing
import ZephyrSamples.Zperf.Peers
import ZephyrSamples.Zperf.Accounting
import ZephyrSamples.Zperf.TcpReceiver
import ZephyrSamples.Zperf.StatPacket
import ZephyrSamples.Zperf.ShellUtils
import ZephyrSamples.CoapServer.Ownership
import ZephyrSamples.CoapServer.Retransmission
import ZephyrSamples.CoapServer.BlockUpload
import ZephyrSamples.CoapServer.Reset
import ZephyrSamples.Lib.Rotor
import ZephyrSamples.SharedMem.Messages
import ZephyrSamples.SharedMem.Protocol
import ZephyrSamples.Lib.PaddedRows
import ZephyrSamples.ShellModule.NameSet
import ZephyrSamples.Lib.Duplex
import ZephyrSamples.Pong.Rally
import ZephyrSamples.Philosophers.Dining
import ZephyrSamples.Pong.Ble
import ZephyrSamples.Pong.Advertisement
import ZephyrSamples.Protect.Discovery
import ZephyrSamples.Protect.AdFilter
import ZephyrSamples.Protect.Flags
import ZephyrSamples.HidCdc.CommandInput
import ZephyrSamples.HidCdc.EventPool
import ZephyrSamples.AudioCrb.Tuning
import ZephyrSamples.AudioCrb.Buffers
import ZephyrSamples.AudioCrb.StartStop
import ZephyrSamples.MqttAzure.Connection
import ZephyrSamples.MqttPublisher.Connection
import ZephyrSamples.Lib.Observation
import ZephyrSamples.Eddystone.LockPolicy
import ZephyrSamples.Eddystone.Advertising
import ZephyrSamples.EchoClient.KeepRunning
import ZephyrSamples.OpenampRscTable.Responder
import ZephyrSamples.Openamp.PingPong
import ZephyrSamples.Webusb.Echo
import ZephyrSamples.CdcAcmComposite.Bridge
import ZephyrSamples.Sockets.HandlerSlots
import ZephyrSamples.EchoServer.HandleData
import ZephyrSamples.EchoServer.Shutdown
import ZephyrSamples.EchoClient.TcpVerify
import ZephyrSamples.EchoClient.Rounds
import ZephyrSamples.Lib.Worklist
import ZephyrSamples.EchoAsync.Equivalence
import ZephyrSamples.MetairqDispatch.Statistics
import ZephyrSamples.ProdConsumer.Pipeline
import ZephyrSamples.Lib.Polyline
import ZephyrSamples.Battery.Level
import ZephyrSamples.MeshBadge.Button
import ZephyrSamples.MeshBadge.Heard
import ZephyrSamples.MeshBadge.Network
import ZephyrSamples.MeshBadge.Statistics
import ZephyrSamples.Lib.TopList
import ZephyrSamples.MeshBadge.TopSenders
import ZephyrSamples.MeshBadge.WordWrap
import ZephyrSamples.HidCdc.Typing
import ZephyrSamples.HidCdc.Reports
import ZephyrSamples.OnoffApp.Button
import ZephyrSamples.HttpServers.HeaderEnd
import ZephyrSamples.HttpServers.RequestEnd
import ZephyrSamples.CloudMqtt.PublishPayload
import ZephyrSamples.WebsocketClient.Receive
import ZephyrSamples.Peci.Temperature
import ZephyrSamples.MetairqDispatch.CalcStats
import ZephyrSamples.CanOpen.MainLoop
import ZephyrSamples.HidMouse.Reports
import ZephyrSamples.VendorAttr.Store
import ZephyrSamples.Eddystone.ReadBack
import ZephyrSamples.PeripheralCsc.Measurement
import ZephyrSamples.AudioCrb.Reply
import ZephyrSamples.I2sSample.Playback
import ZephyrSamples.Wpanusb.Requests
import ZephyrSamples.Wpanusb.Device
import ZephyrSamples.DevicePm.Usage
import ZephyrSamples.LcdHd44780.Shadow
import ZephyrSamples.EchoClient.UdpExchange
import ZephyrSamples.EchoClient.TcpExchange
import ZephyrSamples.Lib.MixedRadix
import ZephyrSamples.MeshDemo.Tune
import ZephyrSamples.SmpPi.Spigot
import ZephyrSamples.Ps2.Flow
import ZephyrSamples.SettingsSample.DirectLoad
import ZephyrSamples.FlashShell.Protection
import ZephyrSamples.FlashShell.Results
import ZephyrSamples.GenericOnoff.Publication
import ZephyrSamples.GenericOnoff.Retransmission
import ZephyrSamples.Lib.HandleLog
import ZephyrSamples.Zperf.UploadContexts
import ZephyrSamples.SpiFram.Memory
import ZephyrSamples.NvsSample.Reboots
import ZephyrSamples.BigHttpDownload.UrlRequest
import ZephyrSamples.Lib.Strides
import ZephyrSamples.Display.Geometry
import ZephyrSamples.Lib.Rearrange
import ZephyrSamples.ShellModule.Qsort
import ZephyrSamples.ShellModule.SortedTable
import ZephyrSamples.Lib.Channel
import ZephyrSamples.Zperf.Exchange
import ZephyrSamples.LcdHd44780.Bus
import ZephyrSamples.MetairqDispatch.Delivery
import ZephyrSamples.Threads.PrintkFifo
