import Launa.Lib.Run
import Launa.Lib.ChangeFilter
import Launa.Lib.Mealy
import Launa.Lib.IndexLoop
import Launa.Lib.RingBuffer
import Launa.Lib.SlidingWindow
import Launa.Lib.Stateful
import Launa.Lib.Varint
import Launa.Lib.Crc
import Launa.Lib.Rounding
import Launa.Lib.Checked
import Launa.Lib.NorFlash
import Launa.Lib.CoalescingQueue
import Launa.Lib.TextSearch
import Launa.Lib.Json
import Launa.Lib.JsonSearch
import Launa.Lib.JsonPrint
import Launa.Lib.JsonTree
import Launa.Lib.ChangeLog
import Launa.Lib.LexDigits
import Launa.Lib.Utf8Bytes
import Launa.Lib.BlockCipher
import Launa.EspOta.Crypto
import Launa.EspOta.Flash
import Launa.EspOta.Slots
import Launa.EspOta.Otadata
import Launa.EspOta.BootSwitch
import Launa.EspOta.Updater
import Launa.EspOta.Issued
import Launa.EspOta.FailedWrite
import Launa.EspOta.Image
import Launa.EspOta.Containment
import Launa.EspOta.Validation
import Launa.EspOta.Confirmation
import Launa.Ota.Http
import Launa.App.Ota
import Launa.App.FailedUpdate
import Launa.App.Acceptance
import Launa.Mqtt.Packet
import Launa.Mqtt.Reassembly
import Launa.Mqtt.Codec
import Launa.Protocol.Hex
import Launa.Protocol.Frame
import Launa.Protocol.FrameCode
import Launa.Protocol.Decoder
import Launa.Protocol.Framing
import Launa.Protocol.DecoderPaths
import Launa.Protocol.Resync
import Launa.Protocol.Segments
import Launa.Protocol.Status
import Launa.Protocol.Temperature
import Launa.Protocol.Command
import Launa.Protocol.Registration
import Launa.Protocol.CommandFrames
import Launa.Protocol.Dispatcher
import Launa.Mqtt.CommandParser
import Launa.Ota.Utf8
import Launa.Mqtt.FieldSearch
import Launa.Mqtt.OtaUrl
import Launa.Mqtt.CommandLayout
import Launa.Mqtt.State
import Launa.Mqtt.StateJson
import Launa.App.MqttClient
import Launa.App.SentCommands
import Launa.App.MqttReceive
import Launa.App.PacketIds
import Launa.App.BrokerPacket
import Launa.App.Alignment
import Launa.App.InboundDelivery
import Launa.App.MqttTask
import Launa.App.StatePublishing
import Launa.App.RemoteLog
import Launa.Core.Types
import Launa.Core.LogSites
import Launa.Core.LogBuffer
import Launa.Core.RateLimiter
import Launa.Core.CommandTracker
import Launa.Core.Tracking
import Launa.Core.VerifyLoop
import Launa.Core.Timers
import Launa.Core.HoldEpisodes
import Launa.Core.SpaApp
import Launa.Core.Transitions
import Launa.Core.ClockFormat
import Launa.Core.CommandEffects
import Launa.Core.QueueBound
import Launa.Core.LastTemperature
import Launa.Core.QueueCoalescing
import Launa.Core.Retransmission
import Launa.Core.StuckRegistration
import Launa.Core.StaleLatch
import Launa.Core.PumpAutoOff
import Launa.App.TemperatureCap
import Launa.Core.ChannelAgreement
import Launa.Core.ChannelOwnership
import Launa.Core.BusDiscipline
import Launa.App.Availability
import Launa.Server.GoogleAuth
import Launa.Server.Notifier
import Launa.App.CrashInfo
import Launa.App.CrashText
import Launa.App.SerialConfig
import Launa.Sim.SpaSim
import Launa.Server.GoogleHome
import Launa.Sim.PerfectLink
import Launa.Sim.CoalescedDelivery
import Launa.Core.Counters
import Launa.App.PublishReading
import Launa.Mqtt.Discovery
import Launa.App.Crypto
import Launa.Server.StateHistory
import Launa.Server.Timestamps
import Launa.Server.TemperatureTracking
import Launa.Server.DeviceStatus
import Launa.Server.GoogleIds
import Launa.Server.SetpointDelivery
import Launa.Sim.StatusFrames
import Launa.Sim.Emulator
import Launa.Xtask.SniffDecode
import Launa.Core.Network
import Launa.App.OtaLifecycle
import Launa.Xtask.OtaServe
import Launa.App.OtaDelivery
import Launa.App.Sniff
import Launa.App.Firmware
import Launa.App.BusCaptures
import Launa.Server.Records
import Launa.Server.LogDelivery
import Launa.Lib.DelayLine
import Launa.Sim.Conversation
import Launa.Sim.Harness
import Launa.Sim.Latency
