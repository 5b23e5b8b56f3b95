import Rw612.Ota.Runs
import Rw612.Ota.Notify
import Rw612.Ota.Control
import Rw612.Ota.Upload
import Rw612.Ir.RoundTrip
import Rw612.Ir.NecLg
import Rw612.Ir.Received
import Rw612.Ir.Transmit
import Rw612.Ir.Waveform
import Rw612.Ir.AirconModel
import Rw612.Ir.Carrier
import Rw612.Ir.Collect
import Rw612.Ir.Senders
import Rw612.Http.Resume
import Rw612.Http.Injection
import Rw612.Http.Complete
import Rw612.Http.Lifecycle
import Rw612.Prov.Erased
import Rw612.Prov.Truthful
import Rw612.Prov.RawRecord
import Rw612.Tcp.Descriptors
import Rw612.Tcp.Stop
import Rw612.Tcp.Trigger
import Rw612.Wifi.Announce
import Rw612.Wifi.Quiesce
import Rw612.Wifi.Retry
import Rw612.Matter.Unsaved
import Rw612.Http.Success
import Rw612.Http.Redirects
import Rw612.Tcp.ServerDescriptors
import Rw612.Rotary.Switch
import Rw612.Led.Agreement
import Rw612.Ir.Rejected
import Rw612.Ir.Contract
import Rw612.Rotary.Quadrature
import Rw612.Http.Line
import Rw612.Led.Pattern
import Rw612.Sensors.Light
import Rw612.Sensors.Schedule
import Rw612.Sensors.Calibration
import Rw612.Ble.Events
import Rw612.Ble.Discovery
import Rw612.Radar.Reception
import Rw612.Http.Served
import Rw612.Led.Service
import Rw612.Sensors.SharedBus
import Rw612.Radar.Dump
import Rw612.Audio.SharedBus
import Rw612.Wifi.Bounded
