import SensorPanel.Library.Machine
import SensorPanel.Library.Buffer
import SensorPanel.Library.Sync
import SensorPanel.Library.Threads
import SensorPanel.Library.Sections
import SensorPanel.Library.Decimal
import SensorPanel.Library.Wire
import SensorPanel.Library.Rounding
import SensorPanel.Errno
import SensorPanel.Config.ConfigStore
import SensorPanel.Config.Settings
import SensorPanel.Config.Persistence
import SensorPanel.Config.Validity
import SensorPanel.Config.Callers
import SensorPanel.Config.LockOrder
import SensorPanel.Config.Writers
import SensorPanel.Config.StoreOrder
import SensorPanel.Config.BootOrder
import SensorPanel.Network.WifiManager
import SensorPanel.Network.WifiHistory
import SensorPanel.Network.WifiRecovery
import SensorPanel.Network.HttpRequest
import SensorPanel.Sensor.ResponseBuffer
import SensorPanel.Sensor.SensorJson
import SensorPanel.Sensor.SensorModel
import SensorPanel.Sensor.Display
import SensorPanel.Sensor.ApiClient
import SensorPanel.Sensor.Polling
import SensorPanel.Boot
import SensorPanel.Config.Loading
import SensorPanel.Sensor.DocumentShape
import SensorPanel.Sensor.Fragmentation
import SensorPanel.Sensor.Refresh
import SensorPanel.Library.Guarded
import SensorPanel.Sensor.SharedState
import SensorPanel.Sensor.NetworkCalls
import SensorPanel.Network.WaitReady
import SensorPanel.Network.LinkHistory
import SensorPanel.Sensor.Iterations
import SensorPanel.Sensor.Publications
import SensorPanel.Panel
import SensorPanel.Progress
import SensorPanel.Provisioning
import SensorPanel.NumberOrigin
import SensorPanel.Library.Unwinding
import SensorPanel.Network.StationCredentials
import SensorPanel.Sensor.LoopCalls
import SensorPanel.Sensor.WorkerCredentials
import SensorPanel.Traffic
import SensorPanel.Secrecy
