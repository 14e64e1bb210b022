import KafKatch.AlertViewer.App
import KafKatch.Core.ArrivalOrder
import KafKatch.Core.App
import KafKatch.Core.PublicJson
import KafKatch.Notification.Notifier
import KafKatch.Notification.Percentage
import KafKatch.Notification.RollingStore
import KafKatch.Pipeline.Alerts
import KafKatch.Pipeline.Accounting
import KafKatch.Sniffer.Consistency
import KafKatch.Sniffer.Export
import KafKatch.Sniffer.Frame
import KafKatch.Sniffer.Lifecycle
import KafKatch.Sniffer.MemoryCapture
import KafKatch.Sniffer.Progress
import KafKatch.Sniffer.Shutdown
import KafKatch.Sniffer.UtHashStatistics
