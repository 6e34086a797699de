import ZortilWatch.Signaling.RegistryAudit
import ZortilWatch.Signaling.RegistryIsolation
import ZortilWatch.Signaling.AccessList
import ZortilWatch.Signaling.Wake
import ZortilWatch.Signaling.ConnectLimit
import ZortilWatch.Signaling.Orphans
import ZortilWatch.Signaling.Capacity
import ZortilWatch.Signaling.Relay
import ZortilWatch.Signaling.Responses
import ZortilWatch.Server.AddressBook
import ZortilWatch.Server.SecondFactor
import ZortilWatch.Core.HandshakeNetwork
import ZortilWatch.Core.HandshakeAgreement
import ZortilWatch.Core.Handover
import ZortilWatch.Core.Stream
import ZortilWatch.Core.MediaPath
import ZortilWatch.Core.Layers
import ZortilWatch.Core.OneTime
import ZortilWatch.Core.Admission
import ZortilWatch.Core.JoinedSession
import ZortilWatch.Core.SessionSafety
import ZortilWatch.Core.UploadResult
import ZortilWatch.Core.UploadCancel
import ZortilWatch.Core.UploadWindow
import ZortilWatch.Core.DownloadResult
import ZortilWatch.Core.RelayRefresh
import ZortilWatch.Ui.WebConnect
import ZortilWatch.Signaling.RegistryClosing
import ZortilWatch.Signaling.WakeStatus
import ZortilWatch.Server.RateWindows
import ZortilWatch.Core.Clipboard
import ZortilWatch.Core.SessionEnd
import ZortilWatch.Core.Governor
import ZortilWatch.Desktop.Transfers
import ZortilWatch.Core.Fingerprint
import ZortilWatch.Ui.Nonces
import ZortilWatch.Server.TotpWindow
import ZortilWatch.Core.ChannelData
import ZortilWatch.Core.ReassemblerSafety
import ZortilWatch.Service.Supervisor
import ZortilWatch.Server.DeviceRoutes
import ZortilWatch.Ui.Blacklist
import ZortilWatch.Ui.FilePanels
import ZortilWatch.Ui.VideoStart
import ZortilWatch.Lib.Refinement
import ZortilWatch.Signaling.Rendezvous
import ZortilWatch.Core.Blanker
import ZortilWatch.Core.OfferAnswer
import ZortilWatch.Core.VideoLoop
import ZortilWatch.Service.Desktops
import ZortilWatch.Signaling.ClientFrames
import ZortilWatch.Signaling.RendezvousRefinement
import ZortilWatch.Signaling.RendezvousRuns
import ZortilWatch.Signaling.SessionProtocol
import ZortilWatch.Signaling.SignalPath
import ZortilWatch.Ui.VideoStream
import ZortilWatch.Core.HostStop
import ZortilWatch.Desktop.HostMode
import ZortilWatch.Desktop.HostWebview
import ZortilWatch.Ui.OneTimeCode
import ZortilWatch.Core.RelayTunnel
import ZortilWatch.Core.Wol
import ZortilWatch.Signaling.Heartbeat
import ZortilWatch.Signaling.WakePath
import ZortilWatch.Core.UploadView
