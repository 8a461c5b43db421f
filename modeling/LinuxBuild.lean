import LinuxBuild.OpenFileMap
import LinuxBuild.CloseByName
import LinuxBuild.AtKeys
import LinuxBuild.PartialRun
import LinuxBuild.RequestCache
import LinuxBuild.AmapBackend
import LinuxBuild.OneosposBackend
import LinuxBuild.CacheReplay
import LinuxBuild.BackendIdle
import LinuxBuild.InitOutcome
import LinuxBuild.AtRequests
import LinuxBuild.AmapSignature
import LinuxBuild.NvFiles
import LinuxBuild.AtCredentials
import LinuxBuild.AtUrc
import LinuxBuild.AtReports
import LinuxBuild.ResponseText
import LinuxBuild.UeLedger
import LinuxBuild.AtConfigBounds
import LinuxBuild.AtDecimal
import LinuxBuild.AtNumerals
import LinuxBuild.ParserFaults
import LinuxBuild.SavedRequest
import LinuxBuild.AtCompat
import LinuxBuild.ByteStream
import LinuxBuild.FileSeek
import LinuxBuild.FileMd5
import LinuxBuild.GapSearch
import LinuxBuild.HandleReuse
import LinuxBuild.FactoryNv
import LinuxBuild.PositionBuffers
import LinuxBuild.RequestUrl
import LinuxBuild.HttpContent
import LinuxBuild.Coordinate
import LinuxBuild.DirectoryPath
import LinuxBuild.TestFiles
import LinuxBuild.ContentLedger
import LinuxBuild.ExchangeViews
import LinuxBuild.FileAtConfig
import LinuxBuild.FileFragments
import LinuxBuild.DataMode
import LinuxBuild.NearbtsScan
import LinuxBuild.CJsonParse
import LinuxBuild.CJsonSafety
import LinuxBuild.FallibleStep
import LinuxBuild.CJsonPrint
import LinuxBuild.CJsonText
import LinuxBuild.CJsonPrinted
import LinuxBuild.CJsonReading
import LinuxBuild.CJsonReread
import LinuxBuild.CJsonRoundTrip
import LinuxBuild.BufferedFiles
import LinuxBuild.FileCommands
import LinuxBuild.FileOwnership
import LinuxBuild.FileRequests
import LinuxBuild.FileResources
import LinuxBuild.PartialSimulation
import LinuxBuild.SettledFiles
import LinuxBuild.FileBuffering
