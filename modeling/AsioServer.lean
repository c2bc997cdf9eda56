import AsioServer.Core.SendPipelineTheorems
import AsioServer.Core.BodyBufferTheorems
import AsioServer.Core.LogicSystemTheorems
import AsioServer.Infra.SafeQueueTheorems
import AsioServer.Infra.FileAppenderTheorems
import AsioServer.Infra.LoggerTheorems
import AsioServer.Net.ReadLoopTheorems
import AsioServer.Net.SessionRegistryTheorems
import AsioServer.Net.SessionKindsTheorems
import AsioServer.Net.AcceptLoopTheorems
import AsioServer.Net.SessionOwnersTheorems
import AsioServer.Services.IOThreadsTheorems
import AsioServer.Services.NameSurvivalTheorems
import AsioServer.Services.DeliveryTheorems
import AsioServer.Services.ReplyTheorems
import AsioServer.Services.RoutingTheorems
import AsioServer.Infra.LoggerSteps
import AsioServer.Config.ConfigManager
import AsioServer.Core.AsioIOServicePool
import AsioServer.Core.AsioIOServicePoolTheorems
import AsioServer.Lib.Table
import AsioServer.Services.DBPools
import AsioServer.Services.DBPoolsTheorems
import AsioServer.Services.DBConnections
import AsioServer.Services.DBConnectionsTheorems
import AsioServer.Infra.BackupTheorems
import AsioServer.Infra.RollingLogger
import AsioServer.Infra.RollingLoggerTheorems
import AsioServer.Infra.LoggerExit
import AsioServer.Infra.LoggerExitTheorems
import AsioServer.Services.PoolWaitersTheorems
import AsioServer.Core.PeerLoss
import AsioServer.Core.PeerLossTheorems
import AsioServer.Services.RegistrationTheorems
import AsioServer.Config.ConfigReaderTheorems
import AsioServer.App.Main
import AsioServer.Services.PoolInitTheorems
import AsioServer.Services.BrokenConnections
import AsioServer.Services.BrokenConnectionsTheorems
import AsioServer.Core.LogicStopTheorems
import AsioServer.Services.ErrorCodeTheorems
import AsioServer.Net.Watchdog
import AsioServer.Net.WatchdogTheorems
import AsioServer.Infra.JsonLexer
import AsioServer.Infra.JsonParser
import AsioServer.Infra.JsonGrammar
import AsioServer.Infra.JsonLexerTheorems
import AsioServer.Infra.JsonTextTheorems
import AsioServer.Infra.JsonRoundTrip
import AsioServer.Services.DirectoryTheorems
import AsioServer.Net.WireOrderTheorems
import AsioServer.Services.SendRefinementTheorems
import AsioServer.Net.IdleSessionTheorems
import AsioServer.Infra.JsonPrefixTheorems
import AsioServer.Config.ConfigPathTheorems
import AsioServer.Config.ConfigFileTheorems
import AsioServer.Services.DBExecutorRun
import AsioServer.Services.DBExecutorRunTheorems
import AsioServer.Infra.LogRestartTheorems
import AsioServer.Services.ConversationTheorems
import AsioServer.Services.ServiceManagerTheorems
import AsioServer.Services.DatabaseCallTheorems
