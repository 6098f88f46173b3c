/-
# Openyak -- the root of the development
-/
import Openyak.Theory.Json
import Openyak.Theory.Scanning
import Openyak.Theory.JsonTree
import Openyak.Theory.JsonText
import Openyak.Theory.JsonUnique
import Openyak.Theory.JsonPaths
import Openyak.Theory.JsonWritten
import Openyak.Theory.CompactJson
import Openyak.Theory.Text
import Openyak.Theory.Lines
import Openyak.Theory.Decimal
import Openyak.Theory.Framing
import Openyak.Theory.Coalesce
import Openyak.Theory.Run
import Openyak.Theory.Action
import Openyak.Theory.ContentLength
import Openyak.Theory.Rendezvous
import Openyak.Theory.RequestLog
import Openyak.Theory.Utf8Stream
import Openyak.Theory.Demultiplex
import Openyak.Lsp.Transport
import Openyak.Lsp.Client
import Openyak.Lsp.Answers
import Openyak.Lsp.ReaderEnd
import Openyak.Theory.DocumentSync
import Openyak.Lsp.Documents
import Openyak.Lsp.DocumentLifecycle
import Openyak.Theory.ByteStream
import Openyak.Theory.Pairing
import Openyak.Theory.Shell
import Openyak.Theory.Posix
import Openyak.Theory.Files
import Openyak.Theory.PathText
import Openyak.Theory.Storing
import Openyak.Api.Types
import Openyak.Api.Sse
import Openyak.Api.SseFraming
import Openyak.Api.OpenAiStream
import Openyak.Api.StreamTool
import Openyak.Api.StreamBrackets
import Openyak.Api.OpenAiResponse
import Openyak.Api.StreamAgreement
import Openyak.Runtime.Json
import Openyak.Runtime.JsonParser
import Openyak.Runtime.JsonGrammar
import Openyak.Runtime.JsonRoundTrip
import Openyak.Runtime.Settings
import Openyak.Runtime.SkillRegistry
import Openyak.Runtime.SkillSteps
import Openyak.Runtime.Session
import Openyak.Runtime.SessionJson
import Openyak.Runtime.SessionCodecs
import Openyak.Runtime.Compact
import Openyak.Runtime.SummaryText
import Openyak.Runtime.SummaryReread
import Openyak.Runtime.CompactTwice
import Openyak.Runtime.Usage
import Openyak.Runtime.Registries
import Openyak.Theory.ChildProcess
import Openyak.Theory.DirTree
import Openyak.Theory.OrderedMap
import Openyak.Runtime.Hooks
import Openyak.Runtime.Conversation
import Openyak.Runtime.LoopInvariant
import Openyak.Runtime.WorldInvariant
import Openyak.Runtime.Accounting
import Openyak.Runtime.Answered
import Openyak.Runtime.CompactPairs
import Openyak.Runtime.NoDangling
import Openyak.Runtime.Mcp
import Openyak.Runtime.McpStdio
import Openyak.Runtime.McpKeeps
import Openyak.Runtime.McpPairing
import Openyak.Runtime.McpToolBridge
import Openyak.Runtime.McpRouting
import Openyak.Runtime.Permissions
import Openyak.Runtime.BashValidation
import Openyak.Runtime.BashSoundness
import Openyak.Runtime.PermissionEnforcer
import Openyak.Runtime.FileOps
import Openyak.Runtime.ToolPolicy
import Openyak.Plugins.Hooks
import Openyak.Runtime.StoragePaths
import Openyak.Tools.ConfigTool
import Openyak.Tools.SettingsSurvive
import Openyak.Tools.TeamTools
import Openyak.Tools.TeamMembership
import Openyak.Tools.ProviderReply
import Openyak.Tools.ReplyAgreement
import Openyak.Cli.ReplyStream
import Openyak.Cli.ReplyConsumers
import Openyak.Tools.NotebookEdit
import Openyak.Tools.ToolRegistry
import Openyak.Tools.SubAgents
import Openyak.Cli.PermissionGates
import Openyak.Tools.FileTools
import Openyak.Server.Thread
import Openyak.Server.Admission
import Openyak.Server.Persistence
import Openyak.Server.ThreadConfig
import Openyak.Server.Sequence
import Openyak.Server.Recovery
import Openyak.Cli.UserInput
import Openyak.Server.Workspace
import Openyak.Server.RunIds
import Openyak.Server.Events
import Openyak.Server.RunExecution
import Openyak.Server.Broadcast
import Openyak.Server.RunOrder
import Openyak.Cli.Delegation
import Openyak.Sdk.Errors
import Openyak.Sdk.SubmitOnce
import Openyak.Sdk.EventStream
import Openyak.Sdk.FrameLines
import Openyak.Sdk.ServerStream
import Openyak.Sdk.TypeScriptEvents
import Openyak.Sdk.EventDecoding
import Openyak.Runtime.SkillsAgree
import Openyak.Runtime.ManagedSkills
import Openyak.Api.Retry
import Openyak.Cli.LineEditor
import Openyak.Cli.EditorBoundaries
import Openyak.Cli.EditorSound
import Openyak.Theory.Terminated
import Openyak.Cli.VimLines
import Openyak.Cli.Drafts
import Openyak.Cli.MarkdownStream
import Openyak.Cli.ExecutionPolicy
import Openyak.Runtime.Credentials
import Openyak.Runtime.CredentialPlaces
import Openyak.Runtime.CredentialSteps
import Openyak.Runtime.CredentialRuns
import Openyak.Runtime.SavedCredentials
import Openyak.Api.TokenRefresh
import Openyak.Cli.ThreadServers
import Openyak.Cli.ServerStop
import Openyak.Cli.ServerOverlap
import Openyak.Server.Payloads
import Openyak.Sdk.PythonModels
import Openyak.Sdk.SameLanguage
import Openyak.Runtime.OAuthQuery
import Openyak.Runtime.McpProxyUrl
import Openyak.Runtime.McpServerConfigs
import Openyak.Runtime.McpFingerprints
import Openyak.Runtime.CredentialFile
import Openyak.Runtime.SkillDigest
import Openyak.Runtime.SkillVersions
import Openyak.Commands.CommitPushPr
import Openyak.Commands.DefaultBranch
import Openyak.Plugins.PluginManager
import Openyak.Plugins.EnabledLayers
import Openyak.Plugins.Listing
import Openyak.Plugins.CallSteps
import Openyak.Plugins.EnabledReload
import Openyak.Runtime.PlainSettings
import Openyak.Plugins.FailedCalls
import Openyak.Lsp.ManagerRouting
import Openyak.Runtime.CompactShape
import Openyak.Runtime.SandboxCeiling
import Openyak.Runtime.BashModes
import Openyak.Runtime.BashRedirection
import Openyak.Runtime.InstructionBudget
import Openyak.Runtime.SedInPlace
import Openyak.Server.SettingsLayers
import Openyak.Runtime.McpCleanup
import Openyak.Server.Replay
import Openyak.Runtime.SkillDirectories
import Openyak.Commands.SkillListing
import Openyak.Api.OpenAiRequest
import Openyak.Server.StoredRecords
import Openyak.Theory.Places
import Openyak.Tools.ProviderRequest
import Openyak.Cli.AllowedTools
import Openyak.Runtime.StreamParser
