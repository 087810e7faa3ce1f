import Typio.Machine
import Typio.Framing
import Typio.Wayland.KeyTracking
import Typio.Wayland.KeyPolicy
import Typio.Wayland.LifecycleModel
import Typio.Wayland.Frontend
import Typio.Wayland.TextUi
import Typio.Wayland.VkBridge
import Typio.Wayland.KeyRoute
import Typio.Wayland.Keyboard
import Typio.Wayland.KeyArbiter
import Typio.Wayland.GrabEvents
import Typio.Wayland.Lifecycle
import Typio.Wayland.InputMethod
import Typio.Wayland.EventLoop
import Typio.Wayland.RouteEdits
import Typio.Wayland.Edits
import Typio.Wayland.StuckKeys
import Typio.Wayland.ArbiterReplay
import Typio.Wayland.ChordRelease
import Typio.Wayland.VoiceLatch
import Typio.Wayland.PushToTalk
import Typio.Wayland.CommitSerial
import Typio.Wayland.KeymapHandshake
import Typio.Wayland.PreeditAgreement
import Typio.Wayland.PhaseDiscipline
import Typio.Wayland.Reconciler
import Typio.Ipc.UdsServer
import Typio.Ipc.UdsConnection
import Typio.Ipc.UdsReadLoop
import Typio.Ipc.UdsOutput
import Typio.Ipc.UdsFraming
import Typio.JsonText
import Typio.JsonUnambiguous
import Typio.JsonCompact
import Typio.JsonPlacement
import Typio.JsonMembers
import Typio.Ipc.TipJson
import Typio.Ipc.TipJsonStrings
import Typio.Ipc.TipJsonScanners
import Typio.State.StatusService
import Typio.State.StatusBus
import Typio.State.StatusJson
import Typio.Ipc.IpcBus
import Typio.Ipc.StringRoundTrip
import Typio.Ipc.QuotedNames
import Typio.Ipc.ResponseEnvelope
import Typio.Ipc.RequestTexts
import Typio.Ipc.RequestDecoding
import Typio.Ipc.ParamsExtraction
import Typio.Core.EngineManager
import Typio.Core.EngineSlots
import Typio.Core.EngineRegistry
import Typio.Core.EngineSwitch
import Typio.Core.Instance
import Typio.Core.InstanceSwitch
import Typio.Core.SwitchAtomicity
import Typio.Core.VoiceSession
import Typio.Core.VoiceStates
import Typio.Core.VoiceModels
import Typio.Daemon.StateController
import Typio.Daemon.Identity
import Typio.Daemon.App
import Typio.Daemon.StateCoherence
import Typio.Daemon.ModeAttribution
import Typio.Daemon.IdentityRestore
import Typio.Daemon.ActivateEngine
import Typio.Cli.IpcClient
import Typio.Reclaim
import Typio.Popup.PopupLayout
import Typio.Popup.CandidatePanel
import Typio.Popup.PresentConvergence
import Typio.Popup.LayoutLedger
import Typio.Popup.LayoutCache
import Typio.Popup.LayoutOwnership
import Typio.Control.ControlConfig
import Typio.Control.Staging
import Typio.Wayland.KeyText
import Typio.Wayland.PhysicalModifiers
import Typio.Wayland.ShortcutConfig
import Typio.Wayland.SwitchShortcut
import Typio.StrSlice
import Typio.Config.Config
import Typio.Config.ParseTotality
import Typio.PathTree
import Typio.Config.Serialize
import Typio.Config.TomlDocument
import Typio.Config.Entries
import Typio.Config.TomlReading
import Typio.Config.IniReading
import Typio.Config.IniValues
import Typio.Config.RoundTrip
import Typio.Mirror
import Typio.Engines.InputContext
import Typio.Engines.Rime
import Typio.Engines.RimeSessions
import Typio.Engines.RimeOutput
import Typio.Engines.Mozc
import Typio.Engines.EngineOutput
import Typio.Engines.EngineInstance
import Typio.Engines.RimeTracking
import Typio.Engines.RimeFreshness
import Typio.Engines.RimeModes
import Typio.Engines.MozcModes
import Typio.Engines.ModeFreshness
import Typio.Lifetime
import Typio.Core.EngineLifetime
import Typio.Core.KeyboardOrder
import Typio.Core.EngineCycling
import Typio.Core.RapidCycling
import Typio.Core.CyclingProgress
import Typio.Core.RecentState
import Typio.Core.RecentPair
import Typio.Utf8Lossy
import Typio.Core.VoiceTags
import Typio.Core.TagBuffer
import Typio.Config.ConfigText
import Typio.Utf8Scan
import Typio.Engines.PathExpand
import Typio.Engines.PathAgreement
import Typio.Engines.Basic
import Typio.Engines.ComposeTransduction
import Typio.Core.PrepareAudio
import Typio.Wayland.PreeditCursor
import Typio.Engines.MozcWindow
import Typio.Wayland.StartupSuppression
import Typio.Core.ContextFocus
import Typio.Wayland.ShortcutCodec
import Typio.Daemon.StartupEngine
import Typio.Config.ReloadRules
import Typio.Core.VoiceIdle
import Typio.Daemon.VoiceTeardown
import Typio.WhileLoop
import Typio.Wayland.PrepareRead
import Typio.Wayland.ResumeSignal
import Typio.Daemon.VoiceResult
import Typio.Wayland.SurroundingText
import Typio.Boxes
import Typio.Popup.PanelGeometry
import Typio.Popup.Containment
import Typio.Popup.FastPath
import Typio.Daemon.NiriIdentity
import Typio.Ipc.QuotedMembers
import Typio.Config.SavedFile
import Typio.Daemon.IdentityFile
import Typio.Daemon.IdentityRecall
import Typio.Control.ConfigForm
import Typio.Control.EditFrame
import Typio.Core.EngineAttempts
import Typio.Daemon.ReloadEngines
import Typio.Daemon.ReloadNotices
import Typio.Daemon.ReloadFrame
import Typio.Splice
import Typio.Control.EngineOrder
import Typio.Control.OrderEdits
import Typio.Config.Sections
import Typio.Utf8Bits
import Typio.Core.Utf8Helpers
import Typio.Engines.Utf8Agreement
import Typio.Wayland.Debounce
import Typio.RefCount
import Typio.Tasks
import Typio.Core.VoiceProxy
import Typio.Wayland.Watchdog
import Typio.Wayland.RuntimeConfig
import Typio.Fifo
import Typio.Popup.FontCache
import Typio.Wayland.RunLoop
import Typio.Wayland.KeyRepeat
import Typio.Wayland.GhostRepeat
import Typio.Daemon.TrayWatcher
import Typio.Core.VoiceSamples
import Typio.Places
import Typio.Wayland.WaylandObjects
import Typio.Popup.OutputScale
