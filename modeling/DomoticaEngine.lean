import DomoticaEngine.Mirror
import DomoticaEngine.Termination
import DomoticaEngine.ScheduleAgreement
import DomoticaEngine.RuleText
import DomoticaEngine.RuleAcceptance
import DomoticaEngine.Remote
import DomoticaEngine.FileBoundaries
import DomoticaEngine.StoreRoundtrip
import DomoticaEngine.EltakoQueue
import DomoticaEngine.VeluxUpdates
import DomoticaEngine.FrameAgreement
import DomoticaEngine.MinuteTicks
import DomoticaEngine.ScheduleBlocks
import DomoticaEngine.EventCoherence
import DomoticaEngine.RemoteAgreement
import DomoticaEngine.Independence
import DomoticaEngine.DirectoryOrder
import DomoticaEngine.RunningTime
import DomoticaEngine.Fud14Dimming
import DomoticaEngine.ResponseBuffer
import DomoticaEngine.Responses
import DomoticaEngine.LineBuffer
import DomoticaEngine.DeclaredOptions
import DomoticaEngine.ScheduleEntries
import DomoticaEngine.Program
import DomoticaEngine.Guards
import DomoticaEngine.Locks
import DomoticaEngine.DeviceData
import DomoticaEngine.House
import DomoticaEngine.Numerals
import DomoticaEngine.TimerDurations
import DomoticaEngine.ScheduleText
import DomoticaEngine.BoolChanges
import DomoticaEngine.TimerOneShot
import DomoticaEngine.GpioDelivery
import DomoticaEngine.Debounce
import DomoticaEngine.PressGrammar
import DomoticaEngine.PressAgreement
import DomoticaEngine.SunrisetHouse
import DomoticaEngine.LogExport
import DomoticaEngine.StateReply
import DomoticaEngine.Dht22Decoding
import DomoticaEngine.Dht22Measuring
import DomoticaEngine.Soltracker
import DomoticaEngine.DeviceNames
import DomoticaEngine.CommentLines
import DomoticaEngine.FileLines
import DomoticaEngine.LineGrammar
import DomoticaEngine.EltakoReceive
import DomoticaEngine.RuleInvariants
import DomoticaEngine.Interlock
import DomoticaEngine.Outputs
import DomoticaEngine.EventVocabulary
import DomoticaEngine.Recovery
import DomoticaEngine.RemoteServer
import DomoticaEngine.TypeSoundness
import DomoticaEngine.Progress
import DomoticaEngine.FrameLatency
import DomoticaEngine.ConfigurationText
import DomoticaEngine.Reconfiguration
import DomoticaEngine.Dht22Logging
import DomoticaEngine.Hardware
import DomoticaEngine.Divergence
import DomoticaEngine.Timetable
