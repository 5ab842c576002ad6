import LibinputRs.Automata.Machine
import LibinputRs.Automata.Sessions
import LibinputRs.Automata.Cells
import LibinputRs.Automata.Fallible
import LibinputRs.Automata.Records
import LibinputRs.Automata.Toggles
import LibinputRs.Automata.Faults
import LibinputRs.Automata.Readiness
import LibinputRs.Automata.Potential
import LibinputRs.Automata.Options
import LibinputRs.Automata.Ownership
import LibinputRs.Automata.Gates
import LibinputRs.Automata.Spans
import LibinputRs.Automata.Registers
import LibinputRs.Automata.Strokes
import LibinputRs.Automata.Selections
import LibinputRs.Automata.Ledger
import LibinputRs.Automata.Symmetry
import LibinputRs.Automata.Frames
import LibinputRs.Automata.Repeats
import LibinputRs.Automata.Handles
import LibinputRs.Automata.Holdings
import LibinputRs.Evdev
import LibinputRs.Floats
import LibinputRs.FfiTypes
import LibinputRs.Accessors
import LibinputRs.Backend.TrackedDevice
import LibinputRs.Backend.Keyboard
import LibinputRs.Backend.Touchpad
import LibinputRs.Backend.Context
import LibinputRs.Backend.Drain
import LibinputRs.Api
import LibinputRs.DeviceConfig
import LibinputRs.Backend.DeviceSteps
import LibinputRs.Backend.SyncStream
import LibinputRs.Backend.EventTimes
import LibinputRs.Backend.TouchpadSteps
import LibinputRs.Backend.TouchpadClock
import LibinputRs.Backend.World
import LibinputRs.Backend.Turns
import LibinputRs.Backend.Ticks
import LibinputRs.Library.ConfigStore
import LibinputRs.Library.Descriptors
import LibinputRs.Library.Lifecycle
import LibinputRs.Library.Paths
import LibinputRs.Library.DrainLoops
import LibinputRs.Library.Lifetimes
import LibinputRs.Library.Watched
import LibinputRs.Library.Translation
import LibinputRs.Library.Inbox
import LibinputRs.Library.LiveSettings
import LibinputRs.Library.Options
import LibinputRs.Library.TouchpadBooks
import LibinputRs.Library.Volume
import LibinputRs.Library.Addition
import LibinputRs.Library.Replug
import LibinputRs.Library.Discovery
import LibinputRs.Library.PathContext
import LibinputRs.Library.Moments
import LibinputRs.Library.Advertised
import LibinputRs.Library.Capabilities
import LibinputRs.Library.KeyRepeat
import LibinputRs.Library.Accounts
import LibinputRs.Library.Removal
import LibinputRs.Library.Timestamps
import LibinputRs.Library.KeyHolds
import LibinputRs.Library.RepeatSchedule
import LibinputRs.Library.Pinch
import LibinputRs.Library.Buttons
import LibinputRs.Library.Taps
import LibinputRs.Library.FingerCount
import LibinputRs.Library.SeatCounts
import LibinputRs.Library.ScrollSums
import LibinputRs.Library.TypingWindow
import LibinputRs.Library.DeviceTurns
import LibinputRs.Library.TypingVerdict
import LibinputRs.Library.MapOrder
import LibinputRs.Library.Slots
import LibinputRs.Library.SlotTable
import LibinputRs.Library.PinchContacts
import LibinputRs.Library.PinchPairs
import LibinputRs.Library.Swipes
import LibinputRs.Library.TouchTaps
import LibinputRs.Library.Isolation
import LibinputRs.Library.NaturalScroll
import LibinputRs.Library.EventKinds
import LibinputRs.Library.Readings
import LibinputRs.Daemon.VirtualDevice
import LibinputRs.Daemon.DeviceWrapper
import LibinputRs.Daemon.EventLoop
import LibinputRs.Daemon.Readiness
import LibinputRs.Daemon.WrapperSteps
import LibinputRs.Daemon.LoopTicks
import LibinputRs.Daemon.Table
import LibinputRs.Daemon.Nodes
import LibinputRs.Daemon.Reliable
import LibinputRs.Daemon.Passthrough
import LibinputRs.Daemon.Outcomes
import LibinputRs.Daemon.FailedWrites
import LibinputRs.Pipeline.Pointing
import LibinputRs.Daemon.WrapperPointing
import LibinputRs.Daemon.PartialFrames
import LibinputRs.Daemon.Typing
import LibinputRs.Daemon.Monitored
import LibinputRs.Pipeline.Samples
import LibinputRs.Pipeline.ClickPairs
import LibinputRs.Pipeline.ClickTaps
import LibinputRs.Daemon.VirtualButtons
import LibinputRs.Daemon.ResetHotkey
import LibinputRs.Daemon.ResetThreads
import LibinputRs.Daemon.Main
import LibinputRs.Daemon.Translation
import LibinputRs.Daemon.Volume
import LibinputRs.Pipeline.Conservation
import LibinputRs.Daemon.MotionBooks
import LibinputRs.Pipeline.SingleTouch
import LibinputRs.Pipeline.Reflection
import LibinputRs.Pipeline.ExactGain
import LibinputRs.Library.Schedules
import LibinputRs.Pipeline.Symmetry
import LibinputRs.Pipeline.TouchPointing
import LibinputRs.Pipeline.PinchScaling
import LibinputRs.Pipeline.FrameOrder
import LibinputRs.Pipeline.Gain
import LibinputRs.Pipeline.Overflow
import LibinputRs.Pipeline.FingerTravel
