import ScicosFlex.Library.CircularBuffer
import ScicosFlex.Library.Rings
import ScicosFlex.Library.RunningSum
import ScicosFlex.Library.Runs
import ScicosFlex.Library.AcyclicRecursion
import ScicosFlex.Library.Writes
import ScicosFlex.Usb.Packet
import ScicosFlex.Usb.RxRing
import ScicosFlex.Usb.RingRuns
import ScicosFlex.Usb.Session
import ScicosFlex.Usb.Channels
import ScicosFlex.Pic18.Bridge
import ScicosFlex.Pic18.BridgeRuns
import ScicosFlex.Pic18.FrameAgreement
import ScicosFlex.Codegen.Compiled
import ScicosFlex.Codegen.CText
import ScicosFlex.Codegen.CallBlock
import ScicosFlex.Codegen.Schedule
import ScicosFlex.Codegen.Doit
import ScicosFlex.Codegen.Odoit
import ScicosFlex.Codegen.Reached
import ScicosFlex.Codegen.DerivativeCode
import ScicosFlex.Codegen.Branches
import ScicosFlex.Codegen.Reinitdoit
import ScicosFlex.Codegen.Standalone
import ScicosFlex.Codegen.Phases
import ScicosFlex.Codegen.Program
import ScicosFlex.Codegen.Lifecycle
import ScicosFlex.Codegen.Descriptors
import ScicosFlex.Codegen.Names
import ScicosFlex.Codegen.Declarations
import ScicosFlex.Codegen.Scopes
import ScicosFlex.Codegen.DerivativeScopes
import ScicosFlex.Codegen.Scoping
import ScicosFlex.Gateway.StreamParser
import ScicosFlex.Gateway.RoundTrip
import ScicosFlex.Usb.ReaderThreads
import ScicosFlex.Usb.Reopening
import ScicosFlex.Usb.BlockSessions
import ScicosFlex.Usb.Snapshots
import ScicosFlex.Library.Rounds
import ScicosFlex.Usb.WriteCadence
import ScicosFlex.Usb.ReadCadence
import ScicosFlex.Bus.Queue
import ScicosFlex.Bus.WakeUps
import ScicosFlex.Bus.Demultiplexer
import ScicosFlex.Bus.Deque
import ScicosFlex.FlexSim.ArrayContainer
import ScicosFlex.FlexSim.FlexBlocks
import ScicosFlex.FlexSim.BlockRegistry
import ScicosFlex.Library.Vectors
import ScicosFlex.Codegen.SmcubeBlocks
import ScicosFlex.Library.Sessions
import ScicosFlex.Smcube.Block
import ScicosFlex.Smcube.Sessions
import ScicosFlex.Library.Layout
import ScicosFlex.Smcube.DataModel
import ScicosFlex.Sprintf.Fields
import ScicosFlex.Library.PrintfFormats
import ScicosFlex.Sprintf.Formats
import ScicosFlex.Mcp2200.Pins
import ScicosFlex.FlexSim.Transfers
import ScicosFlex.FlexSim.LcdMessages
import ScicosFlex.Library.Loops
import ScicosFlex.Udp.Blocks
import ScicosFlex.Udp.Lines
import ScicosFlex.Usb.RxCopies
import ScicosFlex.Library.WhileLoops
import ScicosFlex.Library.OneStep
import ScicosFlex.Codegen.Solvers
import ScicosFlex.Codegen.Integration
import ScicosFlex.Library.Ranks
import ScicosFlex.Codegen.Agenda
import ScicosFlex.Codegen.CFormat
import ScicosFlex.Library.CTokens
import ScicosFlex.Library.PrintedNumbers
import ScicosFlex.Codegen.RealParameters
import ScicosFlex.Codegen.WrittenCalls
import ScicosFlex.Codegen.SelectInit
import ScicosFlex.Codegen.ClockSearch
import ScicosFlex.Codegen.ScopeIds
import ScicosFlex.Library.FirstOccurrences
import ScicosFlex.Codegen.DynamicBlocks
import ScicosFlex.Library.OnePass
import ScicosFlex.Codegen.DiagramInfo
import ScicosFlex.Library.ColumnMajor
import ScicosFlex.NativeInteger.Blocks
import ScicosFlex.Library.Choices
import ScicosFlex.Library.CStrings
import ScicosFlex.Confparser.Mux
import ScicosFlex.Confparser.Grammar
import ScicosFlex.Library.Sequences
import ScicosFlex.Confparser.CommandLine
import ScicosFlex.Confparser.Permutations
import ScicosFlex.Library.Rewriting
import ScicosFlex.Confparser.Demux
import ScicosFlex.LegacyUsb.UsbThread
import ScicosFlex.LegacyUsb.Reassembly
import ScicosFlex.LegacyUsb.Channels
import ScicosFlex.LegacyUsb.Readers
import ScicosFlex.LegacyUsb.FlexPcUsb
import ScicosFlex.Library.Packets
import ScicosFlex.Library.AlternatingBit
import ScicosFlex.Pic18.Descriptors
import ScicosFlex.Pic18.UsbDevice
import ScicosFlex.Pic18.ControlTransfers
import ScicosFlex.Pic18.ControlPhases
import ScicosFlex.Pic18.ControlReads
import ScicosFlex.Pic18.ControlProgress
import ScicosFlex.Pic18.DeviceStates
import ScicosFlex.Pic18.HidPipes
import ScicosFlex.Library.Relays
import ScicosFlex.Pic18.Relay
import ScicosFlex.Usb.UdpGateway
import ScicosFlex.Codegen.Prototypes
import ScicosFlex.Pic18.GatewayChain
