import VcmlPydrofoil.Library.Transition
import VcmlPydrofoil.Library.Interaction
import VcmlPydrofoil.Library.Program
import VcmlPydrofoil.Library.RequestServer
import VcmlPydrofoil.Library.ByteMemory
import VcmlPydrofoil.Library.LinkedList
import VcmlPydrofoil.Model.CApi
import VcmlPydrofoil.Model.PythonTasks
import VcmlPydrofoil.Model.MemoryCallbacks
import VcmlPydrofoil.Model.MemoryMap
import VcmlPydrofoil.Model.Core
import VcmlPydrofoil.Model.Moves
import VcmlPydrofoil.Model.Runs
import VcmlPydrofoil.Model.Sequential
import VcmlPydrofoil.Model.Gluecode
import VcmlPydrofoil.Model.CallbackPath
import VcmlPydrofoil.Model.TestMain
import VcmlPydrofoil.TaskChannel.Handlers
import VcmlPydrofoil.TaskChannel.Refinement
import VcmlPydrofoil.TaskChannel.Simulation
import VcmlPydrofoil.TaskChannel.Lifetime
import VcmlPydrofoil.TaskChannel.Tickets
import VcmlPydrofoil.MemoryChannel.Accesses
import VcmlPydrofoil.MemoryChannel.Exceptions
import VcmlPydrofoil.MemoryChannel.Simulations
import VcmlPydrofoil.MemoryChannel.Progress
import VcmlPydrofoil.MemoryChannel.Aborts
import VcmlPydrofoil.MemoryChannel.Services
import VcmlPydrofoil.MemoryChannel.Outcomes
import VcmlPydrofoil.Correctness.TaskServer
import VcmlPydrofoil.Correctness.Shutdown
import VcmlPydrofoil.Correctness.DroppedAccess
import VcmlPydrofoil.Correctness.LostWakeUp
import VcmlPydrofoil.Correctness.CircularWait
import VcmlPydrofoil.Correctness.SequentialSimulation
import VcmlPydrofoil.Correctness.BlockMemory
import VcmlPydrofoil.Correctness.AddressFilter
import VcmlPydrofoil.Correctness.ReadBuffer
import VcmlPydrofoil.Correctness.MemoryLaw
import VcmlPydrofoil.Model.EntryPoints
import VcmlPydrofoil.Plugin.Objects
import VcmlPydrofoil.Correctness.StepCount
import VcmlPydrofoil.Correctness.Installation
import VcmlPydrofoil.Plugin.CoreCalls
import VcmlPydrofoil.Model.Processor
import VcmlPydrofoil.Correctness.StatusCodes
import VcmlPydrofoil.Correctness.ProgramCounter
import VcmlPydrofoil.Correctness.ThrowingAccess
import VcmlPydrofoil.TaskChannel.Locals
import VcmlPydrofoil.Plugin.CycleHandlers
import VcmlPydrofoil.Correctness.CycleAccounting
import VcmlPydrofoil.Library.MergingCache
import VcmlPydrofoil.Model.DmiCache
import VcmlPydrofoil.Model.ExclusiveMonitor
import VcmlPydrofoil.Model.MemorySystem
import VcmlPydrofoil.Transport.DmiCache
import VcmlPydrofoil.Transport.ExclusiveMonitor
import VcmlPydrofoil.Transport.Windows
import VcmlPydrofoil.Transport.Transactions
import VcmlPydrofoil.Transport.Effects
import VcmlPydrofoil.Transport.FlatMemory
import VcmlPydrofoil.Transport.SystemMemory
import VcmlPydrofoil.Transport.Locks
import VcmlPydrofoil.Correctness.DirectAccess
import VcmlPydrofoil.Correctness.FlatMemory
import VcmlPydrofoil.Correctness.ExclusiveAccess
import VcmlPydrofoil.Plugin.IssuedCalls
import VcmlPydrofoil.Correctness.Linearization
import VcmlPydrofoil.MemoryChannel.Buses
import VcmlPydrofoil.Model.DataSocket
import VcmlPydrofoil.Correctness.VirtualPlatform
import VcmlPydrofoil.Model.ProcessorThread
import VcmlPydrofoil.Correctness.ProcessorTime
import VcmlPydrofoil.Model.Requests
import VcmlPydrofoil.Correctness.Isolation
import VcmlPydrofoil.Correctness.TestProgram
import VcmlPydrofoil.Correctness.WindowCache
