import RealTimeSystem.System.Restarting
import RealTimeSystem.System.Guarantees
import RealTimeSystem.System.Exclusion
import RealTimeSystem.System.Application
import RealTimeSystem.Main.Exit
import RealTimeSystem.System.Cleanup
import RealTimeSystem.Uspace.Placeholders
import RealTimeSystem.System.Mallocs
import RealTimeSystem.Main.Latency
import RealTimeSystem.Uspace.Priority
import RealTimeSystem.System.Statistics
import RealTimeSystem.System.Retrying
import RealTimeSystem.System.Stats
import RealTimeSystem.System.Exhaustion
import RealTimeSystem.Uspace.Rollback
import RealTimeSystem.Uspace.Clock
import RealTimeSystem.ExampleTask.Controller
import RealTimeSystem.System.Reloading
import RealTimeSystem.System.Registrations
import RealTimeSystem.System.Closing
import RealTimeSystem.System.Orphans
import RealTimeSystem.Hal.Sections
import RealTimeSystem.System.Locking
import RealTimeSystem.System.Undoing
import RealTimeSystem.Uspace.Posix
import RealTimeSystem.System.Exporting
import RealTimeSystem.Hal.Room
import RealTimeSystem.System.Cascade
import RealTimeSystem.System.Release
import RealTimeSystem.System.Cycle
import RealTimeSystem.ExampleTask.History
import RealTimeSystem.System.Accesses
import RealTimeSystem.System.Pointers
import RealTimeSystem.System.Initialising
import RealTimeSystem.System.Traversal
import RealTimeSystem.System.Sharing
import RealTimeSystem.Uspace.Identifiers
import RealTimeSystem.ExampleTask.Commands
import RealTimeSystem.System.Pausing
import RealTimeSystem.System.Correspondence
import RealTimeSystem.System.References
import RealTimeSystem.System.Names
import RealTimeSystem.System.Lifecycle
import RealTimeSystem.Hal.Effects
import RealTimeSystem.System.Mutex
import RealTimeSystem.System.Conservation
import RealTimeSystem.System.Timetable
import RealTimeSystem.System.Boot
