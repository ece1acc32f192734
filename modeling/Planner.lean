import Planner.CommandLine.Run
import Planner.Config
import Planner.Main
import Planner.Proofs.CommandLine.Runs
import Planner.Proofs.Sql.Completeness
import Planner.Proofs.Sql.Literal
import Planner.Proofs.Sql.Simulation
import Planner.Proofs.Transfer.RoundTrip
import Planner.Proofs.Transfer.Uniqueness
import Planner.Proofs.Sql.Inline
import Planner.Proofs.Sql.Meaning
import Planner.Proofs.Store.Backend
import Planner.Proofs.Store.Keys
import Planner.Proofs.Store.Placing
import Planner.Proofs.Operations
import Planner.Proofs.Legible
import Planner.Proofs.Unreadable
import Planner.Proofs.References
import Planner.Proofs.Independence
import Planner.Proofs.Reopening
import Planner.Proofs.DueDates
import Planner.Proofs.Json.Order
import Planner.Proofs.Selection
import Planner.Proofs.IntegerOrder
import Planner.Proofs.Habits.Relogging
import Planner.Proofs.Habits.Runs
import Planner.Proofs.Habits.SuccessRate
import Planner.Proofs.Filters
import Planner.Proofs.DueWindows
import Planner.Proofs.Ranges
import Planner.Proofs.Notes.Folders
import Planner.Proofs.Notes.Search
import Planner.Proofs.Entity.Patches
import Planner.Proofs.Updates
import Planner.Proofs.Creation
import Planner.Proofs.Store.Deletion
import Planner.Proofs.Preferences
import Planner.Proofs.Config
import Planner.Proofs.Date.Keys
