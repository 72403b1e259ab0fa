import EntityMapper.Proofs.Command.Assignments
import EntityMapper.Proofs.Command.Columns
import EntityMapper.Proofs.Command.Edits
import EntityMapper.Proofs.Command.Meaning
import EntityMapper.Proofs.Metadata.Building
import EntityMapper.Proofs.MigrationId
import EntityMapper.Proofs.Native.Fitting
import EntityMapper.Proofs.Native.Registration
import EntityMapper.Proofs.Query.Consistency
import EntityMapper.Proofs.Query.Exactness
import EntityMapper.Proofs.Query.Grammar
import EntityMapper.Proofs.Query.Meaning
import EntityMapper.Proofs.Query.Pushable
import EntityMapper.Proofs.Query.Pushdown
import EntityMapper.Proofs.Query.Sources
import EntityMapper.Proofs.Query.TableFilter
import EntityMapper.Proofs.Save.Failure
import EntityMapper.Proofs.Save.Flags
import EntityMapper.Proofs.Save.Grouping
import EntityMapper.Proofs.Save.Lasting
import EntityMapper.Proofs.Save.Planning
import EntityMapper.Proofs.Save.References
import EntityMapper.Proofs.Save.Scope
import EntityMapper.Proofs.Save.Sending
import EntityMapper.Proofs.Save.Settling
import EntityMapper.Proofs.Save.Success
import EntityMapper.Proofs.Sql.Lexing
import EntityMapper.Proofs.Sql.Names
import EntityMapper.Proofs.Sql.Placeholders
import EntityMapper.Proofs.Sql.ReadBack
import EntityMapper.Proofs.Sql.Select
import EntityMapper.Proofs.Sql.Syntax
import EntityMapper.Proofs.Tracking.Acceptance
import EntityMapper.Proofs.Tracking.Adding
import EntityMapper.Proofs.Tracking.Anchored
import EntityMapper.Proofs.Tracking.Capture
import EntityMapper.Proofs.Tracking.Committing
import EntityMapper.Proofs.Tracking.Detection
import EntityMapper.Proofs.Tracking.Drawing
import EntityMapper.Proofs.Tracking.Drawn
import EntityMapper.Proofs.Tracking.Fields
import EntityMapper.Proofs.Tracking.Keys
import EntityMapper.Proofs.Tracking.Lifecycle
import EntityMapper.Proofs.Tracking.Make
import EntityMapper.Proofs.Tracking.Materializing
import EntityMapper.Proofs.Tracking.Operations
import EntityMapper.Proofs.Tracking.Primary
import EntityMapper.Proofs.Tracking.Refusal
import EntityMapper.Proofs.Tracking.Routing
import EntityMapper.Proofs.Tracking.Sidecars
import EntityMapper.Proofs.Tracking.Snapshot
import EntityMapper.Proofs.Tracking.Stability
import EntityMapper.Proofs.Tracking.Tracked
import EntityMapper.Proofs.Tracking.Typed
import EntityMapper.Proofs.Tracking.Validity
import EntityMapper.Proofs.UnitOfWork.Adding
import EntityMapper.Proofs.UnitOfWork.Changes
import EntityMapper.Proofs.UnitOfWork.Generating
import EntityMapper.Proofs.UnitOfWork.Lifecycle
import EntityMapper.Proofs.UnitOfWork.Made
import EntityMapper.Proofs.UnitOfWork.Materializing
import EntityMapper.Proofs.UnitOfWork.Relationships
import EntityMapper.Proofs.UnitOfWork.Shape
import EntityMapper.Proofs.UnitOfWork.Steps
import EntityMapper.Proofs.UnitOfWork.Tracked
import EntityMapper.Proofs.UnitOfWork.Typed
import EntityMapper.Proofs.Value.Coercion
import EntityMapper.Proofs.Value.Equivalence
import EntityMapper.Proofs.Value.Hashing
import EntityMapper.Proofs.Value.Key
import EntityMapper.Proofs.Value.Numerals
import EntityMapper.Query.Compilation
import EntityMapper.Query.TableFilter
import EntityMapper.Save.Execution
import EntityMapper.Sql.Select
import EntityMapper.Tracking.Factory
