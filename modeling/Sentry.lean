import Sentry.Main
import Sentry.Enemy.Inspect
import Sentry.Enemy.Sandbox
import Sentry.Enemy.Squad
import Sentry.Trace.Inspect
import Sentry.Trace.Json
import Sentry.Proofs.Number.Packing
import Sentry.Proofs.Number.Neighbours
import Sentry.Proofs.Number.Signs
import Sentry.Proofs.Number.Moment
import Sentry.Proofs.Number.Operations
import Sentry.Proofs.Number.Lengths
import Sentry.Proofs.Number.Exactness
import Sentry.Proofs.Number.Differences
import Sentry.Proofs.Number.Directions
import Sentry.Proofs.Number.Patterns
import Sentry.Proofs.Tree.Composites
import Sentry.Proofs.Tree.Flattening
import Sentry.Proofs.Tree.Visits
import Sentry.Proofs.Tree.Duality
import Sentry.Proofs.Tree.Lifecycle
import Sentry.Proofs.Decimal.Residues
import Sentry.Proofs.Decimal.Ends
import Sentry.Proofs.Decimal.Value
import Sentry.Proofs.Decimal.Choice
import Sentry.Proofs.Decimal.Spelling
import Sentry.Proofs.Decimal.Literals
import Sentry.Proofs.Decimal.Return
import Sentry.Proofs.Enemy.Numbers
import Sentry.Proofs.Enemy.Records
import Sentry.Proofs.Enemy.Saved
import Sentry.Proofs.Enemy.Admission
import Sentry.Proofs.Enemy.Scalars
import Sentry.Proofs.Enemy.Settings
import Sentry.Proofs.Enemy.Listings
import Sentry.Proofs.Yaml.Words
import Sentry.Proofs.Yaml.Lines
import Sentry.Proofs.Yaml.Entries
import Sentry.Proofs.Yaml.Documents
import Sentry.Proofs.Timer.Clock
import Sentry.Proofs.Timer.Agenda
import Sentry.Proofs.Timer.Slicing
import Sentry.Proofs.Timer.Bounds
import Sentry.Proofs.Timer.Announcements
import Sentry.Proofs.Frame.Steps
import Sentry.Proofs.Enemy.Verdict
import Sentry.Proofs.Enemy.Effects
import Sentry.Proofs.Enemy.Beats
import Sentry.Proofs.Enemy.Settling
import Sentry.Proofs.Enemy.Armed
import Sentry.Proofs.Enemy.Pending
import Sentry.Proofs.Enemy.Timeline
import Sentry.Proofs.Enemy.Mirror
import Sentry.Proofs.Enemy.Accounting
import Sentry.Proofs.Enemy.Turns
import Sentry.Proofs.Enemy.Requests
import Sentry.Proofs.Enemy.Isolation
import Sentry.Proofs.Enemy.Events
import Sentry.Proofs.Enemy.Labels
import Sentry.Proofs.Enemy.Scripts
import Sentry.Proofs.Enemy.Peers
import Sentry.Proofs.Enemy.Display
import Sentry.Proofs.Enemy.Course
import Sentry.Proofs.Enemy.Abreast
import Sentry.Proofs.Enemy.Upkeep
import Sentry.Proofs.Enemy.Chronicle
import Sentry.Proofs.Enemy.Equipped
import Sentry.Proofs.Enemy.Route
import Sentry.Proofs.Enemy.Approach
import Sentry.Proofs.Enemy.Movement
import Sentry.Proofs.Json.Lexing
import Sentry.Proofs.Json.Reading
import Sentry.Proofs.Trace.RoundTrip
import Sentry.Proofs.Trace.Conservation
import Sentry.Proofs.Arena.Safety
