import Fristenwaechter.Auth.Access
import Fristenwaechter.Behaviour.Forward
import Fristenwaechter.Evidence.Download
import Fristenwaechter.Library.Marks
import Fristenwaechter.Library.Timeline
import Fristenwaechter.Lockout.Versions
import Fristenwaechter.Notifications.Sendable
import Fristenwaechter.Tenancy.Noninterference
import Fristenwaechter.Tenancy.Permanence
import Fristenwaechter.Tenancy.Tombstone
import Fristenwaechter.Tenancy.Export
import Fristenwaechter.Notifiers.Accounting
import Fristenwaechter.Notifications.Recorded
import Fristenwaechter.Notifications.Sms
import Fristenwaechter.Notifications.Identity
import Fristenwaechter.Notifications.Injection
import Fristenwaechter.Plates.Spellings
import Fristenwaechter.Sweeps.Closed
import Fristenwaechter.Deadlines.Obligations
import Fristenwaechter.Sweeps.SevenDays
import Fristenwaechter.Sweeps.Tenants
import Fristenwaechter.Calendar.Durations
import Fristenwaechter.Deadlines.Inspections
import Fristenwaechter.Deadlines.Ahead
import Fristenwaechter.Notifiers.Budget
import Fristenwaechter.Sweeps.Escalations
import Fristenwaechter.Sweeps.Reminders
import Fristenwaechter.Relay.Outbox
import Fristenwaechter.Relay.Queue
import Fristenwaechter.Auth.Exact
import Fristenwaechter.Auth.BruteForce
import Fristenwaechter.Auth.Acceptance
import Fristenwaechter.Evidence.Chain
import Fristenwaechter.Evidence.Forks
import Fristenwaechter.Tenancy.Erasure
import Fristenwaechter.Tenancy.References
import Fristenwaechter.Tenancy.Ownership
import Fristenwaechter.Lockout.Submissions
import Fristenwaechter.Lockout.Informed
import Fristenwaechter.Lockout.Broadcast
import Fristenwaechter.Lockout.Replays
import Fristenwaechter.Lockout.Outstanding
import Fristenwaechter.Lockout.Safety
import Fristenwaechter.Lockout.Effects
import Fristenwaechter.Lockout.Discipline
import Fristenwaechter.Persistence
import Fristenwaechter.Lockout.Deeds
import Fristenwaechter.Behaviour.Jobs
import Fristenwaechter.Behaviour.Within
import Fristenwaechter.Behaviour.Requests
