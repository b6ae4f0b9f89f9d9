import AiLabOs.Base.Text
import AiLabOs.Base.Failure
import AiLabOs.Base.Query
import AiLabOs.WaitingFor.Views
import AiLabOs.WaitingFor.EventLog
import AiLabOs.UserTask.Repository
import AiLabOs.Process.Safety
import AiLabOs.Interaction.AuditChain
import AiLabOs.Interaction.Evidence
import AiLabOs.Interaction.Consumption
import AiLabOs.UserTask.Filters
import AiLabOs.Reminder.PendingCancel
import AiLabOs.Reminder.StaleTrigger
import AiLabOs.Reminder.FinishedTask
import AiLabOs.System.Teardown
import AiLabOs.System.Admission
import AiLabOs.Task.ControlCalls
import AiLabOs.Scheduler.Fencing
import AiLabOs.Scheduler.Policy
import AiLabOs.Scheduler.Accounting
import AiLabOs.Scheduler.Ticks
import AiLabOs.UserTask.Isolation
import AiLabOs.WorkLog.Isolation
import AiLabOs.Memory.Queries
import AiLabOs.Assistant.TaskHandler
import AiLabOs.Scheduler.Capacity
import AiLabOs.Interaction.VerifiedFacts
import AiLabOs.Inbox.Clock
import AiLabOs.Reminder.Reschedule
import AiLabOs.Coordination.Orchestrator
import AiLabOs.Memory.Decisions
import AiLabOs.Coordination.MessageBus
import AiLabOs.Workflow.Cancellation
import AiLabOs.DailyReview.Finalize
import AiLabOs.Interaction.PolicyStability
import AiLabOs.Inbox.Listing
import AiLabOs.Scheduler.Cron
import AiLabOs.WorkLog.Localize
import AiLabOs.Reminder.Inbox
import AiLabOs.Agenda.Today
import AiLabOs.Workflow.Accounting
import AiLabOs.Reminder.Identities
import AiLabOs.Knowledge.Coverage
import AiLabOs.Knowledge.Hybrid
import AiLabOs.Knowledge.ResultCache
import AiLabOs.Assistant.Identifiers
import AiLabOs.Errors.Sanitize
import AiLabOs.Assistant.ReminderTimes
import AiLabOs.Scheduler.StoredTimes
import AiLabOs.DailyReview.Paging
import AiLabOs.Knowledge.KeywordIndex
import AiLabOs.Interaction.EvidenceIdentity
import AiLabOs.Memory.Retrieval
import AiLabOs.Memory.Sessions
import AiLabOs.Tools.Calculator
import AiLabOs.Bus.TaskQueue
import AiLabOs.Database.Leases
import AiLabOs.Agents.Runtime
