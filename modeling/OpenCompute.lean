import OpenCompute.Queue.DeadLetter
import OpenCompute.Queue.Conservation
import OpenCompute.Queue.Restart
import OpenCompute.Queue.Idempotency
import OpenCompute.Cron.Reports
import OpenCompute.Queue.Wakeups
import OpenCompute.D1.Exclusion
import OpenCompute.Queue.Counters
import OpenCompute.Alarm.Authority
import OpenCompute.OutputGate.Settling
import OpenCompute.Cache.Refresh
import OpenCompute.Vectorize.Frontier
import OpenCompute.Containers.Rollouts
import OpenCompute.Resources.Deletion
import OpenCompute.Deployments.Pins
import OpenCompute.Queue.Disposition
import OpenCompute.Queue.Frame
import OpenCompute.Workflow.Claimable
import OpenCompute.Cron.Folding
import OpenCompute.Queue.Deletion
import OpenCompute.Scheduler.Shares
import OpenCompute.Workflow.Decisions
import OpenCompute.R2.ConditionalPut
import OpenCompute.Workflow.Delivery
