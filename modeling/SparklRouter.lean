import SparklRouter.Capacity.Queue
import SparklRouter.Capacity.Admission
import SparklRouter.Chain.Usage
import SparklRouter.Tunnel.Connect
import SparklRouter.Tunnel.Ownership
import SparklRouter.Consumer.UsageBatch
import SparklRouter.Consumer.UsageSteps
import SparklRouter.Tunnel.Takeover
import SparklRouter.Consumer.UsageLedger
import SparklRouter.Consumer.UsageConservation
import SparklRouter.Consumer.UsageClosing
import SparklRouter.Consumer.UsageRestore
import SparklRouter.Consumer.Sse
import SparklRouter.Consumer.SseLocal
import SparklRouter.Consumer.SseComplete
import SparklRouter.Capacity.Waiters
import SparklRouter.Tunnel.Multiplex
import SparklRouter.Consumer.SseMetering
import SparklRouter.Catalog.Offerings
import SparklRouter.Catalog.Models
import SparklRouter.Catalog.Poisoning
import SparklRouter.Chain.Session
import SparklRouter.Chain.Escrow
import SparklRouter.Consumer.Middleware
import SparklRouter.Chain.Verifier
import SparklRouter.Consumer.UsageUnread
import SparklRouter.Tunnel.Displaced
import SparklRouter.Tunnel.Disconnect
import SparklRouter.Tunnel.Orphans
import SparklRouter.Catalog.Ghosts
import SparklRouter.Catalog.Views
import SparklRouter.Consumer.UsageShutdown
import SparklRouter.Chain.Watcher
import SparklRouter.Consumer.UsageExecutor
import SparklRouter.Consumer.UsageDeadlock
import SparklRouter.Text.JsonText
import SparklRouter.Consumer.RequestBody
import SparklRouter.Consumer.ChatCompletions
import SparklRouter.Consumer.Metering
import SparklRouter.Consumer.MeteringChunks
import SparklRouter.Capacity.Release
import SparklRouter.Consumer.SseOnce
import SparklRouter.Consumer.SseRefines
import SparklRouter.Numeric.Width
import SparklRouter.Catalog.Load
import SparklRouter.Catalog.Providers
import SparklRouter.Catalog.Limits
import SparklRouter.Consumer.Relay
import SparklRouter.Text.Utf8Lossy
import SparklRouter.Consumer.ForwardedHeaders
import SparklRouter.Text.Radix
import SparklRouter.Consumer.Activate
import SparklRouter.Tunnel.Pending
import SparklRouter.Capacity.Places
import SparklRouter.Consumer.UsageThreshold
import SparklRouter.Consumer.UsageRefresh
import SparklRouter.Catalog.Query
import SparklRouter.Chain.SessionGetter
import SparklRouter.Text.Digits
import SparklRouter.Text.Base58
import SparklRouter.Consumer.SessionId
import SparklRouter.Capacity.Readings
import SparklRouter.Consumer.CapacityTelemetry
import SparklRouter.Consumer.CapacitySettles
import SparklRouter.Consumer.Billing
import SparklRouter.Consumer.BillingSettles
import SparklRouter.Concurrency.Semaphore
import SparklRouter.Capacity.Refinement
import SparklRouter.Capacity.Stages
import SparklRouter.Consumer.CapacityRequests
import SparklRouter.Tunnel.Keepalive
import SparklRouter.Concurrency.Broadcast
import SparklRouter.Status.Subscribe
import SparklRouter.Status.LastWord
import SparklRouter.Catalog.QueryParams
import SparklRouter.Chain.RecordUsageKey
import SparklRouter.Chain.RecordUsageStarts
import SparklRouter.Chain.RecordUsageRole
import SparklRouter.Catalog.Lists
import SparklRouter.Text.Tagged
import SparklRouter.Tunnel.Protocol
import SparklRouter.Tunnel.Wire
import SparklRouter.Catalog.Throttle
import SparklRouter.Status.NodeEvents
