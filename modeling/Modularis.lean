import Modularis.Onboarding.SagaLog
import Modularis.Onboarding.Recovery
import Modularis.Onboarding.Agreement
import Modularis.Onboarding.Compensation
import Modularis.Onboarding.Refusal
import Modularis.Onboarding.LockedSends
import Modularis.Webhook.Delivery
import Modularis.Identity.Redelivery
import Modularis.Membership.Activation
import Modularis.Payments.Lifecycle
import Modularis.Payments.Uniqueness
import Modularis.Payments.Announcements
import Modularis.Payments.Redelivery
import Modularis.Payments.Lossless
import Modularis.EndToEnd.Confirmation
import Modularis.EndToEnd.Upgrade
import Modularis.EndToEnd.Compensation
import Modularis.Webhook.Validation
import Modularis.Webhook.RoundTrip
import Modularis.Webhook.Registration
import Modularis.Webhook.Publisher
import Modularis.Payments.Decision
import Modularis.Payments.Replays
import Modularis.Payments.MemoryRepository
import Modularis.Membership.OutboxPublisher
import Modularis.Shared.RpcReplies
import Modularis.Identity.Store
import Modularis.Webhook.Confirmations
import Modularis.Payments.Reservation
import Modularis.Onboarding.FailureStatus
import Modularis.Onboarding.Termination
import Modularis.Onboarding.SagaRows
import Modularis.Shared.StableHash
import Modularis.Identity.Conflicts
import Modularis.Gateway.UserEventStream
import Modularis.Payments.Batches
import Modularis.Platform.ManualApiConsole
import Modularis.Payments.Retry
import Modularis.Shared.Backoff
import Modularis.EndToEnd.Account
import Modularis.Payments.Drain
import Modularis.Webhook.Drain
import Modularis.Membership.Drain
import Modularis.EndToEnd.Requests
import Modularis.Gateway.AccountController
import Modularis.Onboarding.Drain
import Modularis.EndToEnd.Clients
import Modularis.EndToEnd.Customers
import Modularis.Gateway.AuthGuard
import Modularis.Payments.Broadcasts
import Modularis.Membership.Relay
import Modularis.Gateway.EventStreamController
import Modularis.EndToEnd.Streams
