import NomoApi.Billing.RefundRetry
import NomoApi.Subscription.Periods
import NomoApi.Tasks.Pollers
import NomoApi.Tasks.FailureRefunds
import NomoApi.TopUp.OrderRuns
import NomoApi.Quota.Redeem
import NomoApi.Quota.UserRow
import NomoApi.Quota.BatchUpdate
import NomoApi.Channels.SelectAgree
import NomoApi.Relay.StreamRetry
import NomoApi.Billing.Concurrent
import NomoApi.Subscription.ConcurrentConsume
import NomoApi.TopUp.ConcurrentCompletion
import NomoApi.Subscription.UsedBounds
import NomoApi.Billing.TextInvoice
import NomoApi.Midjourney.Refunds
import NomoApi.Tasks.TokenPrices
import NomoApi.Channels.CachedKeys
import NomoApi.Channels.KeyDeletion
import NomoApi.Channels.KeyRuns
import NomoApi.Channels.PollingSave
import NomoApi.Quota.UserCache
import NomoApi.Relay.Attempts
import NomoApi.TopUp.Tokens
import NomoApi.TwoFactor.Validation
import NomoApi.Audit.Prompt
import NomoApi.Audit.RuleCache
import NomoApi.Billing.PricingSync
import NomoApi.Channels.UpstreamModels
import NomoApi.Fetch.Protection
import NomoApi.Overrides.Passthrough
import NomoApi.RateLimit.Model
import NomoApi.Relay.StreamScanner
import NomoApi.Convert.OpenAIRequest
import NomoApi.Relay.OaiStream
import NomoApi.Relay.ResponsesStream
import NomoApi.Relay.StreamDelivery
import NomoApi.Gemini.Markdown
