import TinyToken.SubscriptionInterleaving
import TinyToken.SubscriptionIdempotence
import TinyToken.SubscriptionRefundRetry
import TinyToken.SubscriptionGroupHistory
import TinyToken.BillingOvercommit
import TinyToken.MidjourneyTasks
import TinyToken.SlipReuse
import TinyToken.ChatWebhooks
import TinyToken.SubscriptionPurchases
import TinyToken.PaymentDeliveryRuns
import TinyToken.EpayOrders
import TinyToken.AsyncTaskRuns
import TinyToken.BatchUpdates
import TinyToken.UserAdmission
import TinyToken.HeaderOverrides
import TinyToken.ClaudeStreamContent
import TinyToken.ClaudeStreamOrder
import TinyToken.ChatToClaude
import TinyToken.ClaudeRequests
import TinyToken.ClaudeResponses
import TinyToken.GeminiRequests
import TinyToken.GeminiStream
import TinyToken.ResponsesStreamAgreement
import TinyToken.StreamScannerDelivery
import TinyToken.OpenAIStream
import TinyToken.UsageConversions
import TinyToken.ExpressionCache
import TinyToken.ChannelRetries
import TinyToken.ChannelSelection
import TinyToken.RequestPricing
import TinyToken.RateLimits
import TinyToken.SundaySearch
