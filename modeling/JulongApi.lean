import JulongApi.Proofs.Session.Refund
import JulongApi.Proofs.SubscriptionSystem
import JulongApi.Proofs.SubscriptionRefund
import JulongApi.Proofs.TaskStatus
import JulongApi.Proofs.TaskRefund
import JulongApi.Proofs.TaskSettlement
import JulongApi.Proofs.AudioSettle
import JulongApi.Proofs.TextReplacement
import JulongApi.Proofs.BatchUpdate
import JulongApi.Proofs.TopUp
import JulongApi.Proofs.Midjourney
import JulongApi.Proofs.MidjourneyAction
import JulongApi.Proofs.QuotaCache
import JulongApi.Proofs.FixedPricing
import JulongApi.Proofs.ExprCache
import JulongApi.Proofs.SystemTask
import JulongApi.Proofs.Invoice
import JulongApi.Proofs.UserSessionRotation
import JulongApi.Proofs.UserSessionCache
import JulongApi.Proofs.UserAuthCache
import JulongApi.Proofs.SubscriptionGroup
import JulongApi.Proofs.SubscriptionOrder
import JulongApi.Proofs.WebBillingExpr
import JulongApi.Proofs.RelayOrder
import JulongApi.Proofs.ChatClaudeContent
import JulongApi.Proofs.ResponsesClaude
import JulongApi.Proofs.PluginProtocol
import JulongApi.Proofs.EffectivePricing
import JulongApi.Proofs.RateLimit
import JulongApi.Proofs.EmailCampaign
import JulongApi.Proofs.TwoFactor
import JulongApi.Proofs.ModelRateLimit
import JulongApi.Proofs.PluginRouter
import JulongApi.Proofs.RedemptionCharge
import JulongApi.Proofs.TieredSettle
import JulongApi.Proofs.TextQuota
import JulongApi.Proofs.TaskPolling
import JulongApi.Proofs.StreamScanner
import JulongApi.Proofs.SubscriptionClock
import JulongApi.Proofs.KeyEdit
import JulongApi.Proofs.KeyPolling
import JulongApi.Proofs.OverrideNegative
import JulongApi.Proofs.OverrideChange
import JulongApi.Proofs.OverrideDelete
import JulongApi.Proofs.OverridePrune
import JulongApi.Proofs.OverrideLegacy
import JulongApi.Proofs.OverrideMove
import JulongApi.Proofs.TokenBucket
import JulongApi.Proofs.EmailTemplate
import JulongApi.Proofs.EmailDispatch
import JulongApi.Proofs.UsageMerge
import JulongApi.Proofs.ModelModifierOrder
import JulongApi.Proofs.ReasoningPivot
