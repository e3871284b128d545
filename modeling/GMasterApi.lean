import GMasterApi.Store.RedisCache
import GMasterApi.Payment.Redemption
import GMasterApi.User.Quota
import GMasterApi.User.BatchUpdate
import GMasterApi.User.Edits
import GMasterApi.Subscription.PreConsumeRace
import GMasterApi.Subscription.Period
import GMasterApi.Task.Dispatch
import GMasterApi.Payment.WaffoPancake
import GMasterApi.Payment.BalancePurchase
import GMasterApi.Auth.Authorize
import GMasterApi.Auth.Refresh
import GMasterApi.Auth.RevokedRights
import GMasterApi.Auth.TwoFactor
import GMasterApi.Auth.GitHubAccounts
import GMasterApi.Auth.StepUp
import GMasterApi.Task.RemixRatios
import GMasterApi.Task.RatioRounding
import GMasterApi.Task.TokenRecalc
import GMasterApi.Task.StoredQuota
import GMasterApi.Midjourney.Polling
import GMasterApi.Midjourney.FollowUp
import GMasterApi.Channel.Proportional
import GMasterApi.Channel.FairPolling
import GMasterApi.Relay.PruneObjects
import GMasterApi.Relay.RatioParity
import GMasterApi.Relay.CrossGroup
import GMasterApi.Relay.StreamScanner
import GMasterApi.Relay.DisabledFields
import GMasterApi.Relay.RealtimeCharge
import GMasterApi.Relay.AuthorisedModel
import GMasterApi.Relay.ChannelContext
import GMasterApi.Relay.InMemoryRateLimiter
import GMasterApi.Setting.PricingUpdate
import GMasterApi.Setting.LoadedConfig
import GMasterApi.Setting.StatusCodes
import GMasterApi.Convert.WellFormedStream
import GMasterApi.Convert.ThinkingContent
import GMasterApi.Convert.Conversation
import GMasterApi.Convert.UsageFormats
import GMasterApi.Convert.GeminiSchema
import GMasterApi.Convert.GeminiCalls
import GMasterApi.Convert.MarkdownImages
import GMasterApi.Convert.GeminiStream
import GMasterApi.Convert.GeminiChatAgreement
import GMasterApi.Channel.UpstreamModels
import GMasterApi.Relay.VolcengineCodec
import GMasterApi.File.HeifDimensions
import GMasterApi.Subscription.ResetSchedule
import GMasterApi.User.UsageStatistics
import GMasterApi.File.LoadedFiles
import GMasterApi.Payment.CardGateways
import GMasterApi.Convert.ChatToResponses
import GMasterApi.Channel.AffinityKeys
