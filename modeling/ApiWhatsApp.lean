import ApiWhatsApp.Library.Machine
import ApiWhatsApp.Library.Table
import ApiWhatsApp.Library.JavaScript
import ApiWhatsApp.Schema
import ApiWhatsApp.Inbox.ConversationActivity
import ApiWhatsApp.Messages.Create
import ApiWhatsApp.Messages.Idempotency
import ApiWhatsApp.Outbound.Completion
import ApiWhatsApp.Outbound.SingleSend
import ApiWhatsApp.Outbound.Stranding
import ApiWhatsApp.Campaigns.Lifecycle
import ApiWhatsApp.Campaigns.Processor
import ApiWhatsApp.Campaigns.System
import ApiWhatsApp.Webhooks.ExactlyOnce
import ApiWhatsApp.Webhooks.LateReports
import ApiWhatsApp.Campaigns.Claims
import ApiWhatsApp.Campaigns.Fencing
import ApiWhatsApp.Campaigns.Completion
import ApiWhatsApp.Campaigns.Counters
import ApiWhatsApp.Campaigns.Linkage
import ApiWhatsApp.Campaigns.OptOut
import ApiWhatsApp.Inbox.Admission
import ApiWhatsApp.Inbox.Capacity
import ApiWhatsApp.Inbox.ResponseSla
import ApiWhatsApp.Campaigns.Analytics
import ApiWhatsApp.Campaigns.Audience
import ApiWhatsApp.Inbox.ActivityTimes
import ApiWhatsApp.Library.KeyStore
import ApiWhatsApp.Media.Orphans
import ApiWhatsApp.Messages.Payloads
import ApiWhatsApp.Messages.Sendable
import ApiWhatsApp.Outbound.Broker
import ApiWhatsApp.Outbound.DeadLetters
import ApiWhatsApp.Outbound.RateLimiter
import ApiWhatsApp.Outbound.RetryBudget
import ApiWhatsApp.PhoneNumbers.Ownership
import ApiWhatsApp.Webhooks.Templates
import ApiWhatsApp.CannedResponses.Policy
import ApiWhatsApp.CannedResponses.Updates
import ApiWhatsApp.Config.ProductionConfig
import ApiWhatsApp.Contacts.ConsentHistory
import ApiWhatsApp.Media.Configuration
import ApiWhatsApp.Observability.Propagation
import ApiWhatsApp.Inbox.Routing
import ApiWhatsApp.Outbound.Headroom
import ApiWhatsApp.PhoneNumbers.DefaultSender
import ApiWhatsApp.Templates.Pages
import ApiWhatsApp.Library.Loop
import ApiWhatsApp.Templates.Sync
import ApiWhatsApp.Webhooks.Catalogue
import ApiWhatsApp.Webhooks.Poison
import ApiWhatsApp.Webhooks.Sequential
import ApiWhatsApp.Lists.Cursors
import ApiWhatsApp.CannedResponses.Pages
import ApiWhatsApp.Media.Cleanup
import ApiWhatsApp.Media.JpegStructure
import ApiWhatsApp.Media.MalwareScanner
import ApiWhatsApp.InboxEvents.Envelopes
import ApiWhatsApp.Campaigns.Personalization
import ApiWhatsApp.Observability.SpanDelivery
import ApiWhatsApp.Media.AmrStructure
import ApiWhatsApp.Media.Checksums
import ApiWhatsApp.Media.MpegStructure
import ApiWhatsApp.Media.OggOpusStream
import ApiWhatsApp.Media.PngStructure
import ApiWhatsApp.Media.IsoBmffStructure
import ApiWhatsApp.Auth.ApiKeys
import ApiWhatsApp.Media.AacStructure
import ApiWhatsApp.Media.OoxmlPackage
import ApiWhatsApp.Media.PdfStructure
import ApiWhatsApp.Media.ContentSignature
import ApiWhatsApp.Inbox.Assignments
import ApiWhatsApp.Media.S3Signature
