import MoaWorks.Lib.Machine
import MoaWorks.Lib.History
import MoaWorks.Lib.Table
import MoaWorks.Clock
import MoaWorks.MailQueue
import MoaWorks.MailQueueRuns
import MoaWorks.MailLedger
import MoaWorks.MailResend
import MoaWorks.DailyQuota
import MoaWorks.Lib.Program
import MoaWorks.Lib.Text
import MoaWorks.SmtpTransport
import MoaWorks.DeliveryWorker
import MoaWorks.SmtpRules
import MoaWorks.SmtpOutcome
import MoaWorks.QuotaDelivery
import MoaWorks.Lib.Locks
import MoaWorks.ProviderConfigs
import MoaWorks.ProviderSessions
import MoaWorks.AdminLimit
import MoaWorks.AdminLimitRuns
import MoaWorks.AdminMfa
import MoaWorks.AdminMfaCalls
import MoaWorks.AdminMfaCallRuns
import MoaWorks.AdminMfaGuess
import MoaWorks.AdminMfaReplay
import MoaWorks.BreakGlass
import MoaWorks.BreakGlassLaws
import MoaWorks.Departments
import MoaWorks.DepartmentRuns
import MoaWorks.Actors
import MoaWorks.Delegations
import MoaWorks.DelegationRuns
import MoaWorks.Approvals
import MoaWorks.ApprovalOperations
import MoaWorks.ApprovalVisibility
import MoaWorks.ApprovalOutcomes
import MoaWorks.ApprovalTrash
import MoaWorks.ApprovalWorkflow
import MoaWorks.ApprovalTenants
import MoaWorks.Lib.SharedLocks
import MoaWorks.Signatures
import MoaWorks.SignatureRuns
import MoaWorks.SubmissionMessage
import MoaWorks.Submissions
import MoaWorks.SubmissionRuns
import MoaWorks.AuthService
import MoaWorks.AuthServiceOperations
import MoaWorks.AuthServiceRuns
import MoaWorks.AuthServiceReplace
import MoaWorks.AuthServiceFinish
import MoaWorks.OrgUsers
import MoaWorks.OrgBatches
import MoaWorks.OrgEffects
import MoaWorks.OrgHeads
import MoaWorks.Lib.TextLaws
import MoaWorks.OrgPayload
import MoaWorks.OrgMissing
import MoaWorks.OrgTree
import MoaWorks.InboundIngest
import MoaWorks.InboundWrites
import MoaWorks.InboundRuns
import MoaWorks.MailPolicies
import MoaWorks.MailTables
import MoaWorks.MailViews
import MoaWorks.MailCompose
import MoaWorks.MailSending
import MoaWorks.MailBulk
import MoaWorks.MailRuns
import MoaWorks.MailAccess
import MoaWorks.MailBulkLaws
import MoaWorks.MessengerRooms
import MoaWorks.MessengerRuns
import MoaWorks.MessengerLaws
import MoaWorks.Lib.Sessions
import MoaWorks.NotificationCenter
import MoaWorks.NotificationLaws
import MoaWorks.Lib.TableOrder
import MoaWorks.NotificationTenants
import MoaWorks.BackupRuns
import MoaWorks.BackupSteps
import MoaWorks.BackupLaws
import MoaWorks.ExternalAccounts
import MoaWorks.ExternalCollection
import MoaWorks.ExternalRuns
import MoaWorks.ExternalImportLaws
import MoaWorks.ExternalAccountLaws
import MoaWorks.ExternalImports
import MoaWorks.ExternalSteps
import MoaWorks.ExternalSettings
import MoaWorks.ExternalSettingsLaws
import MoaWorks.AlertLaws
import MoaWorks.Lib.TableTotals
import MoaWorks.NotificationMerges
import MoaWorks.ReminderLaws
import MoaWorks.SenderOutbox
import MoaWorks.SenderOutboxLaws
import MoaWorks.OperationalBackupLaws
import MoaWorks.FilePermissions
import MoaWorks.PersonalAi
import MoaWorks.PersonalAiLaws
import MoaWorks.BackupArtifacts
import MoaWorks.BackupArtifactLaws
import MoaWorks.Calendars
import MoaWorks.CalendarLaws
import MoaWorks.CalendarRuns
import MoaWorks.AutoClassification
import MoaWorks.AutoClassificationLaws
import MoaWorks.AutoClassificationRuns
import MoaWorks.MobileSession
import MoaWorks.MobileSessionLaws
import MoaWorks.MobileSessionRuns
import MoaWorks.TranslationReviews
import MoaWorks.TranslationReviewLaws
import MoaWorks.TranslationReviewRuns
import MoaWorks.MailboxSettings
import MoaWorks.MailboxSettingsLaws
import MoaWorks.MailboxRetention
import MoaWorks.MailboxRetentionLaws
import MoaWorks.MailboxRetentionRuns
import MoaWorks.MailboxRetentionClears
import MoaWorks.Lib.Paging
import MoaWorks.MessengerMessages
import MoaWorks.NotificationPaging
import MoaWorks.Pop3Retrieval
import MoaWorks.MailStyles
import MoaWorks.MailStyleLaws
import MoaWorks.SenderReconciliation
import MoaWorks.SenderReconciliationLaws
import MoaWorks.ContactImport
import MoaWorks.ContactImportLaws
import MoaWorks.Lib.Window
import MoaWorks.ExternalProgress
import MoaWorks.ExternalProgressLaws
import MoaWorks.MonitoringRules
import MoaWorks.RuleLaws
import MoaWorks.Lib.Floats
import MoaWorks.Lib.Paths
import MoaWorks.MailDocuments
import MoaWorks.MailSegments
import MoaWorks.MailDocumentLaws
import MoaWorks.MailSegmentLaws
import MoaWorks.Lib.Lines
import MoaWorks.SmtpData
import MoaWorks.ForwardRules
import MoaWorks.MailAttributes
import MoaWorks.SubmissionCleaning
import MoaWorks.Lib.Mime
import MoaWorks.Lib.MimeLaws
import MoaWorks.BackupMessages
import MoaWorks.BackupMessageLaws
import MoaWorks.BackupMessageReading
import MoaWorks.BackupMessageMails
