import BirthdayRole.Lib.Calendar
import BirthdayRole.Lib.Text
import BirthdayRole.Lib.Json
import BirthdayRole.Birthday
import BirthdayRole.ConditionEval
import BirthdayRole.RuleValidator
import BirthdayRole.Lib.Like
import BirthdayRole.Lib.Sql
import BirthdayRole.BdaySql
import BirthdayRole.Lib.Result
import BirthdayRole.RuleMeaning
import BirthdayRole.Db
import BirthdayRole.RuleSql
import BirthdayRole.RuleAgreement
import BirthdayRole.QuerySafety
import BirthdayRole.Lib.Reach
import BirthdayRole.Lib.Table
import BirthdayRole.Jobs
import BirthdayRole.JobQueue
import BirthdayRole.JobWorker
import BirthdayRole.Users
import BirthdayRole.RoleLinks
import BirthdayRole.Editors
import BirthdayRole.Lib.Fields
import BirthdayRole.RlToken
import BirthdayRole.Database
import BirthdayRole.Http
import BirthdayRole.Routes
import BirthdayRole.ReadOnly
import BirthdayRole.LinkAuthority
import BirthdayRole.Lib.Pool
import BirthdayRole.Lib.Mirror
import BirthdayRole.RoleLogic
import BirthdayRole.SyncWorld
import BirthdayRole.Sync
import BirthdayRole.Changes
import BirthdayRole.SyncPhases
import BirthdayRole.SyncMirror
import BirthdayRole.SyncTarget
import BirthdayRole.SyncUpload
import BirthdayRole.SyncPlayers
import BirthdayRole.Celebration
import BirthdayRole.RuleRoundTrip
import BirthdayRole.IframeTokens
import BirthdayRole.JobAttempts
import BirthdayRole.BirthdayWrites
import BirthdayRole.Lib.Faults
import BirthdayRole.RuleAsSubmitted
import BirthdayRole.LinkHistory
import BirthdayRole.Lib.Trace
import BirthdayRole.PlayerFailures
import BirthdayRole.OrphanLinks
import BirthdayRole.ConfigWrites
import BirthdayRole.Lib.Bound
import BirthdayRole.SyncBound
import BirthdayRole.Service
import BirthdayRole.JobsInHand
import BirthdayRole.Quiescence
import BirthdayRole.Age
import BirthdayRole.Lib.Placeholders
import BirthdayRole.RuleText
import BirthdayRole.UploadReplies
import BirthdayRole.Lib.Replace
import BirthdayRole.Lib.JsString
import BirthdayRole.Lib.Template
import BirthdayRole.Pages
import BirthdayRole.Ticks
import BirthdayRole.DateChanges
import BirthdayRole.Requests
import BirthdayRole.StoredData
import BirthdayRole.JobOutcomes
import BirthdayRole.Preview
import BirthdayRole.Answers
import BirthdayRole.GatewayReplies
import BirthdayRole.Lib.Observed
import BirthdayRole.Lib.Fair
import BirthdayRole.Shutdown
import BirthdayRole.Registers
import BirthdayRole.Lib.Percent
import BirthdayRole.Cookies
import BirthdayRole.Lib.Backoff
import BirthdayRole.RetryTimes
import BirthdayRole.RuleEditor
import BirthdayRole.EditorSaves
import BirthdayRole.VerifyForm
import BirthdayRole.Config
