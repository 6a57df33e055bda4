import AnatoliaBis.Audit.Postgres
import AnatoliaBis.Auth.Replay
import AnatoliaBis.Auth.Rotation
import AnatoliaBis.Auth.Sessions
import AnatoliaBis.Auth.SessionGate
import AnatoliaBis.Auth.SecondFactor
import AnatoliaBis.Auth.GuessBound
import AnatoliaBis.Auth.RecoverySet
import AnatoliaBis.App.FourEyes
import AnatoliaBis.App.ReviewOutcome
import AnatoliaBis.App.ReviewAudit
import AnatoliaBis.App.MandatoryAudit
import AnatoliaBis.App.FlagUpdates
import AnatoliaBis.App.Links
import AnatoliaBis.App.PasswordChange
import AnatoliaBis.App.ProfileEdit
import AnatoliaBis.App.StaleAccess
import AnatoliaBis.App.LastAdmin
import AnatoliaBis.App.Decisions
import AnatoliaBis.App.Enumeration
import AnatoliaBis.RateKeys
import AnatoliaBis.RateBound
import AnatoliaBis.App.Listing
import AnatoliaBis.App.Gates
import AnatoliaBis.App.Stamps
import AnatoliaBis.Biometric.Schema
import AnatoliaBis.App.TemplateScope
import AnatoliaBis.App.Pagination
import AnatoliaBis.App.AuditFilter
import AnatoliaBis.Biometric.TopMatches
import AnatoliaBis.Biometric.Pipeline
import AnatoliaBis.Biometric.Detection
import AnatoliaBis.Biometric.Warp
import AnatoliaBis.Calibration.Auc
import AnatoliaBis.Cases.Failure
import AnatoliaBis.Cases.WriteIsolation
import AnatoliaBis.Cases.ReadIsolation
import AnatoliaBis.Org.Escalation
import AnatoliaBis.Osint.ReverseContext
import AnatoliaBis.Auth.Custody
import AnatoliaBis.App.Html
import AnatoliaBis.NationalId
import AnatoliaBis.Biometric.Resize
import AnatoliaBis.Org.Units
import AnatoliaBis.Cases.Evidence
import AnatoliaBis.Osint.AutoOsint
import AnatoliaBis.Osint.Sequential
import AnatoliaBis.Cases.Duplicates
import AnatoliaBis.Cases.Results
import AnatoliaBis.App.Barrier
import AnatoliaBis.App.Bootstrap
import AnatoliaBis.App.Tracking
import AnatoliaBis.Client.Tabs
import AnatoliaBis.Org.Mediation
import AnatoliaBis.Cases.Mediation
import AnatoliaBis.Cases.History
