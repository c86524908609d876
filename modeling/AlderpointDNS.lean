import AlderpointDNS.Analytics.Collector
import AlderpointDNS.Analytics.Feeds
import AlderpointDNS.Analytics.Frames
import AlderpointDNS.Analytics.PolicyIndex
import AlderpointDNS.Analytics.ProtobufFields
import AlderpointDNS.Analytics.Pruning
import AlderpointDNS.Backup.Chunks
import AlderpointDNS.Backup.Extraction
import AlderpointDNS.Backup.Interrupted
import AlderpointDNS.Backup.LeftOut
import AlderpointDNS.Backup.Promotion
import AlderpointDNS.Backup.Requests
import AlderpointDNS.Backup.Retention
import AlderpointDNS.Backup.Rollback
import AlderpointDNS.Backup.Superseded
import AlderpointDNS.Blocklists.Categories
import AlderpointDNS.Blocklists.Migration
import AlderpointDNS.Clients.Access
import AlderpointDNS.Clients.Aliases
import AlderpointDNS.Clients.Compiled
import AlderpointDNS.Clients.EffectiveAccess
import AlderpointDNS.Clients.Identifiers
import AlderpointDNS.Clients.Import
import AlderpointDNS.Clients.Labels
import AlderpointDNS.Clients.Ownership
import AlderpointDNS.Clients.Tables
import AlderpointDNS.CustomRules.ActiveRules
import AlderpointDNS.CustomRules.Duplicates
import AlderpointDNS.CustomRules.Evaluate
import AlderpointDNS.CustomRules.External
import AlderpointDNS.CustomRules.Histories
import AlderpointDNS.CustomRules.Modifiers
import AlderpointDNS.CustomRules.Parser
import AlderpointDNS.CustomRules.Policy
import AlderpointDNS.CustomRules.Precedence
import AlderpointDNS.CustomRules.Regex
import AlderpointDNS.CustomRules.RegexNesting
import AlderpointDNS.CustomRules.Rpz
import AlderpointDNS.CustomRules.Rule
import AlderpointDNS.CustomRules.SelfTest
import AlderpointDNS.CustomRules.Store
import AlderpointDNS.CustomRules.ZoneFile
import AlderpointDNS.Deploy.AllowCheck
import AlderpointDNS.Deploy.Contributions
import AlderpointDNS.Deploy.Coordinator
import AlderpointDNS.Deploy.Lock
import AlderpointDNS.Deploy.Pacing
import AlderpointDNS.Deploy.Pipeline
import AlderpointDNS.Deploy.Reuse
import AlderpointDNS.Deploy.Sources
import AlderpointDNS.Deploy.Toggle
import AlderpointDNS.DnsCache.Flushes
import AlderpointDNS.DnsdistUpgrade.Install
import AlderpointDNS.DnsdistUpgrade.Restore
import AlderpointDNS.Domains
import AlderpointDNS.Encryption.EnvOverride
import AlderpointDNS.Encryption.Restores
import AlderpointDNS.Importer.Adguard
import AlderpointDNS.Importer.Apply
import AlderpointDNS.Importer.Emitted
import AlderpointDNS.Importer.ExposedUrls
import AlderpointDNS.Importer.Histories
import AlderpointDNS.Importer.Items
import AlderpointDNS.Importer.Log
import AlderpointDNS.Importer.Outcomes
import AlderpointDNS.Importer.Pihole
import AlderpointDNS.Importer.Plan
import AlderpointDNS.Importer.Previews
import AlderpointDNS.Importer.RecordJobs
import AlderpointDNS.Importer.Redaction
import AlderpointDNS.Importer.Repeats
import AlderpointDNS.Importer.Rollback
import AlderpointDNS.Importer.SanitizedUrls
import AlderpointDNS.Importer.ZoneRecords
import AlderpointDNS.Importer.ZoneText
import AlderpointDNS.Lib.Commits
import AlderpointDNS.Lib.Counters
import AlderpointDNS.Lib.Csv
import AlderpointDNS.Lib.CsvText
import AlderpointDNS.Lib.DebianVersion
import AlderpointDNS.Lib.Dict
import AlderpointDNS.Lib.Disks
import AlderpointDNS.Lib.DnsMessage
import AlderpointDNS.Lib.Encodings
import AlderpointDNS.Lib.FileTree
import AlderpointDNS.Lib.Framing
import AlderpointDNS.Lib.IpText
import AlderpointDNS.Lib.Ipaddress
import AlderpointDNS.Lib.Lexicographic
import AlderpointDNS.Lib.Lines
import AlderpointDNS.Lib.Lua
import AlderpointDNS.Lib.Numerals
import AlderpointDNS.Lib.Patterns
import AlderpointDNS.Lib.Pool
import AlderpointDNS.Lib.Positions
import AlderpointDNS.Lib.Programs
import AlderpointDNS.Lib.Protobuf
import AlderpointDNS.Lib.Results
import AlderpointDNS.Lib.Runs
import AlderpointDNS.Lib.Tables
import AlderpointDNS.Lib.Text
import AlderpointDNS.Lib.TextFiles
import AlderpointDNS.Lib.Undo
import AlderpointDNS.Lib.Upsert
import AlderpointDNS.Lib.Urls
import AlderpointDNS.Lib.Windows
import AlderpointDNS.LocalDns.Answers
import AlderpointDNS.LocalDns.Cname
import AlderpointDNS.LocalDns.CsvExport
import AlderpointDNS.LocalDns.CsvImport
import AlderpointDNS.LocalDns.Deploy
import AlderpointDNS.LocalDns.Links
import AlderpointDNS.LocalDns.Names
import AlderpointDNS.LocalDns.RecordContents
import AlderpointDNS.LocalDns.Records
import AlderpointDNS.LocalDns.StoredNames
import AlderpointDNS.LocalDns.Validate
import AlderpointDNS.LocalDns.Zones
import AlderpointDNS.Network.ApplyFailure
import AlderpointDNS.Network.Staging
import AlderpointDNS.Network.Watchdog
import AlderpointDNS.Notifications.Cooldown
import AlderpointDNS.Notifications.DeployCheck
import AlderpointDNS.Notifications.Dispatch
import AlderpointDNS.Notifications.Edges
import AlderpointDNS.Numbers
import AlderpointDNS.Replication.Access
import AlderpointDNS.Replication.Attempts
import AlderpointDNS.Replication.Drift
import AlderpointDNS.Replication.Enrollment
import AlderpointDNS.Replication.Frame
import AlderpointDNS.Replication.Interleaving
import AlderpointDNS.Replication.Legacy
import AlderpointDNS.Replication.Sections
import AlderpointDNS.Replication.Sync
import AlderpointDNS.Replication.Tables
import AlderpointDNS.SoftwareUpdates.Candidate
import AlderpointDNS.SoftwareUpdates.Install
import AlderpointDNS.SoftwareUpdates.Jobs
import AlderpointDNS.SoftwareUpdates.Precedence
import AlderpointDNS.SoftwareUpdates.Requests
import AlderpointDNS.SoftwareUpdates.Versions
import AlderpointDNS.Upstream.Addresses
import AlderpointDNS.Upstream.Endpoints
import AlderpointDNS.Upstream.NewServer
import AlderpointDNS.Upstream.Probes
import AlderpointDNS.Upstream.Reconcile
import AlderpointDNS.Upstream.Resolvers
import AlderpointDNS.Upstream.Responses
import AlderpointDNS.Upstream.Validate
import AlderpointDNS.Web.Accounts
import AlderpointDNS.Web.SignedOut
