import ArxRuna.Store.Migrations
import ArxRuna.Cloud.SessionFile
import ArxRuna.Library.Regex
import ArxRuna.Library.Run
import ArxRuna.Library.Closure
import ArxRuna.Crypto
import ArxRuna.Store.Tables
import ArxRuna.Store.Operations
import ArxRuna.Store.Effects
import ArxRuna.Store.Integrity
import ArxRuna.Store.Reached
import ArxRuna.Store.Removal
import ArxRuna.Store.Staging
import ArxRuna.Library.Packing
import ArxRuna.Epoch.Flush
import ArxRuna.Epoch.History
import ArxRuna.Vault.Delete
import ArxRuna.Cloud.Push
import ArxRuna.Cloud.Closure
import ArxRuna.Credentials.Ceremonies
import ArxRuna.Credentials.Commands
import ArxRuna.Credentials.Lockout
import ArxRuna.Epoch.Complete
import ArxRuna.Library.Chunking
import ArxRuna.Library.Texts
import ArxRuna.Pipeline.Replace
import ArxRuna.Credentials.Phrases
import ArxRuna.Session.AppState
import ArxRuna.Session.Operations
import ArxRuna.Session.Calendar
import ArxRuna.Sharing.Address
import ArxRuna.Sharing.ShareConf
import ArxRuna.Sharing.Received
import ArxRuna.Sharing.Envelope
import ArxRuna.Sharing.Availability
import ArxRuna.Sharing.Withdrawal
import ArxRuna.Store.Forest
import ArxRuna.Vault.Restore
import ArxRuna.Vault.Root
import ArxRuna.Vault.Startup
import ArxRuna.Vault.VideoStream
import ArxRuna.Cloud.Mirror
import ArxRuna.Cloud.Drivers
import ArxRuna.Cloud.Destinations
import ArxRuna.Cloud.Locations
import ArxRuna.Cloud.Retry
import ArxRuna.Pipeline.ImageFormat
import ArxRuna.Pipeline.Images
import ArxRuna.Store.Queue
import ArxRuna.Sync.Ceremony
import ArxRuna.Sync.Reconcile
import ArxRuna.Vault.Transfer
