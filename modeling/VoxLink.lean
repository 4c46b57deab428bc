import VoxLink.Guilds.Changes
import VoxLink.Accounts.Effects
import VoxLink.Accounts.Sessions
import VoxLink.Accounts.Roles
import VoxLink.Guilds.Invariants
import VoxLink.Guilds.Seats
import VoxLink.Guilds.Owners
import VoxLink.Guilds.Authorisation
import VoxLink.Guilds.Joining
import VoxLink.Guilds.Views
import VoxLink.Guilds.Isolation
import VoxLink.Backend.Gateway
import VoxLink.Secrecy.Agreement
import VoxLink.Secrecy.Guilds
import VoxLink.Secrecy.Steps
import VoxLink.Secrecy.Passwords
import VoxLink.Guilds.Spelling
import VoxLink.Guilds.SystemRoles
import VoxLink.Guilds.RoleEdits
import VoxLink.Secrecy.PrivateChannels
import VoxLink.Content.Handlers
import VoxLink.Secrecy.PrivateRuns
import VoxLink.Content.Writing
import VoxLink.Backend.Livekit
import VoxLink.Guilds.ChannelAccess
import VoxLink.Accounts.Bans
import VoxLink.Realtime.Turns
import VoxLink.Realtime.Presence
import VoxLink.Content.Deletion
import VoxLink.Guilds.Approval
import VoxLink.Guilds.InviteCodes
import VoxLink.Accounts.MagicLinks
import VoxLink.Accounts.InviteUses
import VoxLink.Realtime.Members
import VoxLink.Realtime.Sockets
import VoxLink.Client.Counts
import VoxLink.Client.Page
import VoxLink.Client.Reconnect
import VoxLink.Guilds.Banning
import VoxLink.Guilds.Revocations
import VoxLink.Guilds.Escalation
import VoxLink.Guilds.Listings
import VoxLink.Accounts.FailedLogins
import VoxLink.Accounts.InviteLifetime
import VoxLink.Accounts.PasswordColumn
import VoxLink.Backend.Plugins
import VoxLink.Plugins.Listeners
import VoxLink.Client.Voice
import VoxLink.Client.HangUps
import VoxLink.Client.Deafness
import VoxLink.Realtime.Status
import VoxLink.Client.Snapshot
import VoxLink.Client.Notifications
import VoxLink.Client.GuildStore
import VoxLink.Content.ChannelRights
import VoxLink.Guilds.StorageFailures
import VoxLink.Content.References
import VoxLink.Content.Edits
import VoxLink.Client.Items
import VoxLink.Realtime.Joins
import VoxLink.Content.Requests
import VoxLink.ProofKit.Custody
import VoxLink.Content.Authorship
import VoxLink.Guilds.Masks
import VoxLink.Client.Debounce
import VoxLink.Client.Typing
import VoxLink.Client.Toggles
import VoxLink.Realtime.Directory
import VoxLink.Plugins.Installing
import VoxLink.Client.OpenedLink
import VoxLink.Client.TypingNotices
import VoxLink.Accounts.Registrations
import VoxLink.Opus.Padding
import VoxLink.Guilds.ConcurrentJoins
import VoxLink.Opus.RangeDecoder
import VoxLink.Opus.RangeArithmetic
