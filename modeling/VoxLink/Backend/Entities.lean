import VoxLink.ProofKit.Doubles
import VoxLink.ProofKit.Fields
import VoxLink.ProofKit.Uuid

/-! The entities of the backend, one structure for each table, with the columns that some service
reads or writes. A nullable column is an `Option`; the rows of `guild_member_roles` are the list of
role ids of the member. -/

namespace VoxLink

open ProofKit

/-- A time in milliseconds. -/
abbrev Date := Nat

/-- A `jsonb` value, as its text. -/
abbrev Json := String

/-! ### Users -/

/-- What `AdminService` stores in the metadata of an account. -/
inductive UserMetadata where
  | banned (bannedBy : Uuid) (bannedAt : Date) (reason : Option Json)
  | unbanned (unbannedBy : Uuid) (unbannedAt : Date)
deriving DecidableEq, Repr

/-- A row of `users` without its password. -/
structure Profile where
  id : Uuid
  username : String
  email : Option String
  avatar : Option String
  role : String
  status : String
  lastSeen : Option Date
  metadata : Option UserMetadata
  createdAt : Date
  updatedAt : Date
deriving DecidableEq, Repr

/-- A row of `users`. -/
structure User extends Profile where
  password : Option String
deriving DecidableEq, Repr

/-! ### Permissions -/

inductive Permission where
  | viewChannels | manageChannels | manageGuild | manageRoles | kickMembers | banMembers
  | createInvite | sendMessages | deleteMessages | pinMessages | mentionEveryone | connectVoice
  | speak | muteMembers | deafenMembers | moveMembers | stream | administrator
deriving DecidableEq, Repr

/-- The position of a permission's bit. -/
def Permission.bit : Permission → Nat
  | viewChannels => 0
  | manageChannels => 1
  | manageGuild => 2
  | manageRoles => 3
  | kickMembers => 4
  | banMembers => 5
  | createInvite => 6
  | sendMessages => 7
  | deleteMessages => 8
  | pinMessages => 9
  | mentionEveryone => 10
  | connectVoice => 11
  | speak => 12
  | muteMembers => 13
  | deafenMembers => 14
  | moveMembers => 15
  | stream => 16
  | administrator => 30

def Permission.value (p : Permission) : Int := 2 ^ p.bit

/-- The union of single-bit masks. -/
def maskOf (ps : List Permission) : Int := (ps.foldl (fun m p => m ||| 2 ^ p.bit) 0 : Nat)

namespace DefaultPermissions

def member : Int := maskOf [.viewChannels, .sendMessages, .connectVoice, .speak]

def officer : Int := maskOf
  [.viewChannels, .sendMessages, .deleteMessages, .pinMessages, .kickMembers, .banMembers,
    .manageChannels, .muteMembers, .deafenMembers, .moveMembers, .connectVoice, .speak,
    .createInvite, .mentionEveryone, .stream]

def owner : Int := maskOf [.administrator]

end DefaultPermissions

/-- JavaScript's `m & n` as a condition, for the text `m` of a `bigint` column: the text is read as
a double, and both are truncated to 32 bits. -/
def bitAnd (m n : Int) : Bool := BitVec.ofInt 32 (nearestDouble m) &&& BitVec.ofInt 32 n ≠ 0

/-! ### Guilds -/

structure Guild where
  id : Uuid
  name : String
  description : Option String
  icon : Option String
  banner : Option String
  inviteCode : Option String
  isPublic : Bool
  requiresApproval : Bool
  ownerId : Option Uuid
  createdAt : Date
  updatedAt : Date
deriving DecidableEq, Repr

inductive MemberStatus where
  | active
  | pending
  | banned
deriving DecidableEq, Repr

structure GuildMember where
  id : Uuid
  nickname : Option String
  status : MemberStatus
  isMuted : Bool
  isDeafened : Bool
  userId : Uuid
  guildId : Uuid
  joinedAt : Date
  updatedAt : Date
  roles : List Uuid
deriving DecidableEq, Repr

structure GuildRole where
  id : Uuid
  name : String
  color : String
  permissions : Int
  position : Int
  isHoisted : Bool
  isManaged : Bool
  guildId : Uuid
  createdAt : Date
  updatedAt : Date
deriving DecidableEq, Repr

def GuildRole.hasPermission (r : GuildRole) (p : Permission) : Bool :=
  bitAnd r.permissions Permission.administrator.value || bitAnd r.permissions p.value

/-- `roles` are the roles of the member, where they are loaded. -/
def GuildMember.hasPermission (roles : Option (List GuildRole)) (p : Permission) : Bool :=
  (roles.map fun rs => rs.any (·.hasPermission p)).getD false

structure ChannelCategory where
  id : Uuid
  name : String
  position : Int
  isPrivate : Bool
  guildId : Uuid
deriving DecidableEq, Repr

/-! ### Channels, messages and events -/

inductive ChannelType where
  | text
  | voice
  | stream
deriving DecidableEq, Repr

structure Channel where
  id : Uuid
  name : String
  type : ChannelType
  topic : Option String
  description : Option String
  isPrivate : Bool
  position : Int
  memberCount : Int
  guildId : Option Uuid
  categoryId : Option Uuid
  createdById : Option Uuid
  createdAt : Date
  updatedAt : Date
deriving DecidableEq, Repr

structure Message where
  id : Uuid
  content : Option String
  attachments : Option (List Json)
  metadata : Option Json
  replyToId : Option Uuid
  editedAt : Option Date
  isDeleted : Bool
  channelId : Option Uuid
  authorId : Option Uuid
  createdAt : Date
  updatedAt : Date
deriving DecidableEq, Repr

structure Event where
  id : Uuid
  title : String
  description : Option String
  startsAt : Date
  endsAt : Option Date
  metadata : Option Json
  isRecurring : Bool
  channelId : Option Uuid
  createdById : Option Uuid
  createdAt : Date
  updatedAt : Date
deriving DecidableEq, Repr

end VoxLink
