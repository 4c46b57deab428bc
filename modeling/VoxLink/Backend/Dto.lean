import VoxLink.Backend.Database

/-! The bodies that requests carry, with the validations of the `ValidationPipe`. A body has no
other fields: the pipe refuses a body with a field that its class does not declare. A number is the
one that JavaScript prints for it. -/

namespace VoxLink

open ProofKit

/-! ### Authentication and users -/

structure RegisterDto where
  username : String
  email : String
  password : String
deriving DecidableEq, Repr

def RegisterDto.valid (X : Externals) (d : RegisterDto) : Bool :=
  X.isEmail d.email && 6 ≤ utf16Length d.password

structure CreateInviteDto where
  channelId : BodyField String
  role : BodyField String
  expiresInHours : BodyField ℚ
  maxUses : BodyField ℚ
deriving DecidableEq, Repr

def CreateInviteDto.valid (X : Externals) (d : CreateInviteDto) : Bool :=
  d.channelId.optional X.isUUID && d.expiresInHours.optional (fun h => 1 ≤ h ∧ h ≤ 720) &&
    d.maxUses.optional (0 ≤ ·)

structure MagicLinkDto where
  email : String
deriving DecidableEq, Repr

def MagicLinkDto.valid (X : Externals) (d : MagicLinkDto) : Bool := X.isEmail d.email

structure LoginDto where
  username : BodyField String
  email : BodyField String
  inviteToken : BodyField String
deriving DecidableEq, Repr

def LoginDto.valid (X : Externals) (d : LoginDto) : Bool := d.email.optional X.isEmail

structure CreateUserDto where
  username : String
  email : BodyField String
  password : BodyField String
  role : BodyField String
  avatar : BodyField String
deriving DecidableEq, Repr

def CreateUserDto.valid (X : Externals) (d : CreateUserDto) : Bool :=
  3 ≤ utf16Length d.username && d.email.optional X.isEmail &&
    d.password.optional (6 ≤ utf16Length ·)

structure UpdateUserDto where
  username : BodyField String
  email : BodyField String
  password : BodyField String
  role : BodyField String
  avatar : BodyField String
deriving DecidableEq, Repr

def UpdateUserDto.valid (X : Externals) (d : UpdateUserDto) : Bool :=
  d.username.optional (3 ≤ utf16Length ·) && d.email.optional X.isEmail &&
    d.password.optional (6 ≤ utf16Length ·)

/-- Whether the texts of a body can be stored; an email has passed `isEmail`, which takes no
U+0000. -/
def UpdateUserDto.storable (d : UpdateUserDto) : Bool :=
  [d.username, d.password, d.role, d.avatar].all (·.optional VoxLink.storable)

/-! ### Channels, messages and events -/

structure CreateChannelDto where
  name : String
  type : ChannelType
  topic : BodyField String
  description : BodyField String
  isPrivate : BodyField Bool
  permissions : BodyField Json
deriving DecidableEq, Repr

def CreateChannelDto.storable (d : CreateChannelDto) : Bool :=
  [.value d.name, d.topic, d.description].all (·.optional VoxLink.storable)

structure UpdateChannelDto where
  name : BodyField String
  type : BodyField ChannelType
  topic : BodyField String
  description : BodyField String
  isPrivate : BodyField Bool
  permissions : BodyField Json
deriving DecidableEq, Repr

def UpdateChannelDto.storable (d : UpdateChannelDto) : Bool :=
  [d.name, d.topic, d.description].all (·.optional VoxLink.storable)

structure CreateMessageDto where
  content : BodyField String
  attachments : BodyField (List Json)
  replyToId : BodyField String
  metadata : BodyField Json
deriving DecidableEq, Repr

def CreateMessageDto.valid (X : Externals) (d : CreateMessageDto) : Bool :=
  d.replyToId.optional X.isUUID

def CreateMessageDto.storable (d : CreateMessageDto) : Bool :=
  d.content.optional VoxLink.storable && d.attachments.optional (·.all storableJson) &&
    d.metadata.optional storableJson

abbrev UpdateMessageDto := CreateMessageDto

structure CreateEventDto where
  title : String
  description : BodyField String
  startsAt : String
  endsAt : BodyField String
  channelId : BodyField String
  isRecurring : BodyField Bool
  metadata : BodyField Json
deriving DecidableEq, Repr

def CreateEventDto.valid (X : Externals) (d : CreateEventDto) : Bool :=
  X.isDateString d.startsAt && d.endsAt.optional X.isDateString && d.channelId.optional X.isUUID

def CreateEventDto.storable (d : CreateEventDto) : Bool :=
  VoxLink.storable d.title && d.description.optional VoxLink.storable &&
    d.metadata.optional storableJson

structure UpdateEventDto where
  title : BodyField String
  description : BodyField String
  startsAt : BodyField String
  endsAt : BodyField String
  channelId : BodyField String
  isRecurring : BodyField Bool
  metadata : BodyField Json
deriving DecidableEq, Repr

def UpdateEventDto.valid (X : Externals) (d : UpdateEventDto) : Bool :=
  d.startsAt.optional X.isDateString && d.endsAt.optional X.isDateString &&
    d.channelId.optional X.isUUID

def UpdateEventDto.storable (d : UpdateEventDto) : Bool :=
  d.title.optional VoxLink.storable && d.description.optional VoxLink.storable &&
    d.metadata.optional storableJson

/-! ### Guilds -/

structure CreateGuildDto where
  name : String
  description : BodyField String
  isPublic : BodyField Bool
  requiresApproval : BodyField Bool
deriving DecidableEq, Repr

def guildNameValid (s : String) : Bool := 2 ≤ utf16Length s && utf16Length s ≤ 100

def CreateGuildDto.valid (d : CreateGuildDto) : Bool :=
  guildNameValid d.name && d.description.optional (utf16Length · ≤ 500)

def CreateGuildDto.storable (d : CreateGuildDto) : Bool :=
  VoxLink.storable d.name && d.description.optional VoxLink.storable

structure UpdateGuildDto where
  name : BodyField String
  description : BodyField String
  isPublic : BodyField Bool
  requiresApproval : BodyField Bool
deriving DecidableEq, Repr

def UpdateGuildDto.valid (d : UpdateGuildDto) : Bool :=
  d.name.optional guildNameValid && d.description.optional (utf16Length · ≤ 500)

def UpdateGuildDto.storable (d : UpdateGuildDto) : Bool :=
  d.name.optional VoxLink.storable && d.description.optional VoxLink.storable

structure CreateRoleDto where
  name : String
  color : BodyField String
  permissions : BodyField ℚ
  isHoisted : BodyField Bool
deriving DecidableEq, Repr

/-- The pattern `^#[0-9a-fA-F]{6}$`. -/
def isHexColor (s : String) : Bool :=
  match s.toList with
  | '#' :: ds => ds.length = 6 && ds.all fun d => (Uuid.hexValue d).isSome
  | _ => false

def CreateRoleDto.valid (d : CreateRoleDto) : Bool :=
  utf16Length d.name ≤ 50 && d.color.optional isHexColor

def CreateRoleDto.storable (d : CreateRoleDto) : Bool :=
  VoxLink.storable d.name && d.color.optional VoxLink.storable

structure CreateCategoryDto where
  name : String
  position : BodyField ℚ
  isPrivate : BodyField Bool
deriving DecidableEq, Repr

def CreateCategoryDto.valid (d : CreateCategoryDto) : Bool := utf16Length d.name ≤ 100

structure CreateGuildChannelDto where
  name : String
  type : BodyField ChannelType
  topic : BodyField String
  isPrivate : BodyField Bool
  categoryId : BodyField String
deriving DecidableEq, Repr

def CreateGuildChannelDto.valid (X : Externals) (d : CreateGuildChannelDto) : Bool :=
  utf16Length d.name ≤ 100 && d.topic.optional (utf16Length · ≤ 500) &&
    d.categoryId.optional X.isUUID

def CreateGuildChannelDto.storable (d : CreateGuildChannelDto) : Bool :=
  VoxLink.storable d.name && d.topic.optional VoxLink.storable

end VoxLink
