import VoxLink.Backend.Channels

/-! `GuildsService`. Ids of a route are texts; the database compares them as uuids, JavaScript's
`===` as texts. The loaded owner of a guild is a whole row of `users`. -/

namespace VoxLink

open ProofKit Prog

/-- A guild with its owner, roles, categories and their channels. -/
structure GuildView where
  guild : Guild
  owner : Option User
  roles : List GuildRole
  categories : List (ChannelCategory × List Channel)
deriving DecidableEq, Repr

structure GuildPreview where
  id : Uuid
  name : String
  description : Option String
  icon : Option String
  inviteCode : Option String
  owner : Option UserSummary
deriving DecidableEq, Repr

structure MemberListing where
  id : Uuid
  nickname : Option String
  status : MemberStatus
  joinedAt : Date
  user : Option (UserSummary × String)
  roles : List GuildRole
deriving DecidableEq, Repr

/-- The categories of a guild with their channels, both by position. -/
def Database.structureOf (db : Database) (g : Uuid) : List (ChannelCategory × List Channel) :=
  (db.categoriesOf g).map fun c => (c, db.channelsOf c)

namespace GuildsService

variable (env : Env)

/-! ### Helpers -/

/-- The active membership of a user; `site` numbers the query within the request. -/
def getMemberOrThrow (site : Nat) (guildId userId : Uuid) : Service GuildMember := do
  let member ← query fun db => Rows.pick (env.pick site)
    (fun m => m.guildId = guildId ∧ m.userId = userId ∧ m.status = .active) db.guildMembers
  orThrow (.forbidden "Not a member of this guild") member

def hasPermission (db : Database) (m : GuildMember) (p : Permission) : Bool :=
  (db.rolesOf m).any (·.hasPermission p)

def requirePermission (guildId userId : Uuid) (p : Permission) : Service Unit := do
  let guild ← query fun db => db.guildById guildId
  let guild ← orThrow (.notFound "Guild not found") guild
  if guild.ownerId = some userId then pure ()
  else
    let member ← getMemberOrThrow env 0 guildId userId
    let permitted ← query fun db => hasPermission db member p
    throwIf (!permitted) (.forbidden "Insufficient permissions")

/-! ### Reading -/

def findGuild (g : Uuid) (user : Profile) : Service GuildView := do
  let guild ← query fun db => db.guildById g
  let guild ← orThrow (.notFound "Guild not found") guild
  let _ ← getMemberOrThrow env 1 g user.id
  query fun db => ⟨guild, db.related guild.ownerId, db.guildRoles.filter (·.guildId = g),
    db.structureOf g⟩

def findOne (guildId : String) (user : Profile) : Service GuildView := do
  let g ← uuidOf guildId
  findGuild env g user

def findAll (user : Profile) : Service (List (Guild × Option UserSummary)) :=
  query fun db =>
    (db.guilds.filter fun g => db.guildMembers.any fun m =>
      m.guildId = g.id ∧ m.userId = user.id ∧ m.status = .active).map fun g =>
        (g, db.relatedSummary g.ownerId)

def guildByCode (inviteCode : String) (db : Database) : Option Guild :=
  db.guilds.find? (·.inviteCode = some inviteCode)

def getByInviteCode (inviteCode : String) : Service GuildPreview := do
  let guild ← query fun db => guildByCode inviteCode db
  let guild ← orThrow (.notFound "Invalid invite code") guild
  query fun db => ⟨guild.id, guild.name, guild.description, guild.icon, guild.inviteCode,
    db.relatedSummary guild.ownerId⟩

def getMembers (guildId : String) (user : Profile) : Service (List MemberListing) := do
  let g ← uuidOf guildId
  let _ ← getMemberOrThrow env 1 g user.id
  query fun db =>
    (db.guildMembers.filter fun m => m.guildId = g ∧ m.status = .active).map fun m =>
      ⟨m.id, m.nickname, m.status, m.joinedAt,
        (db.userById m.userId).map fun u => (u.toProfile.summary, u.status), db.rolesOf m⟩

def getRoles (guildId : String) (user : Profile) : Service (List GuildRole) := do
  let g ← uuidOf guildId
  let _ ← getMemberOrThrow env 1 g user.id
  query fun db => (db.guildRoles.filter (·.guildId = g)).insertionSort
    (fun a b => b.position ≤ a.position)

def getChannels (guildId : String) (user : Profile) :
    Service (List (ChannelCategory × List Channel)) := do
  let g ← uuidOf guildId
  let _ ← getMemberOrThrow env 1 g user.id
  let guild ← query fun db => db.guildById g
  let _ ← orThrow (.notFound "Guild not found") guild
  query fun db => db.structureOf g

/-! ### Creation -/

def newRole (id g : Uuid) (name color : String) (permissions position : Int) : GuildRole :=
  { id, name, color, permissions, position, isHoisted := false, isManaged := true, guildId := g
    createdAt := env.now, updatedAt := env.now }

def newMember (id g userId : Uuid) (status : MemberStatus) (roles : List Uuid) : GuildMember :=
  { id, nickname := none, status, isMuted := false, isDeafened := false, userId, guildId := g
    joinedAt := env.now, updatedAt := env.now, roles }

def newChannel (id g category : Uuid) (name : String) (type : ChannelType) (position : Int) :
    Channel :=
  { id, name, type, topic := none, description := none, isPrivate := false, position
    memberCount := 0, guildId := some g, categoryId := some category, createdById := none
    createdAt := env.now, updatedAt := env.now }

def saveRole (r : GuildRole) : Service Unit :=
  write fun db => { db with guildRoles := db.guildRoles ++ [r] }

def saveMember (m : GuildMember) : Service Unit :=
  write fun db => { db with guildMembers := db.guildMembers ++ [m] }

def saveCategory (c : ChannelCategory) : Service Unit :=
  write fun db => { db with channelCategories := db.channelCategories ++ [c] }

def ownerRole (g : Uuid) : GuildRole :=
  newRole env (env.uuids 1) g "Владелец" "#f1c40f" DefaultPermissions.owner 100

def officerRole (g : Uuid) : GuildRole :=
  newRole env (env.uuids 2) g "Офицер" "#e74c3c" DefaultPermissions.officer 50

def memberRole (g : Uuid) : GuildRole :=
  newRole env (env.uuids 3) g "Участник" "#99aab5" DefaultPermissions.member 1

def textCategory (g : Uuid) : ChannelCategory := ⟨env.uuids 5, "ТЕКСТОВЫЕ КАНАЛЫ", 0, false, g⟩

def voiceCategory (g : Uuid) : ChannelCategory := ⟨env.uuids 6, "ГОЛОСОВЫЕ КАНАЛЫ", 1, false, g⟩

def defaultChannels (g : Uuid) : List Channel :=
  [newChannel env (env.uuids 7) g (env.uuids 5) "общий" .text 0,
    newChannel env (env.uuids 8) g (env.uuids 5) "объявления" .text 1,
    newChannel env (env.uuids 9) g (env.uuids 6) "Общий" .voice 0,
    newChannel env (env.uuids 10) g (env.uuids 6) "Рейд" .voice 1]

def createDefaultStructure (g : Uuid) : Service Unit := do
  saveCategory (textCategory env g)
  saveCategory (voiceCategory env g)
  write fun db => { db with channels := db.channels ++ defaultChannels env g }

/-- The unique column of `guilds`, for the row `self`. -/
def uniqueCode (self : Uuid) (code : String) : Service Unit := do
  let taken ← query fun db => db.guilds.any fun g => g.id ≠ self ∧ g.inviteCode = some code
  throwIf taken (.queryFailed (.unique "inviteCode"))

def create (d : CreateGuildDto) (owner : Profile) : Service GuildView := do
  texts d.storable
  let isPublic ← column "isPublic" (d.isPublic.required false)
  let requiresApproval ← column "requiresApproval" (d.requiresApproval.required false)
  let ownerFound ← query fun db => (db.userById owner.id).isSome
  references "ownerId" ownerFound
  uniqueCode (env.uuids 0) env.nanoid
  let guild : Guild :=
    { id := env.uuids 0, name := d.name, description := d.description.nullable none, icon := none
      banner := none, inviteCode := some env.nanoid, isPublic, requiresApproval
      ownerId := some owner.id, createdAt := env.now, updatedAt := env.now }
  write fun db => { db with guilds := db.guilds ++ [guild] }
  saveRole (ownerRole env guild.id)
  saveRole (officerRole env guild.id)
  saveRole (memberRole env guild.id)
  saveMember (newMember env (env.uuids 4) guild.id owner.id .active [(ownerRole env guild.id).id])
  createDefaultStructure env guild.id
  findGuild env guild.id owner

/-! ### The guild itself -/

/-- The row after the fields of the body. -/
def updateRow (g : Uuid) (d : UpdateGuildDto) : Service Unit := do
  texts d.storable
  let old ← query fun db => db.guildById g
  match old with
  | none => pure ()
  | some old =>
    let name ← column "name" (d.name.required old.name)
    let isPublic ← column "isPublic" (d.isPublic.required old.isPublic)
    let requiresApproval ←
      column "requiresApproval" (d.requiresApproval.required old.requiresApproval)
    write fun db => { db with
      guilds := Rows.modify (·.id = g) (fun x => { x with
        name, isPublic, requiresApproval, description := d.description.nullable x.description
        updatedAt := env.now }) db.guilds }

def update (guildId : String) (d : UpdateGuildDto) (user : Profile) : Service GuildView := do
  let g ← uuidOf guildId
  requirePermission env g user.id .manageGuild
  updateRow env g d
  findGuild env g user

def delete (guildId : String) (user : Profile) : Service Unit := do
  let g ← uuidOf guildId
  let guild ← query fun db => db.guildById g
  let guild ← orThrow (.notFound "Guild not found") guild
  throwIf (guild.ownerId ≠ some user.id) (.forbidden "Only owner can delete guild")
  let referenced ← query fun db => db.guildReferenced g
  throwIf referenced (.queryFailed (.foreignKey "guilds"))
  write fun db => db.deleteGuild g

def regenerateInviteCode (guildId : String) (user : Profile) : Service String := do
  let g ← uuidOf guildId
  requirePermission env g user.id .createInvite
  uniqueCode g env.nanoid
  write fun db => { db with
    guilds := Rows.modify (·.id = g)
      (fun x => { x with inviteCode := some env.nanoid, updatedAt := env.now }) db.guilds }
  pure env.nanoid

/-! ### Members -/

/-- The role of a guild with the lowest position, the first that the database returns. -/
def lowestRole (g : Uuid) (db : Database) : Option GuildRole :=
  Rows.pick (env.pick 3) (fun r => r.guildId = g ∧
    db.guildRoles.all fun r' => r'.guildId = g → r.position ≤ r'.position) db.guildRoles

def joinByInvite (inviteCode : String) (user : Profile) : Service GuildMember := do
  let guild ← query fun db => guildByCode inviteCode db
  let guild ← orThrow (.notFound "Invalid invite code") guild
  let existing ← query fun db => Rows.pick (env.pick 2)
    (fun m => m.guildId = guild.id ∧ m.userId = user.id) db.guildMembers
  throwIf (existing.map (·.status) = some .active) (.conflict "Already a member")
  throwIf (existing.map (·.status) = some .banned) (.forbidden "You are banned from this guild")
  let memberRole ← query fun db => lowestRole env guild.id db
  let status := if guild.requiresApproval then MemberStatus.pending else .active
  let userFound ← query fun db => (db.userById user.id).isSome
  references "userId" userFound
  let member := newMember env (env.uuids 0) guild.id user.id status
    (memberRole.map (·.id)).toList
  saveMember member
  pure member

def kickMember (guildId targetUserId : String) (user : Profile) : Service Unit := do
  let g ← uuidOf guildId
  requirePermission env g user.id .kickMembers
  let guild ← query fun db => db.guildById g
  throwIf ((guild.bind (·.ownerId)).map Uuid.toText = some targetUserId)
    (.forbidden "Cannot kick the owner")
  let target ← uuidOf targetUserId
  write fun db => { db with
    guildMembers := Rows.remove (fun m => m.guildId = g ∧ m.userId = target) db.guildMembers }

def banMember (guildId targetUserId : String) (user : Profile) : Service Unit := do
  let g ← uuidOf guildId
  requirePermission env g user.id .banMembers
  let guild ← query fun db => db.guildById g
  throwIf ((guild.bind (·.ownerId)).map Uuid.toText = some targetUserId)
    (.forbidden "Cannot ban the owner")
  let target ← uuidOf targetUserId
  write fun db => { db with
    guildMembers := Rows.modify (fun m => m.guildId = g ∧ m.userId = target)
      (fun m => { m with status := .banned, updatedAt := env.now }) db.guildMembers }

/-- Saving a member stores a link for each of its roles. -/
def saveRoles (id : Uuid) (roles : List GuildRole) : Service Unit :=
  write fun db => { db with
    guildMembers := Rows.modify (·.id = id)
      (fun m => { m with roles := (roles.map (·.id)).eraseDups }) db.guildMembers }

def findRole (roleId : String) (g : Uuid) : Service GuildRole := do
  let r ← uuidOf roleId
  let role ← query fun db => db.guildRoles.find? fun x => x.id = r ∧ x.guildId = g
  orThrow (.notFound "Role not found") role

def assignRole (guildId targetUserId roleId : String) (user : Profile) : Service Unit := do
  let g ← uuidOf guildId
  requirePermission env g user.id .manageRoles
  let role ← findRole roleId g
  let target ← uuidOf targetUserId
  let member ← getMemberOrThrow env 1 g target
  let roles ← query fun db => db.rolesOf member
  if roles.any (fun r => r.id.toText = roleId) then pure ()
  else saveRoles member.id (roles ++ [role])

def removeRole (guildId targetUserId roleId : String) (user : Profile) : Service Unit := do
  let g ← uuidOf guildId
  requirePermission env g user.id .manageRoles
  let target ← uuidOf targetUserId
  let member ← getMemberOrThrow env 1 g target
  let roles ← query fun db => db.rolesOf member
  saveRoles member.id (roles.filter fun r => r.id.toText ≠ roleId)

/-! ### Roles -/

def createRole (guildId : String) (d : CreateRoleDto) (user : Profile) : Service GuildRole := do
  let g ← uuidOf guildId
  requirePermission env g user.id .manageRoles
  texts d.storable
  let color ← column "color" (d.color.required "#99aab5")
  let permissions ← integerColumn "permissions" 64 DefaultPermissions.member d.permissions
  let isHoisted ← column "isHoisted" (d.isHoisted.required false)
  let role : GuildRole :=
    { id := env.uuids 0, name := d.name, color, permissions, position := 0, isHoisted
      isManaged := false, guildId := g, createdAt := env.now, updatedAt := env.now }
  saveRole role
  pure role

def updateRole (guildId roleId : String) (d : CreateRoleDto) (user : Profile) :
    Service (Option GuildRole) := do
  let g ← uuidOf guildId
  requirePermission env g user.id .manageRoles
  let role ← findRole roleId g
  throwIf role.isManaged (.forbidden "Cannot modify system roles")
  texts d.storable
  let color ← column "color" (d.color.required role.color)
  let permissions ← integerColumn "permissions" 64 role.permissions d.permissions
  let isHoisted ← column "isHoisted" (d.isHoisted.required role.isHoisted)
  write fun db => { db with
    guildRoles := Rows.modify (·.id = role.id)
      (fun r => { r with name := d.name, color, permissions, isHoisted, updatedAt := env.now })
      db.guildRoles }
  query fun db => db.roleById role.id

def deleteRole (guildId roleId : String) (user : Profile) : Service Unit := do
  let g ← uuidOf guildId
  requirePermission env g user.id .manageRoles
  let role ← findRole roleId g
  throwIf role.isManaged (.forbidden "Cannot delete system roles")
  write fun db => db.deleteRole role.id

/-! ### Categories and channels -/

def createCategory (guildId : String) (d : CreateCategoryDto) (user : Profile) :
    Service ChannelCategory := do
  let g ← uuidOf guildId
  requirePermission env g user.id .manageChannels
  texts (storable d.name)
  let position ← integerColumn "position" 32 0 d.position
  let isPrivate ← column "isPrivate" (d.isPrivate.required false)
  let category : ChannelCategory :=
    { id := env.uuids 0, name := d.name, position, isPrivate, guildId := g }
  saveCategory category
  pure category

-- The update of the channels is not limited to the guild.
def deleteCategory (guildId categoryId : String) (user : Profile) : Service Unit := do
  let g ← uuidOf guildId
  requirePermission env g user.id .manageChannels
  let c ← uuidOf categoryId
  write fun db => { db with
    channels := Rows.modify (·.categoryId = some c)
      (fun x => { x with categoryId := none, updatedAt := env.now }) db.channels }
  write fun db => { db with
    channelCategories := Rows.remove (fun k => k.id = c ∧ k.guildId = g) db.channelCategories }

/-- The category of a new channel, which has to be in the guild. -/
def categoryTarget (g : Uuid) : BodyField String → Service (Option Uuid)
  | .value s => do
    let c ← uuidOf s
    let found ← query fun db => db.channelCategories.any fun k => k.id = c ∧ k.guildId = g
    throwIf (!found) (.notFound "Category not found in this guild")
    pure (some c)
  | _ => pure none

def createChannel (guildId : String) (d : CreateGuildChannelDto) (user : Profile) :
    Service Channel := do
  let g ← uuidOf guildId
  requirePermission env g user.id .manageChannels
  let categoryId ← categoryTarget g d.categoryId
  texts d.storable
  let type ← column "type" (d.type.required .text)
  let isPrivate ← column "isPrivate" (d.isPrivate.required false)
  let creator ← query fun db => (db.userById user.id).isSome
  references "createdById" creator
  let channel : Channel :=
    { id := env.uuids 0, name := d.name, type, topic := d.topic.nullable none
      description := none, isPrivate, position := 0, memberCount := 0, guildId := some g
      categoryId, createdById := some user.id, createdAt := env.now, updatedAt := env.now }
  write fun db => { db with channels := db.channels ++ [channel] }
  pure channel

end GuildsService

end VoxLink
