import VoxLink.Backend.Users

/-! `ChannelsService`. `findOne` and `update` load the creator as a whole row of `users`. -/

namespace VoxLink

open ProofKit Prog

/-- A channel with its creator, as much of it as the caller loaded. -/
structure ChannelView (υ : Type) where
  channel : Channel
  createdBy : Option υ
deriving DecidableEq, Repr

structure ChannelListing where
  id : Uuid
  name : String
  type : ChannelType
  topic : Option String
  description : Option String
  isPrivate : Bool
  memberCount : Int
  createdAt : Date
  createdBy : Option UserSummary
deriving DecidableEq, Repr

structure ChannelHit where
  id : Uuid
  name : String
  type : ChannelType
  topic : Option String
  description : Option String
  memberCount : Int
  createdAt : Date
  createdBy : Option UserSummary
deriving DecidableEq, Repr

/-- The row of a user that another row refers to. -/
def Database.related (db : Database) (id : Option Uuid) : Option User := id.bind db.userById

def Database.relatedSummary (db : Database) (id : Option Uuid) : Option UserSummary :=
  (db.related id).map (·.toProfile.summary)

/-- A nullable column that refers to a channel. -/
def channelTarget (old : Option Uuid) (d : BodyField String) : Service (Option Uuid) :=
  nullableReference "channelId" (fun db id => (db.channelById id).isSome) old d

namespace ChannelsService

variable (X : Externals) (env : Env)

def create (d : CreateChannelDto) (user : Profile) : Service (ChannelView Profile) := do
  texts d.storable
  let isPrivate ← column "isPrivate" (d.isPrivate.required false)
  let creator ← query fun db => (db.userById user.id).isSome
  references "createdById" creator
  let channel : Channel :=
    { id := env.uuids 0, name := d.name, type := d.type, topic := d.topic.nullable none
      description := d.description.nullable none, isPrivate, position := 0, memberCount := 0
      guildId := none, categoryId := none, createdById := some user.id, createdAt := env.now
      updatedAt := env.now }
  write fun db => { db with channels := db.channels ++ [channel] }
  pure ⟨channel, some user⟩

def findAll : Service (List ChannelListing) :=
  query fun db =>
    ((db.channels.filter fun c => !c.isPrivate).insertionSort (·.createdAt ≤ ·.createdAt)).map
      fun c => ⟨c.id, c.name, c.type, c.topic, c.description, c.isPrivate, c.memberCount,
        c.createdAt, db.relatedSummary c.createdById⟩

/-- The channel that was found, unless it is private and somebody else's. -/
def accessible (channel : Option Channel) (user : Profile) : Service Channel := do
  let channel ← orThrow (.notFound "Channel not found") channel
  throwIf (channel.isPrivate && channel.createdById ≠ some user.id)
    (.forbidden "Access denied to private channel")
  pure channel

def findChannel (id : Uuid) (user : Profile) : Service Channel := do
  let channel ← query fun db => db.channelById id
  accessible channel user

/-- A condition on an id that is missing is dropped: the channel is any of them. -/
def findAnyChannel (user : Profile) : Service Channel := do
  let channel ← query fun db => Rows.pick (env.pick 0) (fun _ => true) db.channels
  accessible channel user

def findOne (id : String) (user : Profile) : Service (ChannelView User) := do
  let id ← uuidOf id
  let channel ← findChannel id user
  let createdBy ← query fun db => db.related channel.createdById
  pure ⟨channel, createdBy⟩

/-- `findOne` with the id of a payload, which nothing validates. -/
def findOneOf (id : BodyField String) (user : Profile) : Service (ChannelView User) :=
  match id with
  | .value id => findOne id user
  | .absent | .null => do
    let channel ← findAnyChannel env user
    let createdBy ← query fun db => db.related channel.createdById
    pure ⟨channel, createdBy⟩

/-- The row after the fields of the body. A field that is no column is refused. -/
def updateRow (id : Uuid) (old : Channel) (d : UpdateChannelDto) : Service Unit := do
  throwIf (d.permissions ≠ .absent) (.propertyNotFound "permissions")
  texts d.storable
  let name ← column "name" (d.name.required old.name)
  let type ← column "type" (d.type.required old.type)
  let isPrivate ← column "isPrivate" (d.isPrivate.required old.isPrivate)
  write fun db => { db with
    channels := Rows.modify (·.id = id) (fun c => { c with
      name, type, isPrivate, topic := d.topic.nullable c.topic
      description := d.description.nullable c.description, updatedAt := env.now }) db.channels }

def update (id : String) (d : UpdateChannelDto) (user : Profile) :
    Service (ChannelView User) := do
  let key ← uuidOf id
  let channel ← findChannel key user
  throwIf (channel.createdById ≠ some user.id && user.role ≠ "admin")
    (.forbidden "Only channel creator or admin can update channel")
  updateRow env key channel d
  findOne id user

/-- Deletes the channel, when nothing refers to it. -/
def deleteRow (id : Uuid) : Service Unit := do
  let referenced ← query fun db => db.channelReferenced id
  throwIf referenced (.queryFailed (.foreignKey "channels"))
  write fun db => db.deleteChannel id

def remove (id : String) (user : Profile) : Service Unit := do
  let key ← uuidOf id
  let channel ← findChannel key user
  throwIf (channel.createdById ≠ some user.id && user.role ≠ "admin")
    (.forbidden "Only channel creator or admin can delete channel")
  deleteRow key

-- The query builder joins its conditions without brackets, so the test for private channels binds
-- to the topic alone.
def search (q : String) : Service (List ChannelHit) := do
  texts (storable q)
  query fun db =>
    (db.channels.filter fun c => X.ilike c.name ("%" ++ q ++ "%") ||
      (c.topic.any (X.ilike · ("%" ++ q ++ "%")) && !c.isPrivate)).map fun c =>
        ⟨c.id, c.name, c.type, c.topic, c.description, c.memberCount, c.createdAt,
          db.relatedSummary c.createdById⟩

end ChannelsService

end VoxLink
