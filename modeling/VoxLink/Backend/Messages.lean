import VoxLink.Backend.Channels

/-! `MessagesService`. `findOne` and `update` load the author as a whole row of `users`. -/

namespace VoxLink

open ProofKit Prog

/-- A message with its author, as much of it as the caller loaded. -/
structure MessageView (υ : Type) where
  message : Message
  author : Option υ
  channel : Option Channel
  replyTo : Option Message
deriving DecidableEq, Repr

/-- The author of a message that is replied to is selected, but not joined. -/
structure ReplyPreview where
  id : Uuid
  content : Option String
deriving DecidableEq, Repr

structure MessageListing where
  id : Uuid
  content : Option String
  attachments : Option (List Json)
  metadata : Option Json
  replyToId : Option Uuid
  editedAt : Option Date
  createdAt : Date
  author : Option UserSummary
  replyTo : Option ReplyPreview
deriving DecidableEq, Repr

structure MessageHit where
  id : Uuid
  content : Option String
  attachments : Option (List Json)
  createdAt : Date
  author : Option UserSummary
deriving DecidableEq, Repr

namespace MessagesService

variable (X : Externals) (env : Env)

/-- A nullable column that refers to a message. -/
def replyTarget (old : Option Uuid) (d : BodyField String) : Service (Option Uuid) :=
  nullableReference "replyToId" (fun db id => (db.messageById id).isSome) old d

def create (d : CreateMessageDto) (user : Profile) (channelId : BodyField String) :
    Service (MessageView Profile) := do
  texts d.storable
  let channelId ← channelTarget none channelId
  let author ← query fun db => (db.userById user.id).isSome
  references "authorId" author
  let replyToId ← replyTarget none d.replyToId
  let message : Message :=
    { id := env.uuids 0, content := d.content.nullable none
      attachments := d.attachments.nullable none, metadata := d.metadata.nullable none, replyToId
      editedAt := none, isDeleted := false, channelId, authorId := some user.id
      createdAt := env.now, updatedAt := env.now }
  write fun db => { db with messages := db.messages ++ [message] }
  pure ⟨message, some user, none, none⟩

/-- What `findAll` selects of a message that is replied to. -/
def preview (m : Message) : ReplyPreview := ⟨m.id, m.content⟩

def listing (db : Database) (m : Message) : MessageListing :=
  ⟨m.id, m.content, m.attachments, m.metadata, m.replyToId, m.editedAt, m.createdAt,
    db.relatedSummary m.authorId, (m.replyToId.bind db.messageById).map preview⟩

/-- The messages of a channel that are not deleted, newest first. -/
def newest (channel : Uuid) (db : Database) : List Message :=
  (db.messages.filter fun m => m.channelId = some channel ∧ !m.isDeleted).insertionSort
    (fun a b => b.createdAt ≤ a.createdAt)

/-- The messages of all channels that are not deleted, newest first. -/
def newestOfAll (db : Database) : List Message :=
  (db.messages.filter (!·.isDeleted)).insertionSort (fun a b => b.createdAt ≤ a.createdAt)

/-- The rows from `skip` on, `take` of them: a statement has no limit for `take` zero. -/
def slice {α : Type} (take skip : Nat) (rows : List α) : List α :=
  if take = 0 then rows.drop skip else (rows.drop skip).take take

/-- The listing of what was selected, for a channel that the user may read. -/
def list (channel : Channel) (user : Profile) (limit offset : Nat)
    (selected : Database → List Message) : Service (List MessageListing) := do
  throwIf (channel.isPrivate && channel.createdById ≠ some user.id)
    (.forbidden "Access denied to channel messages")
  query fun db => (slice limit offset (selected db)).map (listing db)

def findAll (channelId : String) (user : Profile) (limit offset : Nat) :
    Service (List MessageListing) := do
  let id ← uuidOf channelId
  let channel ← ChannelsService.findChannel id user
  list channel user limit offset (newest id)

/-- `findAll` with the id of a payload: one that is missing makes no condition. -/
def findAllOf (channelId : BodyField String) (user : Profile) (limit offset : Nat) :
    Service (List MessageListing) :=
  match channelId with
  | .value channelId => findAll channelId user limit offset
  | .absent | .null => do
    let channel ← ChannelsService.findAnyChannel env user
    list channel user limit offset newestOfAll

/-- The message, unless it is deleted. -/
def findMessage (id : Uuid) : Service Message := do
  let message ← query fun db => (db.messageById id).filter (!·.isDeleted)
  orThrow (.notFound "Message not found") message

def findOne (id : String) : Service (MessageView User) := do
  let id ← uuidOf id
  let message ← findMessage id
  let author ← query fun db => db.related message.authorId
  let channel ← query fun db => message.channelId.bind db.channelById
  let replyTo ← query fun db => message.replyToId.bind db.messageById
  pure ⟨message, author, channel, replyTo⟩

def update (id : String) (d : UpdateMessageDto) (user : Profile) :
    Service (MessageView User) := do
  let key ← uuidOf id
  let message ← findMessage key
  throwIf (message.authorId ≠ some user.id && user.role ≠ "admin")
    (.forbidden "Only message author or admin can edit message")
  texts d.storable
  let replyToId ← replyTarget message.replyToId d.replyToId
  write fun db => { db with
    messages := Rows.modify (·.id = key) (fun m => { m with
      replyToId, content := d.content.nullable m.content
      attachments := d.attachments.nullable m.attachments
      metadata := d.metadata.nullable m.metadata, editedAt := some env.now
      updatedAt := env.now }) db.messages }
  findOne id

def remove (id : String) (user : Profile) : Service Unit := do
  let key ← uuidOf id
  let message ← findMessage key
  throwIf (message.authorId ≠ some user.id && user.role ≠ "admin")
    (.forbidden "Only message author or admin can delete message")
  write fun db => { db with
    messages := Rows.modify (·.id = key) (fun m => { m with
      isDeleted := true, content := some "[Message deleted]", attachments := none
      updatedAt := env.now }) db.messages }

def search (q channelId : String) : Service (List MessageHit) := do
  texts (storable q)
  let channel ← uuidOf channelId
  query fun db =>
    ((newest channel db).filter fun m => m.content.any (X.ilike · ("%" ++ q ++ "%"))).map fun m =>
      ⟨m.id, m.content, m.attachments, m.createdAt, db.relatedSummary m.authorId⟩

end MessagesService

end VoxLink
