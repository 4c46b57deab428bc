import VoxLink.Backend.Channels

/-! `AdminService`, and the check of `AdminController.getStats`. -/

namespace VoxLink

open ProofKit Prog

structure SystemStats where
  users : Nat
  channels : Nat
  messages : Nat
  timestamp : Date
deriving DecidableEq, Repr

structure UserActivity where
  userId : String
  messageCount : Nat
  channelCount : Nat
  recentMessages : List Message
  createdChannels : List Channel
deriving DecidableEq, Repr

namespace AdminService

variable (env : Env)

def requireAdmin (adminUser : Profile) : Service Unit :=
  throwIf (adminUser.role ≠ "admin") (.forbidden "Admin access required")

def getStats (user : Profile) : Service SystemStats := do
  requireAdmin user
  query fun db => ⟨db.users.length, db.channels.length, db.messages.length, env.now⟩

def setRole (userId : Uuid) (role : String) (metadata : UserMetadata) : Service Unit :=
  write fun db => { db with
    users := Rows.modify (·.id = userId)
      (fun u => { u with role, metadata := some metadata, updatedAt := env.now }) db.users }

def banUser (userId : String) (adminUser : Profile) (reason : Option Json) : Service Unit := do
  requireAdmin adminUser
  let id ← uuidOf userId
  texts (reason.all storableJson)
  setRole env id "banned" (.banned adminUser.id env.now reason)

def unbanUser (userId : String) (adminUser : Profile) : Service Unit := do
  requireAdmin adminUser
  let id ← uuidOf userId
  setRole env id "member" (.unbanned adminUser.id env.now)

def deleteChannel (channelId : String) (adminUser : Profile) : Service Unit := do
  requireAdmin adminUser
  let id ← uuidOf channelId
  ChannelsService.deleteRow id

-- Unlike `MessagesService.remove`, this keeps the attachments.
def deleteMessage (messageId : String) (adminUser : Profile) : Service Unit := do
  requireAdmin adminUser
  let id ← uuidOf messageId
  write fun db => { db with
    messages := Rows.modify (·.id = id) (fun m => { m with
      isDeleted := true, content := some "[Message deleted by admin]"
      updatedAt := env.now }) db.messages }

def getUserActivity (userId : String) (adminUser : Profile) : Service UserActivity := do
  requireAdmin adminUser
  let id ← uuidOf userId
  query fun db =>
    let messages := ((db.messages.filter (·.authorId = some id)).insertionSort
      (fun a b => b.createdAt ≤ a.createdAt)).take 50
    let channels := db.channels.filter (·.createdById = some id)
    ⟨userId, messages.length, channels.length, messages, channels⟩

end AdminService

end VoxLink
