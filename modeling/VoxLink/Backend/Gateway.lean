import VoxLink.Backend.Http
import VoxLink.ProofKit.Texts

/-! `WebsocketGateway` and `WebsocketService`. A handler runs to its end; an emission is recorded
with the sockets that receive it. -/

namespace VoxLink

open ProofKit Prog

/-! ### Members of channels in Redis -/

namespace WebsocketService

variable (env : Env)

def membersKey (channelId : String) : String := "channel:" ++ channelId ++ ":members"

/-- Whether a key matches the pattern `channel:*:members`. -/
def isMembersKey (key : String) : Bool :=
  "channel:".toList.isPrefixOf key.toList && ":members".toList.isSuffixOf key.toList &&
    16 ≤ key.length

/-- Adds to the set under a key, which must hold a set or nothing. -/
def sadd (key member : String) (redis : Redis) : Option Redis :=
  match redis.get env.now key with
  | none => some (redis.put key (.members [member]) none)
  | some (.members ids) =>
    some (if member ∈ ids then redis else redis.put key (.members (ids ++ [member])) none)
  | some _ => none

/-- Removes from the set under a key; an empty set is no key. -/
def srem (key member : String) (redis : Redis) : Option Redis :=
  match redis.get env.now key with
  | none => some redis
  | some (.members ids) =>
    let rest := ids.filter (· ≠ member)
    some (if rest = [] then redis.del key else redis.put key (.members rest) none)
  | some _ => none

/-- Runs a command on Redis, and whether that worked. -/
def attempt (site : Nat) (command : Redis → Option Redis) : Backend Bool := do
  let result ← query fun s => if env.redisFails site then none else command s.redis
  match result with
  | some redis =>
    write fun s => { s with redis }
    pure true
  | none => pure false

def getChannelMembers (site : Nat) (channelId : String) : Backend (List String) :=
  query fun s =>
    if env.redisFails site then []
    else
      match s.redis.get env.now (membersKey channelId) with
      | some (.members ids) => ids
      | _ => []

def addChannelMember (site : Nat) (channelId userId : String) : Backend Unit := do
  let _ ← attempt env site (sadd env (membersKey channelId) userId)

def removeChannelMember (site : Nat) (channelId userId : String) : Backend Unit := do
  let _ ← attempt env site (srem env (membersKey channelId) userId)

/-- Whether the set under a key has the member. -/
def sismember (key member : String) (redis : Redis) : Option Bool :=
  match redis.get env.now key with
  | none => some false
  | some (.members ids) => some (member ∈ ids)
  | some _ => none

/-- `key.replace('channel:', '').replace(':members', '')` -/
def channelOf (key : String) : String :=
  String.ofList (removeFirst ":members".toList (removeFirst "channel:".toList key.toList))

/-- The loop of `getUserChannels`, which a failure ends without a result. -/
def channelsAmong (userId : String) (redis : Redis) : Nat → List String → Option (List String)
  | _, [] => some []
  | site, key :: keys =>
    if env.redisFails site then none
    else do
      let isMember ← sismember env key userId redis
      let userChannels ← channelsAmong userId redis (site + 1) keys
      pure (if isMember then channelOf key :: userChannels else userChannels)

def getUserChannels (userId : String) : Backend (List String) :=
  query fun s =>
    if env.redisFails 0 then []
    else
      let keys := (s.redis.keys env.now).filter isMembersKey
      (channelsAmong env userId s.redis 1 keys).getD []

/-- Removes from the sets under the keys, up to the first failure. -/
def removeFrom (userId : String) : Nat → List String → Backend Unit
  | _, [] => pure ()
  | site, key :: keys => do
    let worked ← attempt env site (srem env key userId)
    if worked then removeFrom userId (site + 1) keys else pure ()

def removeChannelMemberFromAll (userId : String) : Backend Unit := do
  let keys ← query fun s =>
    if env.redisFails 0 then [] else (s.redis.keys env.now).filter isMembersKey
  removeFrom env userId 1 keys

end WebsocketService

/-! ### Sockets and emissions -/

/-- A connected socket. `user` is the account attached when it connected. -/
structure Socket where
  id : String
  user : Option Profile
  rooms : List String
deriving DecidableEq, Repr

structure NewMessage where
  id : Uuid
  channelId : BodyField String
  content : Option String
  attachments : Option (List Json)
  replyToId : Option Uuid
  author : UserSummary
  createdAt : Date
deriving DecidableEq, Repr

/-- An event that the gateway emits. An error carries the message of its exception. -/
inductive GatewayEvent where
  | presence (userId : Uuid) (status : String)
  | memberJoined (channelId : BodyField String) (user : UserSummary)
  | memberLeft (channelId : String) (userId : Uuid)
  | ready (channelId : BodyField String) (messages : List MessageListing) (members : List String)
  | messageNew (message : NewMessage)
  | typing (channelId : String) (userId : Uuid) (username : String) (isTyping : Bool)
  | participantJoined (channelId : String) (user : UserSummary)
  | participantLeft (channelId : String) (userId : Uuid)
  | error (exception : Exception)
deriving DecidableEq, Repr

structure Emission where
  event : GatewayEvent
  recipients : List String
deriving DecidableEq, Repr

structure Gateway where
  server : Server
  sockets : List Socket
  sent : List Emission
deriving DecidableEq

abbrev Handler := Prog Exception Gateway

def onServer {α : Type} (m : Backend α) : Handler α :=
  within Gateway.server (fun server g => { g with server }) m

/-- Emits to the sockets with `p`. -/
def emitTo (p : Socket → Bool) (event : GatewayEvent) : Handler Unit :=
  write fun g => { g with sent := g.sent ++ [⟨event, (g.sockets.filter p).map (·.id)⟩] }

def updateSocket (client : String) (f : Socket → Socket) : Handler Unit :=
  write fun g => { g with sockets := Rows.modify (·.id = client) f g.sockets }

def join (client room : String) : Handler Unit :=
  updateSocket client fun s => { s with rooms := room :: s.rooms.filter (· ≠ room) }

def leave (client room : String) : Handler Unit :=
  updateSocket client fun s => { s with rooms := s.rooms.filter (· ≠ room) }

def disconnect (client : String) : Handler Unit :=
  write fun g => { g with sockets := Rows.remove (·.id = client) g.sockets }

def userRoom (userId : Uuid) : String := "user:" ++ userId.toText

def channelRoom (channelId : String) : String := "channel:" ++ channelId

def guildRoom (guildId : String) : String := "guild:" ++ guildId

/-- The tokens that a handshake carries. The one of the header stands with or without `Bearer`. -/
structure Handshake where
  auth : Option Jwt
  authorization : Option Jwt
  query : Option Jwt

def Handshake.token (h : Handshake) : Option Jwt := (h.auth.or h.authorization).or h.query

structure SendMessageData where
  channelId : BodyField String
  content : BodyField String
  attachments : BodyField (List Json)
  replyToId : BodyField String

/-- What a client sends, with its connection and the end of it. Nothing validates the payloads. An
id that is missing counts with those for a room alone as its text. -/
inductive SocketEvent where
  | connection (handshake : Handshake)
  | disconnection
  | joinChannel (channelId : BodyField String)
  | leaveChannel (channelId : String)
  | sendMessage (data : SendMessageData)
  | typingStart (channelId : String)
  | typingStop (channelId : String)
  | guildJoin (guildId : String)
  | guildLeave (guildId : String)
  | voiceJoined (channelId : String)
  | voiceLeft (channelId : String)

/-! ### Handlers -/

namespace WebsocketGateway

variable (env : Env) (client : String)

/-- The account of a socket, if it is connected and has one. -/
def account (g : Gateway) : Option Profile := (g.sockets.find? (·.id = client)).bind (·.user)

/-- The handlers do nothing for a socket without an account. -/
def asUser (k : Profile → Handler Unit) : Handler Unit := do
  let user ← query (account client)
  match user with
  | some user => k user
  | none => pure ()

def handleConnection (handshake : Handshake) : Handler Unit := do
  write fun g => { g with sockets := g.sockets ++ [⟨client, none, []⟩] }
  recover (do
      let user ← onServer (AuthService.authenticate env handshake.token)
      updateSocket client fun s => { s with user := some user }
      let _ ← onServer (onDb (UsersService.updateStatus env user.id "online"))
      join client (userRoom user.id)
      emitTo (fun _ => true) (.presence user.id "online"))
    fun _ => disconnect client

def handleDisconnect (user : Profile) : Handler Unit := do
  let _ ← onServer (onDb (UsersService.updateStatus env user.id "offline"))
  emitTo (fun _ => true) (.presence user.id "offline")
  onServer (WebsocketService.removeChannelMemberFromAll env user.id.toText)

def handleJoinChannel (channelId : BodyField String) : Handler Unit :=
  asUser client fun user =>
    recover (do
        let _ ← onServer (onDb (ChannelsService.findOneOf env channelId user))
        join client (channelRoom channelId.text)
        onServer (WebsocketService.addChannelMember env 0 channelId.text user.id.toText)
        let members ← onServer (WebsocketService.getChannelMembers env 1 channelId.text)
        let messages ← onServer (onDb (MessagesService.findAllOf env channelId user 50 0))
        emitTo (channelRoom channelId.text ∈ ·.rooms) (.memberJoined channelId user.summary)
        emitTo (·.id = client) (.ready channelId messages.reverse members))
      fun e => emitTo (·.id = client) (.error e)

def handleLeaveChannel (channelId : String) : Handler Unit :=
  asUser client fun user => do
    leave client (channelRoom channelId)
    onServer (WebsocketService.removeChannelMember env 0 channelId user.id.toText)
    emitTo (channelRoom channelId ∈ ·.rooms) (.memberLeft channelId user.id)

def handleSendMessage (data : SendMessageData) : Handler Unit :=
  asUser client fun user =>
    recover (do
        let created ← onServer (onDb (MessagesService.create env
          { content := data.content, attachments := data.attachments
            replyToId := data.replyToId, metadata := .absent } user data.channelId))
        let m := created.message
        emitTo (channelRoom data.channelId.text ∈ ·.rooms) (.messageNew
          ⟨m.id, data.channelId, m.content, m.attachments, m.replyToId, user.summary,
            m.createdAt⟩))
      fun e => emitTo (·.id = client) (.error e)

/-- `handleTypingStart` and `handleTypingStop`: the client itself receives nothing. -/
def handleTyping (channelId : String) (isTyping : Bool) : Handler Unit :=
  asUser client fun user =>
    emitTo (fun s => channelRoom channelId ∈ s.rooms ∧ s.id ≠ client)
      (.typing channelId user.id user.username isTyping)

def handleGuildJoin (guildId : String) : Handler Unit :=
  asUser client fun _ => join client (guildRoom guildId)

def handleGuildLeave (guildId : String) : Handler Unit :=
  asUser client fun _ => leave client (guildRoom guildId)

def handleVoiceJoined (channelId : String) : Handler Unit :=
  asUser client fun user =>
    emitTo (channelRoom channelId ∈ ·.rooms) (.participantJoined channelId user.summary)

def handleVoiceLeft (channelId : String) : Handler Unit :=
  asUser client fun user =>
    emitTo (channelRoom channelId ∈ ·.rooms) (.participantLeft channelId user.id)

def handleEvent : SocketEvent → Handler Unit
  | .connection handshake => handleConnection env client handshake
  | .disconnection => do
    -- The socket has left its rooms when the handler runs, which still knows its account.
    let user ← query (account client)
    disconnect client
    match user with
    | some user => handleDisconnect env user
    | none => pure ()
  | .joinChannel c => handleJoinChannel env client c
  | .leaveChannel c => handleLeaveChannel env client c
  | .sendMessage data => handleSendMessage env client data
  | .typingStart c => handleTyping client c true
  | .typingStop c => handleTyping client c false
  | .guildJoin g => handleGuildJoin client g
  | .guildLeave g => handleGuildLeave client g
  | .voiceJoined c => handleVoiceJoined client c
  | .voiceLeft c => handleVoiceLeft client c

end WebsocketGateway

/-! ### The backend with its gateway -/

inductive Input where
  | request (req : Request)
  | event (client : String) (e : SocketEvent)

inductive Output where
  | response (answer : Except Exception Body)
  | emitted (emissions : List Emission)
deriving DecidableEq

/-- One request or one event of a socket: the answer or the emissions, and the state after. -/
def Gateway.step (X : Externals) (g : Gateway) (i : Env × Input) : Output × Gateway :=
  match i.2 with
  | .request req =>
    let (answer, server) := serve X g.server (i.1, req)
    (.response answer, { g with server })
  | .event client e =>
    let g' := (WebsocketGateway.handleEvent i.1 client e).final { g with sent := [] }
    (.emitted g'.sent, g')

end VoxLink
