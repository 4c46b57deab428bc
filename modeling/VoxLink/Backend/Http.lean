import VoxLink.Backend.Admin
import VoxLink.Backend.Auth
import VoxLink.Backend.Events
import VoxLink.Backend.Guilds
import VoxLink.Backend.Messages
import VoxLink.ProofKit.Runs

/-! The controllers: the routes with their parameters, the guard and the validation before each,
and the bodies they answer with. -/

namespace VoxLink

open ProofKit Prog

inductive AuthRoute where
  | register (d : RegisterDto)
  | createInvite (d : CreateInviteDto)
  | sendMagicLink (d : MagicLinkDto)
  | verifyMagicLink (token : String)
  | login (d : LoginDto)
  | getProfile
  | refreshToken

inductive UserRoute where
  | create (d : CreateUserDto)
  | findAll
  | search (q : String)
  | findOne (id : String)
  | update (id : String) (d : UpdateUserDto)
  | remove (id : String)

inductive ChannelRoute where
  | create (d : CreateChannelDto)
  | findAll
  | search (q : String)
  | findOne (id : String)
  | update (id : String) (d : UpdateChannelDto)
  | remove (id : String)

inductive MessageRoute where
  | create (channelId : String) (d : CreateMessageDto)
  | findAll (channelId : String) (limit offset : Nat)
  | search (channelId q : String)
  | findOne (id : String)
  | update (id : String) (d : UpdateMessageDto)
  | remove (id : String)

inductive EventRoute where
  | create (d : CreateEventDto)
  | findAll (channelId : Option String)
  | findUpcoming (days : Nat)
  | findOne (id : String)
  | update (id : String) (d : UpdateEventDto)
  | remove (id : String)

inductive AdminRoute where
  | getStats
  | banUser (userId : String) (reason : Option Json)
  | unbanUser (userId : String)
  | deleteChannel (channelId : String)
  | deleteMessage (messageId : String)
  | getUserActivity (userId : String)

inductive GuildRoute where
  | create (d : CreateGuildDto)
  | findAll
  | findOne (guildId : String)
  | update (guildId : String) (d : UpdateGuildDto)
  | delete (guildId : String)
  | previewByInvite (inviteCode : String)
  | joinByInvite (inviteCode : String)
  | regenerateInvite (guildId : String)
  | getMembers (guildId : String)
  | kickMember (guildId userId : String)
  | banMember (guildId userId : String)
  | assignRole (guildId userId roleId : String)
  | removeRole (guildId userId roleId : String)
  | getRoles (guildId : String)
  | createRole (guildId : String) (d : CreateRoleDto)
  | updateRole (guildId roleId : String) (d : CreateRoleDto)
  | deleteRole (guildId roleId : String)
  | createCategory (guildId : String) (d : CreateCategoryDto)
  | deleteCategory (guildId categoryId : String)
  | getChannels (guildId : String)
  | createChannel (guildId : String) (d : CreateGuildChannelDto)

inductive Route where
  | auth (r : AuthRoute)
  | users (r : UserRoute)
  | channels (r : ChannelRoute)
  | messages (r : MessageRoute)
  | events (r : EventRoute)
  | admin (r : AdminRoute)
  | guilds (r : GuildRoute)

/-- A request: the bearer token of its header, if any, and the route. -/
structure Request where
  token : Option Jwt
  route : Route

/-- What a request is answered with when it succeeds. -/
inductive Body where
  | none
  | text (s : String)
  | session (s : Session)
  | invite (i : Invite)
  | profile (p : Profile)
  | user (u : User)
  | users (us : List UserListing)
  | userHits (us : List UserHit)
  | createdChannel (c : ChannelView Profile)
  | channel (c : ChannelView User)
  | channels (cs : List ChannelListing)
  | channelHits (cs : List ChannelHit)
  | createdMessage (m : MessageView Profile)
  | message (m : MessageView User)
  | messages (ms : List MessageListing)
  | messageHits (ms : List MessageHit)
  | createdEvent (e : EventView Profile)
  | event (e : EventView User)
  | events (es : List EventListing)
  | upcomingEvents (es : List (EventView User))
  | stats (s : SystemStats)
  | activity (a : UserActivity)
  | guild (g : GuildView)
  | guilds (gs : List (Guild × Option UserSummary))
  | guildPreview (g : GuildPreview)
  | member (m : GuildMember)
  | members (ms : List MemberListing)
  | role (r : GuildRole)
  | updatedRole (r : Option GuildRole)
  | roles (rs : List GuildRole)
  | category (c : ChannelCategory)
  | guildChannel (c : Channel)
  | categories (cs : List (ChannelCategory × List Channel))
deriving DecidableEq, Repr

/-- The validation of the body that a route takes. -/
def Route.valid (X : Externals) : Route → Bool
  | .auth (.register d) => d.valid X
  | .auth (.createInvite d) => d.valid X
  | .auth (.sendMagicLink d) => d.valid X
  | .auth (.login d) => d.valid X
  | .users (.create d) => d.valid X
  | .users (.update _ d) => d.valid X
  | .messages (.create _ d) | .messages (.update _ d) => d.valid X
  | .events (.create d) => d.valid X
  | .events (.update _ d) => d.valid X
  | .guilds (.create d) => d.valid
  | .guilds (.update _ d) => d.valid
  | .guilds (.createRole _ d) | .guilds (.updateRole _ _ d) => d.valid
  | .guilds (.createCategory _ d) => d.valid
  | .guilds (.createChannel _ d) => d.valid X
  | _ => true

section Controllers

variable (X : Externals) (env : Env)

def validate (r : Route) : Backend Unit :=
  throwIf (!r.valid X) (.badRequest "Validation failed")

def usersController : UserRoute → Service Body
  | .create d => .user <$> UsersService.create env (.ofDto d)
  | .findAll => .users <$> UsersService.findAll
  | .search q => .userHits <$> UsersService.search X q
  | .findOne id => .profile <$> UsersService.findById id
  | .update id d => .profile <$> UsersService.update env id d
  | .remove id => (fun _ => .none) <$> UsersService.remove id

def channelsController (user : Profile) : ChannelRoute → Service Body
  | .create d => .createdChannel <$> ChannelsService.create env d user
  | .findAll => .channels <$> ChannelsService.findAll
  | .search q => .channelHits <$> ChannelsService.search X q
  | .findOne id => .channel <$> ChannelsService.findOne id user
  | .update id d => .channel <$> ChannelsService.update env id d user
  | .remove id => (fun _ => .none) <$> ChannelsService.remove id user

def messagesController (user : Profile) : MessageRoute → Service Body
  | .create channelId d => .createdMessage <$> MessagesService.create env d user (.value channelId)
  | .findAll channelId limit offset =>
    .messages <$> MessagesService.findAll channelId user limit offset
  | .search channelId q => .messageHits <$> MessagesService.search X q channelId
  | .findOne id => .message <$> MessagesService.findOne id
  | .update id d => .message <$> MessagesService.update env id d user
  | .remove id => (fun _ => .none) <$> MessagesService.remove env id user

def eventsController (user : Profile) : EventRoute → Service Body
  | .create d => .createdEvent <$> EventsService.create X env d user
  | .findAll channelId => .events <$> EventsService.findAll channelId
  | .findUpcoming days => .upcomingEvents <$> EventsService.findUpcoming env days
  | .findOne id => .event <$> EventsService.findOne id
  | .update id d => .event <$> EventsService.update X env id d user
  | .remove id => (fun _ => .none) <$> EventsService.remove id user

def adminController (user : Profile) : AdminRoute → Service Body
  | .getStats => .stats <$> AdminService.getStats env user
  | .banUser id reason => (fun _ => .none) <$> AdminService.banUser env id user reason
  | .unbanUser id => (fun _ => .none) <$> AdminService.unbanUser env id user
  | .deleteChannel id => (fun _ => .none) <$> AdminService.deleteChannel id user
  | .deleteMessage id => (fun _ => .none) <$> AdminService.deleteMessage env id user
  | .getUserActivity id => .activity <$> AdminService.getUserActivity id user

def guildsController (user : Profile) : GuildRoute → Service Body
  | .create d => .guild <$> GuildsService.create env d user
  | .findAll => .guilds <$> GuildsService.findAll user
  | .findOne g => .guild <$> GuildsService.findOne env g user
  | .update g d => .guild <$> GuildsService.update env g d user
  | .delete g => (fun _ => .none) <$> GuildsService.delete g user
  | .previewByInvite code => .guildPreview <$> GuildsService.getByInviteCode code
  | .joinByInvite code => .member <$> GuildsService.joinByInvite env code user
  | .regenerateInvite g => .text <$> GuildsService.regenerateInviteCode env g user
  | .getMembers g => .members <$> GuildsService.getMembers env g user
  | .kickMember g u => (fun _ => .none) <$> GuildsService.kickMember env g u user
  | .banMember g u => (fun _ => .none) <$> GuildsService.banMember env g u user
  | .assignRole g u r => (fun _ => .none) <$> GuildsService.assignRole env g u r user
  | .removeRole g u r => (fun _ => .none) <$> GuildsService.removeRole env g u r user
  | .getRoles g => .roles <$> GuildsService.getRoles env g user
  | .createRole g d => .role <$> GuildsService.createRole env g d user
  | .updateRole g r d => .updatedRole <$> GuildsService.updateRole env g r d user
  | .deleteRole g r => (fun _ => .none) <$> GuildsService.deleteRole env g r user
  | .createCategory g d => .category <$> GuildsService.createCategory env g d user
  | .deleteCategory g c => (fun _ => .none) <$> GuildsService.deleteCategory env g c user
  | .getChannels g => .categories <$> GuildsService.getChannels env g user
  | .createChannel g d => .guildChannel <$> GuildsService.createChannel env g d user

/-- The routes behind `JwtAuthGuard`, other than those of `auth`. -/
def guarded (user : Profile) : Route → Service Body
  | .users r => usersController X env r
  | .channels r => channelsController X env user r
  | .messages r => messagesController X env user r
  | .events r => eventsController X env user r
  | .admin r => adminController env user r
  | .guilds r => guildsController env user r
  | .auth _ => throw (.notFound "Cannot find route")

def authController (token : Option Jwt) : AuthRoute → Backend Body
  | .register d => do
    validate X (.auth (.register d))
    .session <$> AuthService.register X env d
  | .createInvite d => do
    let _ ← AuthService.authenticate env token
    validate X (.auth (.createInvite d))
    .invite <$> AuthService.createInvite X env d
  | .sendMagicLink d => do
    validate X (.auth (.sendMagicLink d))
    .text <$> AuthService.sendMagicLink env d.email
  | .verifyMagicLink magicToken => .session <$> AuthService.verifyMagicLink X env magicToken
  | .login d => do
    validate X (.auth (.login d))
    .session <$> AuthService.login X env d
  | .getProfile => .profile <$> AuthService.authenticate env token
  | .refreshToken => do
    let user ← AuthService.authenticate env token
    .session <$> AuthService.refreshToken X env user

def handle (req : Request) : Backend Body :=
  match req.route with
  | .auth r => authController X env req.token r
  | route => do
    let user ← AuthService.authenticate env req.token
    validate X route
    onDb (guarded X env user route)

end Controllers

/-- One request with its surroundings, from the state it finds: its answer and the state after. -/
def serve (X : Externals) (s : Server) (i : Env × Request) : Except Exception Body × Server :=
  ((handle X i.1 i.2).outcome s, (handle X i.1 i.2).final s)

/-! ### Generated ids -/

def Database.keys (db : Database) : List Uuid :=
  db.users.map (·.id) ++ db.guilds.map (·.id) ++ db.guildMembers.map (·.id) ++
    db.guildRoles.map (·.id) ++ db.channelCategories.map (·.id) ++ db.channels.map (·.id) ++
    db.messages.map (·.id) ++ db.events.map (·.id)

/-- The uuids that a request generates, eleven at most, differ from each other and from the ids of
all rows. -/
def Fresh (env : Env) (db : Database) : Prop :=
  ((List.range 11).map env.uuids).Nodup ∧ ∀ n < 11, env.uuids n ∉ db.keys

instance (env : Env) (db : Database) : Decidable (Fresh env db) :=
  inferInstanceAs (Decidable (_ ∧ _))

/-- The steps of a run, in the states in which they are taken, generate fresh ids. -/
def FreshStep (s : Server) (i : Env × Request) : Prop := Fresh i.1 s.db

instance (s : Server) (i : Env × Request) : Decidable (FreshStep s i) :=
  inferInstanceAs (Decidable (Fresh _ _))

/-! ### Ids given by a request -/

def GuildRoute.ids : GuildRoute → List String
  | .findOne g | .update g _ | .delete g | .regenerateInvite g | .getMembers g | .getRoles g
  | .createRole g _ | .createCategory g _ | .getChannels g => [g]
  | .kickMember g u | .banMember g u => [g, u]
  | .assignRole g u r | .removeRole g u r => [g, u, r]
  | .updateRole g r _ | .deleteRole g r => [g, r]
  | .deleteCategory g c => [g, c]
  | .createChannel g d => g :: d.categoryId.get?.toList
  | .create _ | .findAll | .previewByInvite _ | .joinByInvite _ => []

/-- The ids in the path and the body of a request, as it gives them. -/
def Route.ids : Route → List String
  | .auth (.createInvite d) => d.channelId.get?.toList
  | .users (.findOne id) | .users (.update id _) | .users (.remove id) => [id]
  | .channels (.findOne id) | .channels (.update id _) | .channels (.remove id) => [id]
  | .messages (.findAll id _ _) | .messages (.search id _) | .messages (.findOne id)
  | .messages (.remove id) => [id]
  | .messages (.create id d) | .messages (.update id d) => id :: d.replyToId.get?.toList
  | .events (.create d) => d.channelId.get?.toList
  | .events (.findAll channelId) => channelId.toList
  | .events (.findOne id) | .events (.remove id) => [id]
  | .events (.update id d) => id :: d.channelId.get?.toList
  | .admin (.banUser id _) | .admin (.unbanUser id) | .admin (.deleteChannel id)
  | .admin (.deleteMessage id) | .admin (.getUserActivity id) => [id]
  | .guilds r => r.ids
  | .auth _ | .users _ | .channels _ | .events _ | .admin _ => []

/-- A text that stands for a uuid is the canonical one. -/
def Canonical (text : String) : Prop := ∀ u, Uuid.parse text = some u → text = u.toText

instance (text : String) : Decidable (Canonical text) :=
  decidable_of_iff ((Uuid.parse text).all (fun u => text = u.toText) = true) (by
    simp [Canonical, Option.all_eq_true])

/-- A step with fresh ids whose request gives its ids in canonical form. -/
def CanonicalStep (s : Server) (i : Env × Request) : Prop :=
  FreshStep s i ∧ ∀ text ∈ i.2.route.ids, Canonical text

instance (s : Server) (i : Env × Request) : Decidable (CanonicalStep s i) :=
  inferInstanceAs (Decidable (_ ∧ _))

/-! ### A deployment to run the model on -/

def sampleExternals : Externals :=
  { isEmail := fun s => '@' ∈ s.toList, isUUID := fun s => (Uuid.parse s).isSome
    isDateString := fun s => s = "1970-01-01", parseDate := fun _ => 0
    ilike := fun s pattern => "%" ++ s ++ "%" = pattern
    bcryptHash := fun salt pass => salt ++ pass
    bcryptCompare := fun pass hash => "$2b$" ++ pass = hash
    jwtExpiresIn := 60 * 60 * 24 * 7, frontendUrl := "http://localhost:3000" }

/-- The `k`th uuid that request `n` generates. -/
def sampleUuid (n k : Nat) : Uuid := BitVec.ofNat 128 (0x40008000000000000000 + 100 * n + k)

/-- The surroundings of request `n`. -/
def sampleEnv (n : Nat) : Env :=
  { now := 1000 * n, uuids := sampleUuid n, nanoid := "code" ++ toString n, salt := "$2b$"
    pick := fun _ => 0, redisFails := fun _ => false, mailFails := false }

/-- The token that request `n` signs for the account it registers. -/
def sampleToken (n : Nat) (username : String) : Jwt :=
  { sub := sampleUuid n 0, username, role := "member", iat := n, exp := n + 60 * 60 * 24 * 7 }

def alice : Profile :=
  { id := sampleUuid 1 0, username := "alice", email := some "alice@mail", avatar := none
    role := "member", status := "online", lastSeen := none, metadata := none, createdAt := 1000
    updatedAt := 1000 }

def bob : Profile :=
  { id := sampleUuid 2 0, username := "bob", email := some "bob@mail", avatar := none
    role := "member", status := "online", lastSeen := none, metadata := none, createdAt := 2000
    updatedAt := 2000 }

/-- A request of Alice or Bob, who register by the first two requests. -/
def byAlice (n : Nat) (r : GuildRoute) : Env × Request :=
  (sampleEnv n, ⟨some (sampleToken 1 "alice"), .guilds r⟩)

def byBob (n : Nat) (r : GuildRoute) : Env × Request :=
  (sampleEnv n, ⟨some (sampleToken 2 "bob"), .guilds r⟩)

/-- Alice and Bob register, and Alice opens a guild. -/
def guildRun (requiresApproval : BodyField Bool) : List (Env × Request) :=
  [(sampleEnv 1, ⟨none, .auth (.register ⟨"alice", "alice@mail", "secret"⟩)⟩),
    (sampleEnv 2, ⟨none, .auth (.register ⟨"bob", "bob@mail", "secret"⟩)⟩),
    byAlice 3 (.create ⟨"guild", .absent, .absent, requiresApproval⟩)]

/-- The guild that Alice opens. -/
def sampleGuild : Uuid := sampleUuid 3 0

end VoxLink
