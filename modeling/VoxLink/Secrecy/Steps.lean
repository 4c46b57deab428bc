import VoxLink.Secrecy.Guilds
import VoxLink.Secrecy.Handlers

/-! Requests and events on two states that differ in nothing but passwords. The answers agree up to
the passwords of the rows that they load. -/

namespace VoxLink

open ProofKit Prog

variable {X : Externals} {env : Env} {user : Profile}

/-- A body with the passwords of the rows it loads blanked. The row that `UsersService.create`
answers with is not loaded: it holds what the request gave. -/
def Body.hidden : Body → Body
  | .channel c => .channel c.hidden
  | .message m => .message m.hidden
  | .event e => .event e.hidden
  | .upcomingEvents es => .upcomingEvents (es.map EventView.hidden)
  | .guild g => .guild g.hidden
  | b => b

/-! ### The controllers behind the guard -/

theorem usersController_agrees (r : UserRoute) : Agrees SamePublic (usersController X env r) := by
  cases r with
  | create d => exact .map (UsersService.create_agrees _).via
  | findAll => exact .map UsersService.findAll_agrees.via
  | search q => exact .map (UsersService.search_agrees q).via
  | findOne id => exact .map (UsersService.findById_agrees id).via
  | update id d => exact .map (UsersService.update_agrees id d).via
  | remove id => exact .map (UsersService.remove_agrees id).via

theorem channelsController_agrees (r : ChannelRoute) :
    AgreesVia SamePublic Body.hidden (channelsController X env user r) := by
  cases r with
  | create d => exact .map (ChannelsService.create_agrees d).via
  | findAll => exact .map ChannelsService.findAll_agrees.via
  | search q => exact .map (ChannelsService.search_agrees q).via
  | findOne id => exact .map ((ChannelsService.findOne_agrees id).image (w := Body.channel))
  | update id d => exact .map ((ChannelsService.update_agrees id d).image (w := Body.channel))
  | remove id => exact .map (ChannelsService.remove_agrees id).via

theorem messagesController_agrees (r : MessageRoute) :
    AgreesVia SamePublic Body.hidden (messagesController X env user r) := by
  cases r with
  | create channelId d => exact .map (MessagesService.create_agrees d (.value channelId)).via
  | findAll channelId limit offset =>
    exact .map (MessagesService.findAll_agrees channelId limit offset).via
  | search channelId q => exact .map (MessagesService.search_agrees q channelId).via
  | findOne id => exact .map ((MessagesService.findOne_agrees id).image (w := Body.message))
  | update id d => exact .map ((MessagesService.update_agrees id d).image (w := Body.message))
  | remove id => exact .map (MessagesService.remove_agrees id).via

theorem eventsController_agrees (r : EventRoute) :
    AgreesVia SamePublic Body.hidden (eventsController X env user r) := by
  cases r with
  | create d => exact .map (EventsService.create_agrees d).via
  | findAll channelId => exact .map (EventsService.findAll_agrees channelId).via
  | findUpcoming days =>
    exact .map ((EventsService.findUpcoming_agrees days).image (w := Body.upcomingEvents))
  | findOne id => exact .map ((EventsService.findOne_agrees id).image (w := Body.event))
  | update id d => exact .map ((EventsService.update_agrees id d).image (w := Body.event))
  | remove id => exact .map (EventsService.remove_agrees id).via

theorem guildsController_agrees (r : GuildRoute) :
    AgreesVia SamePublic Body.hidden (guildsController env user r) := by
  cases r with
  | create d => exact .map ((GuildsService.create_agrees d).image (w := Body.guild))
  | findAll => exact .map GuildsService.findAll_agrees.via
  | findOne g => exact .map ((GuildsService.findOne_agrees g).image (w := Body.guild))
  | update g d => exact .map ((GuildsService.update_agrees g d).image (w := Body.guild))
  | delete g => exact .map (GuildsService.delete_agrees g).via
  | previewByInvite code => exact .map (GuildsService.getByInviteCode_agrees code).via
  | joinByInvite code => exact .map (GuildsService.joinByInvite_agrees code).via
  | regenerateInvite g => exact .map (GuildsService.regenerateInviteCode_agrees g).via
  | getMembers g => exact .map (GuildsService.getMembers_agrees g).via
  | kickMember g u => exact .map (GuildsService.kickMember_agrees g u).via
  | banMember g u => exact .map (GuildsService.banMember_agrees g u).via
  | assignRole g u r => exact .map (GuildsService.assignRole_agrees g u r).via
  | removeRole g u r => exact .map (GuildsService.removeRole_agrees g u r).via
  | getRoles g => exact .map (GuildsService.getRoles_agrees g).via
  | createRole g d => exact .map (GuildsService.createRole_agrees g d).via
  | updateRole g r d => exact .map (GuildsService.updateRole_agrees g r d).via
  | deleteRole g r => exact .map (GuildsService.deleteRole_agrees g r).via
  | createCategory g d => exact .map (GuildsService.createCategory_agrees g d).via
  | deleteCategory g c => exact .map (GuildsService.deleteCategory_agrees g c).via
  | getChannels g => exact .map (GuildsService.getChannels_agrees g).via
  | createChannel g d => exact .map (GuildsService.createChannel_agrees g d).via

theorem guarded_agrees (r : Route) :
    AgreesVia SamePublic Body.hidden (guarded X env user r) := by
  cases r with
  | auth r => exact .throw _
  | users r => exact (usersController_agrees r).via
  | channels r => exact channelsController_agrees r
  | messages r => exact messagesController_agrees r
  | events r => exact eventsController_agrees r
  | admin r => exact (AdminService.adminController_agrees r).via
  | guilds r => exact guildsController_agrees r

/-! ### Requests -/

def Server.hidden (s : Server) : Server := { s with db := s.db.hidden }

theorem Server.hidden_hidden (s : Server) : s.hidden.hidden = s.hidden :=
  Server.mapDb_mapDb Database.hidden_hidden s

theorem agrees_onDb {α β : Type} {v : α → β} {m : Service α} (h : AgreesVia SamePublic v m) :
    AgreesVia (SameUnder Server.hidden) v (onDb m) :=
  mapDb_onDb Database.hidden_hidden h

namespace AuthService

theorem authenticate_agrees (token : Option Jwt) :
    Agrees (SameUnder Server.hidden) (authenticate env token) :=
  mapDb_authenticate Database.hidden_hidden UsersService.profile_agrees token

theorem signUser_agrees (user : Profile) :
    Agrees (SameUnder Server.hidden) (signUser X env user) :=
  .bind (.commutes Server.hidden_hidden fun _ => rfl) fun _ => .pure _

theorem setex_agrees (site : Nat) (key : String) (ttl : Int) (v : RedisValue) :
    Agrees (SameUnder Server.hidden) (setex env site key ttl v) := by
  dsimp only [setex]
  split
  · exact .pure _
  · exact .bind (.commutes Server.hidden_hidden fun _ => rfl) fun _ => .pure _

theorem redisGet_agrees (site : Nat) (key : String) :
    Agrees (SameUnder Server.hidden) (redisGet env site key) :=
  .bind (.throwIf _ _) fun _ => .read fun _ => rfl

theorem register_agrees (d : RegisterDto) :
    Agrees (SameUnder Server.hidden) (register X env d) := by
  refine .bind (agrees_texts _) fun _ => ?_
  refine .bind (.read fun s => s.db.any_hidden fun _ => rfl) fun _ => ?_
  refine .bind (.throwIf _ _) fun _ => ?_
  refine .bind (.read fun s => s.db.any_hidden fun _ => rfl) fun _ => ?_
  refine .bind (.throwIf _ _) fun _ => ?_
  exact .bind (agrees_onDb (UsersService.create_agrees _)) fun _ => signUser_agrees _

theorem createInvite_agrees (d : CreateInviteDto) :
    Agrees (SameUnder Server.hidden) (createInvite X env d) :=
  .bind (setex_agrees _ _ _ _) fun _ => .bind (.throwIf _ _) fun _ => .pure _

theorem sendMagicLink_agrees (email : String) :
    Agrees (SameUnder Server.hidden) (sendMagicLink env email) :=
  .bind (setex_agrees _ _ _ _) fun _ => .bind (.throwIf _ _) fun _ =>
    .bind (.throwIf _ _) fun _ => .pure _

theorem findBy_hidden (db : Database) {p : User → Bool} (hp : ∀ u : User, p u.hidden = p u) :
    (db.hidden.users.find? p).map User.toProfile = (db.users.find? p).map User.toProfile := by
  rw [db.find?_hidden hp, Option.map_map]
  rfl

theorem signInByEmail_agrees (email : String) :
    Agrees (SameUnder Server.hidden) (signInByEmail X env email) := by
  refine .bind (.read fun s => findBy_hidden s.db fun _ => rfl) fun found => ?_
  cases found with
  | some user => exact signUser_agrees user
  | none => exact .bind (agrees_onDb (UsersService.create_agrees _)) fun _ => signUser_agrees _

theorem verifyMagicLink_agrees (token : String) :
    Agrees (SameUnder Server.hidden) (verifyMagicLink X env token) := by
  refine .bind (redisGet_agrees _ _) fun _ => .bind (.orThrow _ _) fun email => ?_
  split
  · exact signInByEmail_agrees email
  · exact .bind (.commutes Server.hidden_hidden fun _ => rfl) fun _ => signInByEmail_agrees email

theorem useInvite_agrees (token : String) :
    Agrees (SameUnder Server.hidden) (useInvite env token) := by
  refine .bind (redisGet_agrees _ _) fun stored => ?_
  match stored with
  | none => exact .throw _
  | some (.text _) => exact .throw _
  | some (.members _) => exact .throw _
  | some (.invite invite) =>
    refine .bind (.throwIf _ _) fun _ => ?_
    split
    · exact .pure _
    · refine .bind (.read fun _ => rfl) fun _ => ?_
      exact .bind (setex_agrees _ _ _ _) fun _ => .pure _

theorem loginUser_hidden (d : LoginDto) (db : Database) :
    loginUser d db.hidden = loginUser d db := by
  have hemail : ∀ email, findByEmail email db.hidden = findByEmail email db :=
    fun email => findBy_hidden db fun _ => rfl
  have hname : ∀ name, findByUsername name db.hidden = findByUsername name db :=
    fun name => findBy_hidden db fun _ => rfl
  simp only [loginUser, hemail, hname]

theorem login_agrees (d : LoginDto) : Agrees (SameUnder Server.hidden) (login X env d) := by
  have signIn : Agrees (SameUnder Server.hidden) (do
      let found ← query fun s => loginUser d s.db
      let user ← orThrow (.unauthorized "User not found") found
      signUser X env user) :=
    .bind (.read fun s => loginUser_hidden d s.db) fun _ =>
      .bind (.orThrow _ _) fun _ => signUser_agrees _
  refine .bind (.throwIf _ _) fun _ => ?_
  split
  · exact .bind (useInvite_agrees _) fun _ => signIn
  · exact signIn

end AuthService

theorem validate_agrees (r : Route) : Agrees (SameUnder Server.hidden) (validate X r) :=
  .throwIf _ _

theorem authController_agrees (token : Option Jwt) (r : AuthRoute) :
    Agrees (SameUnder Server.hidden) (authController X env token r) := by
  cases r with
  | register d =>
    exact .bind (validate_agrees _) fun _ => .map (AuthService.register_agrees d).via
  | createInvite d =>
    exact .bind (AuthService.authenticate_agrees token) fun _ => .bind (validate_agrees _) fun _ =>
      .map (AuthService.createInvite_agrees d).via
  | sendMagicLink d =>
    exact .bind (validate_agrees _) fun _ => .map (AuthService.sendMagicLink_agrees d.email).via
  | verifyMagicLink t => exact .map (AuthService.verifyMagicLink_agrees t).via
  | login d => exact .bind (validate_agrees _) fun _ => .map (AuthService.login_agrees d).via
  | getProfile => exact .map (AuthService.authenticate_agrees token).via
  | refreshToken =>
    exact .bind (AuthService.authenticate_agrees token) fun user =>
      .map (AuthService.signUser_agrees user).via

/-- The answers to a request agree up to the passwords of the rows they load. -/
theorem handle_agrees (req : Request) :
    AgreesVia (SameUnder Server.hidden) Body.hidden (handle X env req) := by
  obtain ⟨token, route⟩ := req
  have guardedCase : AgreesVia (SameUnder Server.hidden) Body.hidden (do
      let user ← AuthService.authenticate env token
      validate X route
      onDb (guarded X env user route)) :=
    .bind (AuthService.authenticate_agrees token) fun _ => .bind (validate_agrees _) fun _ =>
      agrees_onDb (guarded_agrees route)
  cases route with
  | auth r => exact (authController_agrees token r).via
  | _ => exact guardedCase

/-! ### Events of sockets -/

def Gateway.hidden (g : Gateway) : Gateway := { g with server := g.server.hidden }

namespace WebsocketGateway

variable {client : String}

-- The channel is loaded with the whole row of its creator, which goes no further.
theorem handleJoinChannel_agrees (channelId : BodyField String) :
    Agrees (SameUnder Gateway.hidden) (handleJoinChannel env client channelId) := by
  refine mapDb_handleJoinChannel Database.hidden_hidden ?_ ?_
  · exact fun user => (ChannelsService.findOneOf_agrees channelId).image (w := fun _ => ())
  · exact fun user => MessagesService.findAllOf_agrees channelId 50 0

/-- What a handler does and emits depends on no password. -/
theorem handleEvent_agrees (e : SocketEvent) :
    Agrees (SameUnder Gateway.hidden) (handleEvent env client e) := by
  have services : ServicesAgree env Database.hidden :=
    ⟨UsersService.profile_agrees, UsersService.updateStatus_agrees,
      fun d _ channelId => MessagesService.create_agrees d channelId⟩
  by_cases hjoin : ∃ c, e = .joinChannel c
  · obtain ⟨c, rfl⟩ := hjoin
    exact handleJoinChannel_agrees c
  · exact mapDb_handleEvent Database.hidden_hidden services fun c hc => hjoin ⟨c, hc⟩

end WebsocketGateway

end VoxLink
