import VoxLink.Backend.Gateway

/-! The backend on two states that agree but for a part of the database that `hide` blanks. What the
services agree on, the requests and the handlers of the gateway agree on. -/

namespace VoxLink

open ProofKit Prog

def Server.mapDb (hide : Database → Database) (s : Server) : Server := { s with db := hide s.db }

def Gateway.mapDb (hide : Database → Database) (g : Gateway) : Gateway :=
  { g with server := g.server.mapDb hide }

section Lift

variable {α β : Type} {v : α → β} {hide : Database → Database}
  (hide_hide : ∀ db, hide (hide db) = hide db)

include hide_hide

theorem Server.mapDb_mapDb (s : Server) : (s.mapDb hide).mapDb hide = s.mapDb hide := by
  rw [mapDb, mapDb, hide_hide]

theorem Gateway.mapDb_mapDb (g : Gateway) : (g.mapDb hide).mapDb hide = g.mapDb hide := by
  rw [mapDb, mapDb, Server.mapDb_mapDb hide_hide]

theorem sameUnder_db {s t : Server} (h : SameUnder (Server.mapDb hide) s t) :
    SameUnder hide s.db t.db :=
  h.same (q := fun s => hide s.db) fun s => hide_hide s.db

theorem sameUnder_server {g g' : Gateway} (h : SameUnder (Gateway.mapDb hide) g g') :
    SameUnder (Server.mapDb hide) g.server g'.server :=
  h.same (q := fun g => g.server.mapDb hide) fun g => Server.mapDb_mapDb hide_hide g.server

omit hide_hide in
theorem sameUnder_put {s t : Server} {x y : Database} (h : SameUnder (Server.mapDb hide) s t)
    (hxy : SameUnder hide x y) :
    SameUnder (Server.mapDb hide) { s with db := x } { t with db := y } := by
  have hredis : s.redis = t.redis := h.same (q := Server.redis) fun _ => rfl
  have hissued : s.issued = t.issued := h.same (q := Server.issued) fun _ => rfl
  show Server.mk (hide x) s.redis s.issued = Server.mk (hide y) t.redis t.issued
  rw [hredis, hissued, show hide x = hide y from hxy]

omit hide_hide in
theorem sameUnder_putServer {g g' : Gateway} {x y : Server}
    (h : SameUnder (Gateway.mapDb hide) g g') (hxy : SameUnder (Server.mapDb hide) x y) :
    SameUnder (Gateway.mapDb hide) { g with server := x } { g' with server := y } := by
  have hsockets : g.sockets = g'.sockets := h.same (q := Gateway.sockets) fun _ => rfl
  have hsent : g.sent = g'.sent := h.same (q := Gateway.sent) fun _ => rfl
  show Gateway.mk (x.mapDb hide) g.sockets g.sent = Gateway.mk (y.mapDb hide) g'.sockets g'.sent
  rw [hsockets, hsent, show x.mapDb hide = y.mapDb hide from hxy]

omit hide_hide in
theorem mapDb_onDb_at {m : Service α} {s t : Server} (hst : SameUnder (Server.mapDb hide) s t)
    (h : SameResult (SameUnder hide) v (m s.db) (m t.db)) :
    SameResult (SameUnder (Server.mapDb hide)) v (onDb m s) (onDb m t) := by
  refine SameResult.within ?_ h
  exact fun _ _ => sameUnder_put hst

omit hide_hide in
theorem mapDb_onServer_at {m : Backend α} {g g' : Gateway}
    (hg : SameUnder (Gateway.mapDb hide) g g')
    (h : SameResult (SameUnder (Server.mapDb hide)) v (m g.server) (m g'.server)) :
    SameResult (SameUnder (Gateway.mapDb hide)) v (onServer m g) (onServer m g') := by
  refine SameResult.within ?_ h
  exact fun _ _ => sameUnder_putServer hg

theorem mapDb_onDb {m : Service α} (h : AgreesVia (SameUnder hide) v m) :
    AgreesVia (SameUnder (Server.mapDb hide)) v (onDb m) :=
  fun s t hst => mapDb_onDb_at hst (h s.db t.db (sameUnder_db hide_hide hst))

theorem mapDb_onServer {m : Backend α} (h : AgreesVia (SameUnder (Server.mapDb hide)) v m) :
    AgreesVia (SameUnder (Gateway.mapDb hide)) v (onServer m) :=
  fun g g' hg => mapDb_onServer_at hg (h g.server g'.server (sameUnder_server hide_hide hg))

/-- A write to Redis or the issued tokens. -/
theorem mapDb_redis {w : Server → Server} {v : Unit → β}
    (h : ∀ s : Server, w (s.mapDb hide) = (w s).mapDb hide) :
    AgreesVia (SameUnder (Server.mapDb hide)) v (write w : Backend Unit) :=
  .commutes (Server.mapDb_mapDb hide_hide) h

/-- A write to the sockets and emissions. -/
theorem mapDb_sockets {w : Gateway → Gateway}
    (h : ∀ g : Gateway, w (g.mapDb hide) = (w g).mapDb hide) :
    Agrees (SameUnder (Gateway.mapDb hide)) (write w : Handler Unit) :=
  .commutes (Gateway.mapDb_mapDb hide_hide) h

theorem mapDb_emitTo (p : Socket → Bool) (e : GatewayEvent) :
    Agrees (SameUnder (Gateway.mapDb hide)) (emitTo p e) :=
  mapDb_sockets hide_hide fun _ => rfl

theorem mapDb_join (client room : String) :
    Agrees (SameUnder (Gateway.mapDb hide)) (join client room) :=
  mapDb_sockets hide_hide fun _ => rfl

theorem mapDb_leave (client room : String) :
    Agrees (SameUnder (Gateway.mapDb hide)) (leave client room) :=
  mapDb_sockets hide_hide fun _ => rfl

theorem mapDb_disconnect (client : String) :
    Agrees (SameUnder (Gateway.mapDb hide)) (disconnect client) :=
  mapDb_sockets hide_hide fun _ => rfl

variable {env : Env} {client : String}

/-! ### Redis -/

theorem mapDb_attempt (site : Nat) (command : Redis → Option Redis) :
    Agrees (SameUnder (Server.mapDb hide)) (WebsocketService.attempt env site command) := by
  refine .bind (.read fun _ => rfl) fun result => ?_
  cases result with
  | some redis => exact .bind (mapDb_redis hide_hide fun _ => rfl) fun _ => .pure _
  | none => exact .pure _

theorem mapDb_removeFrom (userId : String) (site : Nat) (keys : List String) :
    Agrees (SameUnder (Server.mapDb hide))
      (WebsocketService.removeFrom env userId site keys) := by
  induction keys generalizing site with
  | nil => exact .pure _
  | cons key keys ih =>
    refine .bind (mapDb_attempt hide_hide _ _) fun worked => ?_
    cases worked with
    | true => exact ih (site + 1)
    | false => exact .pure _

/-! ### Handlers -/

omit hide_hide in
theorem mapDb_asUser {k : Profile → Handler Unit}
    (hk : ∀ user, Agrees (SameUnder (Gateway.mapDb hide)) (k user)) :
    Agrees (SameUnder (Gateway.mapDb hide)) (WebsocketGateway.asUser client k) := by
  refine .bind (.read fun _ => rfl) fun user => ?_
  cases user with
  | some user => exact hk user
  | none => exact .pure _

theorem mapDb_authenticate (hprofile : ∀ id, Agrees (SameUnder hide) (UsersService.profile id))
    (token : Option Jwt) :
    Agrees (SameUnder (Server.mapDb hide)) (AuthService.authenticate env token) := by
  refine .bind (.read fun _ => rfl) fun _ => .bind (.orThrow _ _) fun j => ?_
  exact mapDb_onDb hide_hide (hprofile j.sub)

/-- What the handlers ask of the services, the load of a channel apart. -/
structure ServicesAgree (env : Env) (hide : Database → Database) : Prop where
  profile (id : Uuid) : Agrees (SameUnder hide) (UsersService.profile id)
  updateStatus (id : Uuid) (status : String) :
    Agrees (SameUnder hide) (UsersService.updateStatus env id status)
  create (d : CreateMessageDto) (user : Profile) (channelId : BodyField String) :
    Agrees (SameUnder hide) (MessagesService.create env d user channelId)

variable (services : ServicesAgree env hide)

include services

theorem mapDb_updateStatus (id : Uuid) (status : String) :
    Agrees (SameUnder (Gateway.mapDb hide))
      (onServer (onDb (UsersService.updateStatus env id status))) :=
  mapDb_onServer hide_hide (mapDb_onDb hide_hide (services.updateStatus id status))

theorem mapDb_handleConnection (handshake : Handshake) :
    Agrees (SameUnder (Gateway.mapDb hide))
      (WebsocketGateway.handleConnection env client handshake) := by
  refine .bind (mapDb_sockets hide_hide fun _ => rfl) fun _ =>
    .recover ?_ fun _ => mapDb_disconnect hide_hide client
  refine .bind (mapDb_onServer hide_hide
    (mapDb_authenticate hide_hide services.profile _)) fun user => ?_
  refine .bind (mapDb_sockets hide_hide fun _ => rfl) fun _ => ?_
  refine .bind (mapDb_updateStatus hide_hide services _ _) fun _ => ?_
  exact .bind (mapDb_join hide_hide _ _) fun _ => mapDb_emitTo hide_hide _ _

theorem mapDb_handleDisconnect (user : Profile) :
    Agrees (SameUnder (Gateway.mapDb hide)) (WebsocketGateway.handleDisconnect env user) := by
  refine .bind (mapDb_updateStatus hide_hide services _ _) fun _ => ?_
  refine .bind (mapDb_emitTo hide_hide _ _) fun _ => mapDb_onServer hide_hide ?_
  exact .bind (.read fun _ => rfl) fun _ => mapDb_removeFrom hide_hide _ _ _

omit services in
theorem mapDb_handleLeaveChannel (channelId : String) :
    Agrees (SameUnder (Gateway.mapDb hide))
      (WebsocketGateway.handleLeaveChannel env client channelId) := by
  refine mapDb_asUser fun user => .bind (mapDb_leave hide_hide _ _) fun _ => ?_
  refine .bind (mapDb_onServer hide_hide ?_) fun _ => mapDb_emitTo hide_hide _ _
  exact .bind (mapDb_attempt hide_hide _ _) fun _ => .pure _

theorem mapDb_handleSendMessage (data : SendMessageData) :
    Agrees (SameUnder (Gateway.mapDb hide))
      (WebsocketGateway.handleSendMessage env client data) := by
  refine mapDb_asUser fun user => .recover ?_ fun e => mapDb_emitTo hide_hide _ _
  refine .bind (mapDb_onServer hide_hide (mapDb_onDb hide_hide (services.create _ _ _)))
    fun _ => ?_
  exact mapDb_emitTo hide_hide _ _

omit services in
/-- The snapshot of a channel, when the services agree on the channel and its messages. -/
theorem mapDb_handleJoinChannel {channelId : BodyField String}
    (hfind : ∀ user, AgreesVia (SameUnder hide) (fun _ => ())
      (ChannelsService.findOneOf env channelId user))
    (hall : ∀ user, Agrees (SameUnder hide)
      (MessagesService.findAllOf env channelId user 50 0)) :
    Agrees (SameUnder (Gateway.mapDb hide))
      (WebsocketGateway.handleJoinChannel env client channelId) := by
  refine mapDb_asUser fun user => .recover ?_ fun e => mapDb_emitTo hide_hide _ _
  refine .seq (mapDb_onServer hide_hide (mapDb_onDb hide_hide (hfind user))) ?_
  refine .bind (mapDb_join hide_hide _ _) fun _ => .bind (mapDb_onServer hide_hide ?_) fun _ => ?_
  · exact .bind (mapDb_attempt hide_hide _ _) fun _ => .pure _
  refine .bind (mapDb_onServer hide_hide (.read fun _ => rfl)) fun _ => ?_
  refine .bind (mapDb_onServer hide_hide (mapDb_onDb hide_hide (hall user))) fun _ => ?_
  exact .bind (mapDb_emitTo hide_hide _ _) fun _ => mapDb_emitTo hide_hide _ _

/-- The handlers of all events but `channel:join`. -/
theorem mapDb_handleEvent {e : SocketEvent} (he : ∀ c, e ≠ .joinChannel c) :
    Agrees (SameUnder (Gateway.mapDb hide)) (WebsocketGateway.handleEvent env client e) := by
  cases e with
  | connection handshake => exact mapDb_handleConnection hide_hide services handshake
  | disconnection =>
    refine .bind (.read fun _ => rfl) fun user => ?_
    refine .bind (mapDb_disconnect hide_hide client) fun _ => ?_
    cases user with
    | some user => exact mapDb_handleDisconnect hide_hide services user
    | none => exact .pure _
  | joinChannel c => exact absurd rfl (he c)
  | leaveChannel c => exact mapDb_handleLeaveChannel hide_hide c
  | sendMessage data => exact mapDb_handleSendMessage hide_hide services data
  | typingStart c => exact mapDb_asUser fun _ => mapDb_emitTo hide_hide _ _
  | typingStop c => exact mapDb_asUser fun _ => mapDb_emitTo hide_hide _ _
  | guildJoin g => exact mapDb_asUser fun _ => mapDb_join hide_hide _ _
  | guildLeave g => exact mapDb_asUser fun _ => mapDb_leave hide_hide _ _
  | voiceJoined c => exact mapDb_asUser fun _ => mapDb_emitTo hide_hide _ _
  | voiceLeft c => exact mapDb_asUser fun _ => mapDb_emitTo hide_hide _ _

/-! ### Steps -/

section Step

variable {X : Externals} {g g' : Gateway}

omit hide_hide services

/-- Steps on two states that answer or emit the same and leave states that agree. -/
def StepAgrees (X : Externals) (hide : Database → Database) (i : Env × Input) (g g' : Gateway) :
    Prop :=
  (Gateway.step X g i).1 = (Gateway.step X g' i).1 ∧
    SameUnder (Gateway.mapDb hide) (Gateway.step X g i).2 (Gateway.step X g' i).2

theorem stepAgrees_request {req : Request} (hg : SameUnder (Gateway.mapDb hide) g g')
    (hout : (handle X env req).outcome g.server = (handle X env req).outcome g'.server)
    (hfinal : SameUnder (Server.mapDb hide) ((handle X env req).final g.server)
      ((handle X env req).final g'.server)) :
    StepAgrees X hide (env, .request req) g g' :=
  ⟨congrArg Output.response hout, sameUnder_putServer hg hfinal⟩

include hide_hide in
theorem sameUnder_start (hg : SameUnder (Gateway.mapDb hide) g g') :
    SameUnder (Gateway.mapDb hide) { g with sent := [] } { g' with sent := [] } :=
  hg.same (q := fun g => Gateway.mapDb hide { g with sent := [] }) fun g =>
    Gateway.mapDb_mapDb hide_hide { g with sent := [] }

theorem stepAgrees_event {e : SocketEvent}
    (hfinal : SameUnder (Gateway.mapDb hide)
      ((WebsocketGateway.handleEvent env client e).final { g with sent := [] })
      ((WebsocketGateway.handleEvent env client e).final { g' with sent := [] })) :
    StepAgrees X hide (env, .event client e) g g' :=
  ⟨congrArg Output.emitted (hfinal.same (q := Gateway.sent) fun _ => rfl), hfinal⟩

end Step

end Lift

end VoxLink
