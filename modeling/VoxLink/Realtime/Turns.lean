import VoxLink.Backend.Gateway
import VoxLink.ProofKit.Pools

/-! The handlers of the gateway cut at their `await`s. Handlers take turns: in its turn a handler is
given what it awaits, and goes on to the next `await`. -/

namespace VoxLink

open ProofKit Prog

/-- An event of a socket, with the surroundings of its handler. -/
structure Task where
  env : Env
  client : String
  event : SocketEvent

/-- What a handler awaits, with what it has loaded. `idle` is before the event. -/
inductive Phase where
  | idle
  -- `handleConnection`
  | account (sub : Uuid)
  | online (user : Profile)
  | onlineAgain (user : Profile)
  | ownRoom (user : Profile)
  | welcome (user : Profile)
  -- `handleDisconnect`
  | offline (user : Profile)
  | offlineAgain (user : Profile)
  | memberKeys (user : Profile)
  | forget (user : Profile) (site : Nat) (keys : List String)
  -- `handleJoinChannel`
  | channel (channelId : BodyField String) (user : Profile)
  | room (channelId : BodyField String) (user : Profile)
  | addMember (channelId : BodyField String) (user : Profile)
  | members (channelId : BodyField String) (user : Profile)
  | messages (channelId : BodyField String) (user : Profile) (members : List String)
  | ready (channelId : BodyField String) (user : Profile) (members : List String)
      (messages : List MessageListing)
  -- `handleLeaveChannel`
  | dropMember (channelId : String) (user : Profile)
  -- `handleSendMessage`
  | save (data : SendMessageData) (user : Profile)
  | saved (channelId : BodyField String) (user : Profile) (message : Message)
  | finished

/-- The statement of `UsersService.updateStatus`, which then reads the row again. -/
def UsersService.writeStatus (env : Env) (id : Uuid) (status : String) : Service Unit :=
  write fun db => { db with
    users := Rows.modify (·.id = id)
      (fun u => { u with status, lastSeen := some env.now, updatedAt := env.now }) db.users }

theorem updateStatus_eq {env : Env} {id : Uuid} {status : String} :
    UsersService.updateStatus env id status =
      (UsersService.writeStatus env id status >>= fun _ => UsersService.profile id) := rfl

namespace Task

variable (t : Task)

/-- The handlers do nothing for a socket without an account. -/
def asUser (k : Profile → Handler Phase) : Handler Phase := do
  let user ← query (WebsocketGateway.account t.client)
  match user with
  | some user => k user
  | none => pure .finished

/-- The event comes. A socket that is not connected cannot disconnect. -/
def start : Handler Phase :=
  match t.event with
  | .connection handshake => do
    write fun g => { g with sockets := g.sockets ++ [⟨t.client, none, []⟩] }
    let valid ← query fun g => handshake.token.filter (AuthService.verify t.env g.server)
    match valid with
    | some token => pure (.account token.sub)
    | none => do
      disconnect t.client
      pure .finished
  | .disconnection => do
    let connected ← query fun g => g.sockets.any (·.id = t.client)
    let user ← query (WebsocketGateway.account t.client)
    disconnect t.client
    match user with
    | some user => pure (.offline user)
    | none => pure (if connected then .finished else .idle)
  | .joinChannel c => t.asUser fun user => pure (.channel c user)
  | .leaveChannel c => t.asUser fun user => do
    leave t.client (channelRoom c)
    pure (.dropMember c user)
  | .sendMessage data => t.asUser fun user => pure (.save data user)
  | event => do
    WebsocketGateway.handleEvent t.env t.client event
    pure .finished

/-- The `catch` of the handlers of channels and messages. -/
def fail (e : Exception) : Handler Phase := do
  emitTo (·.id = t.client) (.error e)
  pure .finished

/-- What a handler does when what it awaits is there, up to the next `await`. -/
def turn : Phase → Handler Phase
  | .idle => t.start
  | .account sub =>
    recover (do
        let user ← onServer (onDb (UsersService.profile sub))
        updateSocket t.client fun s => { s with user := some user }
        pure (.online user))
      fun _ => do
        disconnect t.client
        pure .finished
  | .online user => do
    onServer (onDb (UsersService.writeStatus t.env user.id "online"))
    pure (.onlineAgain user)
  | .onlineAgain user =>
    recover (do
        let _ ← onServer (onDb (UsersService.profile user.id))
        pure (.ownRoom user))
      -- The end of the connection calls `handleDisconnect`.
      fun _ => do
        disconnect t.client
        pure (.offline user)
  | .ownRoom user => do
    join t.client (userRoom user.id)
    pure (.welcome user)
  | .welcome user => do
    emitTo (fun _ => true) (.presence user.id "online")
    pure .finished
  | .offline user => do
    onServer (onDb (UsersService.writeStatus t.env user.id "offline"))
    pure (.offlineAgain user)
  | .offlineAgain user => do
    let _ ← onServer (onDb (UsersService.profile user.id))
    emitTo (fun _ => true) (.presence user.id "offline")
    pure (.memberKeys user)
  | .memberKeys user => do
    let keys ← onServer (query fun s =>
      if t.env.redisFails 0 then []
      else (s.redis.keys t.env.now).filter WebsocketService.isMembersKey)
    pure (.forget user 1 keys)
  | .forget _ _ [] => pure .finished
  | .forget user site (key :: keys) => do
    let worked ← onServer (WebsocketService.attempt t.env site
      (WebsocketService.srem t.env key user.id.toText))
    pure (if worked then .forget user (site + 1) keys else .finished)
  | .channel c user =>
    recover (do
        let _ ← onServer (onDb (ChannelsService.findOneOf t.env c user))
        pure (.room c user))
      fun e => t.fail e
  | .room c user => do
    join t.client (channelRoom c.text)
    pure (.addMember c user)
  | .addMember c user => do
    onServer (WebsocketService.addChannelMember t.env 0 c.text user.id.toText)
    pure (.members c user)
  | .members c user => do
    let members ← onServer (WebsocketService.getChannelMembers t.env 1 c.text)
    pure (.messages c user members)
  | .messages c user members =>
    recover (do
        let messages ← onServer (onDb (MessagesService.findAllOf t.env c user 50 0))
        pure (.ready c user members messages))
      fun e => t.fail e
  | .ready c user members messages => do
    emitTo (channelRoom c.text ∈ ·.rooms) (.memberJoined c user.summary)
    emitTo (·.id = t.client) (.ready c messages.reverse members)
    pure .finished
  | .dropMember c user => do
    onServer (WebsocketService.removeChannelMember t.env 0 c user.id.toText)
    emitTo (channelRoom c ∈ ·.rooms) (.memberLeft c user.id)
    pure .finished
  | .save data user =>
    recover (do
        let created ← onServer (onDb (MessagesService.create t.env
          { content := data.content, attachments := data.attachments
            replyToId := data.replyToId, metadata := .absent } user data.channelId))
        pure (.saved data.channelId user created.message))
      fun e => t.fail e
  | .saved c user m => do
    emitTo (channelRoom c.text ∈ ·.rooms) (.messageNew
      ⟨m.id, c, m.content, m.attachments, m.replyToId, user.summary, m.createdAt⟩)
    pure .finished
  | .finished => pure .finished

/-- A turn of a handler; an exception ends it. -/
def move (l : Task × Phase) (g : Gateway) : (Task × Phase) × Gateway :=
  match l.1.turn l.2 g with
  | .ok phase g' => ((l.1, phase), g')
  | .error _ g' => ((l.1, .finished), g')

/-! ### A handler that is not interrupted -/

/-- Alone, the handler goes from `phase` to its end, and leaves `g'`. -/
def Ends (phase : Phase) (g g' : Gateway) : Prop := Comes move (t, phase) g (t, .finished) g'

variable {t} {phase phase' : Phase} {g g' g'' : Gateway}

theorem Ends.turn (hturn : t.turn phase g = .ok phase' g') (h : t.Ends phase' g' g'') :
    t.Ends phase g g'' := by
  refine Comes.turn ?_
  rw [move, hturn]
  exact h

theorem Ends.last (hturn : t.turn phase g = .ok .finished g') : t.Ends phase g g' :=
  .turn hturn .refl

theorem Ends.throws {e : Exception} (hturn : t.turn phase g = .error e g') :
    t.Ends phase g g' := by
  refine Comes.turn ?_
  rw [move, hturn]
  exact .refl

section Steps

variable {α : Type} {m : Handler α} {next : α → Phase} {f : α → Handler Unit}

/-- A turn that does the first step of a handler and goes on to the phase of the rest. -/
theorem Ends.bind (hturn : t.turn phase g = (m >>= fun a => pure (next a)) g)
    (hrest : ∀ a g', m g = .ok a g' → t.Ends (next a) g' ((f a).final g')) :
    t.Ends phase g ((m >>= f).final g) := by
  cases hm : m g with
  | ok a g' =>
    rw [final_bind_at hm]
    rw [bind_at hm] at hturn
    exact .turn hturn (hrest a g' hm)
  | error e g' =>
    rw [final_bind_error_at hm]
    rw [bind_error_at hm] at hturn
    exact .throws hturn

/-- The same inside the `try` of a handler. -/
theorem Ends.bind_catch {handler : Exception → Handler Unit}
    {caught : Exception → Handler Phase}
    (hturn : t.turn phase g = recover (m >>= fun a => pure (next a)) caught g)
    (hcaught : ∀ e g', caught e g' = .ok .finished ((handler e).final g'))
    (hrest : ∀ a g', m g = .ok a g' → t.Ends (next a) g' ((recover (f a) handler).final g')) :
    t.Ends phase g ((recover (m >>= f) handler).final g) := by
  cases hm : m g with
  | ok a g' =>
    rw [final_recover_bind_at hm]
    rw [recover_bind_at hm] at hturn
    exact .turn hturn (hrest a g' hm)
  | error e g' =>
    rw [final_recover_error_at (bind_error_at hm)]
    rw [recover_error_at (bind_error_at hm), hcaught] at hturn
    exact .last hturn

/-- A step in the `try` that returns. -/
theorem Ends.step {handler : Exception → Handler Unit} {a : α} (hm : m g = .ok a g')
    (hturn : t.turn phase g = .ok phase' g')
    (hrest : t.Ends phase' g' ((recover (f a) handler).final g')) :
    t.Ends phase g ((recover (m >>= f) handler).final g) := by
  rw [final_recover_bind_at hm]
  exact .turn hturn hrest

end Steps

theorem fail_at (e : Exception) (g : Gateway) :
    t.fail e g = .ok .finished ((emitTo (·.id = t.client) (.error e)).final g) := rfl

theorem asUser_some {user : Profile} {k : Profile → Handler Unit}
    (h : WebsocketGateway.account t.client g = some user) :
    (WebsocketGateway.asUser t.client k).final g = (k user).final g := by
  rw [WebsocketGateway.asUser, final_bind_at (query_at h)]

theorem asUser_none {k : Profile → Handler Unit}
    (h : WebsocketGateway.account t.client g = none) :
    (WebsocketGateway.asUser t.client k).final g = g := by
  rw [WebsocketGateway.asUser, final_bind_at (query_at h)]
  rfl

/-- The first turn of a handler that does nothing for a socket without an account. -/
theorem ends_asUser {k : Profile → Handler Unit} {k' : Profile → Handler Phase}
    (hturn : t.turn .idle = t.asUser k')
    (hk : ∀ user, ∃ next g', k' user g = .ok next g' ∧ t.Ends next g' ((k user).final g)) :
    t.Ends .idle g ((WebsocketGateway.asUser t.client k).final g) := by
  cases haccount : WebsocketGateway.account t.client g with
  | none =>
    rw [asUser_none haccount]
    refine .last ?_
    rw [hturn]
    show (match WebsocketGateway.account t.client g with
      | some user => k' user
      | none => pure .finished) g = _
    rw [haccount]
    rfl
  | some user =>
    obtain ⟨next, g', hnext, hends⟩ := hk user
    rw [asUser_some haccount]
    refine .turn ?_ hends
    rw [hturn]
    show (match WebsocketGateway.account t.client g with
      | some user => k' user
      | none => pure .finished) g = _
    rw [haccount]
    exact hnext

/-! #### Channels and messages -/

theorem saved_ends {c : BodyField String} {user : Profile} {m : Message} :
    t.Ends (.saved c user m) g ((emitTo (channelRoom c.text ∈ ·.rooms) (.messageNew
      ⟨m.id, c, m.content, m.attachments, m.replyToId, user.summary, m.createdAt⟩)).final g) :=
  .last rfl

theorem sendMessage_ends {data : SendMessageData} (hevent : t.event = .sendMessage data) :
    t.Ends .idle g ((WebsocketGateway.handleSendMessage t.env t.client data).final g) := by
  have hturn : t.turn .idle = t.asUser fun user => pure (.save data user) := by
    rw [turn, start, hevent]
  refine ends_asUser hturn fun user => ⟨_, _, rfl, ?_⟩
  exact .bind_catch rfl fail_at fun created g' _ => saved_ends

theorem ready_ends {c : BodyField String} {user : Profile} {members : List String}
    {messages : List MessageListing} {handler : Exception → Handler Unit} :
    t.Ends (.ready c user members messages) g
      ((recover (do
        emitTo (channelRoom c.text ∈ ·.rooms) (.memberJoined c user.summary)
        emitTo (·.id = t.client) (.ready c messages.reverse members)) handler).final g) :=
  .last rfl

theorem attempt_returns (env : Env) (site : Nat) (command : Redis → Option Redis) (s : Server) :
    ∃ worked s', WebsocketService.attempt env site command s = .ok worked s' := by
  let q : Server → Option Redis := fun s => if env.redisFails site then none else command s.redis
  cases h : q s with
  | some redis =>
    exact ⟨true, _, bind_at (query_at h)⟩
  | none =>
    exact ⟨false, _, bind_at (query_at h)⟩

/-- A command on Redis whose outcome is not looked at. -/
theorem attempted_returns (env : Env) (site : Nat) (command : Redis → Option Redis)
    (g : Gateway) : ∃ g', (onServer (do
      let _ ← WebsocketService.attempt env site command) : Handler Unit) g = .ok () g' := by
  obtain ⟨worked, s', h⟩ := attempt_returns env site command g.server
  exact ⟨_, within_at (bind_at h)⟩

theorem joinChannel_ends {c : BodyField String} (hevent : t.event = .joinChannel c) :
    t.Ends .idle g ((WebsocketGateway.handleJoinChannel t.env t.client c).final g) := by
  have hturn : t.turn .idle = t.asUser fun user => pure (.channel c user) := by
    rw [turn, start, hevent]
  refine ends_asUser hturn fun user => ⟨_, _, rfl, ?_⟩
  refine .bind_catch rfl fail_at fun _ g₁ _ => ?_
  refine .step rfl (show t.turn (.room c user) g₁ = .ok (.addMember c user) _ from rfl) ?_
  obtain ⟨g₂, hadd⟩ := attempted_returns t.env 0
    (WebsocketService.sadd t.env (WebsocketService.membersKey c.text) user.id.toText)
    ((join t.client (channelRoom c.text)).final g₁)
  have hmember : t.turn (.addMember c user) _ = .ok (.members c user) g₂ := bind_at hadd
  refine .step hadd hmember ?_
  refine .step rfl (show t.turn (.members c user) g₂ = .ok (.messages c user _) _ from rfl) ?_
  exact .bind_catch rfl fail_at fun messages g₃ _ => ready_ends

theorem leaveChannel_ends {c : String} (hevent : t.event = .leaveChannel c) :
    t.Ends .idle g ((WebsocketGateway.handleLeaveChannel t.env t.client c).final g) := by
  have hturn : t.turn .idle = t.asUser fun user => (do
      leave t.client (channelRoom c)
      pure (.dropMember c user)) := by
    rw [turn, start, hevent]
  refine ends_asUser hturn fun user => ⟨_, (leave t.client (channelRoom c)).final g, rfl, ?_⟩
  have hleave : leave t.client (channelRoom c) g =
    .ok () ((leave t.client (channelRoom c)).final g) := rfl
  rw [final_bind_at hleave]
  obtain ⟨g', hdrop⟩ := attempted_returns t.env 0
    (WebsocketService.srem t.env (WebsocketService.membersKey c) user.id.toText)
    ((leave t.client (channelRoom c)).final g)
  rw [WebsocketService.removeChannelMember, final_bind_at hdrop]
  exact .last (bind_at hdrop)

/-! #### Connections -/

theorem forget_ends {user : Profile} {site : Nat} {keys : List String} :
    t.Ends (.forget user site keys) g
      ((onServer (WebsocketService.removeFrom t.env user.id.toText site keys)).final g) := by
  induction keys generalizing site g with
  | nil => exact .last rfl
  | cons key keys ih =>
    obtain ⟨worked, s', h⟩ := attempt_returns t.env site
      (WebsocketService.srem t.env key user.id.toText) g.server
    have hturn : t.turn (.forget user site (key :: keys)) g =
        .ok (if worked then .forget user (site + 1) keys else .finished) { g with server := s' } :=
      bind_at (within_at h)
    have hfinal : (onServer (WebsocketService.removeFrom t.env user.id.toText site
        (key :: keys)) : Handler Unit).final g =
      (onServer (if worked then WebsocketService.removeFrom t.env user.id.toText (site + 1) keys
        else pure ()) : Handler Unit).final { g with server := s' } := by
      rw [onServer, onServer, final_within, final_within, WebsocketService.removeFrom,
        final_bind_at h]
    rw [hfinal]
    cases worked with
    | true => exact .turn hturn ih
    | false => exact .last hturn

theorem memberKeys_ends {user : Profile} :
    t.Ends (.memberKeys user) g
      ((onServer (WebsocketService.removeChannelMemberFromAll t.env user.id.toText)).final g) :=
  .turn rfl forget_ends

theorem onServer_updateStatus {env : Env} {id : Uuid} {status : String} {g : Gateway} :
    (onServer (onDb (UsersService.updateStatus env id status)) : Handler Profile) g =
      (onServer (onDb (UsersService.profile id)) : Handler Profile)
        ((onServer (onDb (UsersService.writeStatus env id status)) : Handler Unit).final g) := rfl

theorem offline_ends {user : Profile} :
    t.Ends (.offline user) g ((WebsocketGateway.handleDisconnect t.env user).final g) := by
  let g₁ := (onServer (onDb (UsersService.writeStatus t.env user.id "offline")) :
    Handler Unit).final g
  have hwrite : t.turn (.offline user) g = .ok (.offlineAgain user) g₁ := rfl
  refine .turn hwrite ?_
  cases hm : (onServer (onDb (UsersService.profile user.id)) : Handler Profile) g₁ with
  | ok p g₂ =>
    rw [WebsocketGateway.handleDisconnect,
      final_bind_at (onServer_updateStatus.trans hm)]
    exact .turn (bind_at hm) memberKeys_ends
  | error e g₂ =>
    rw [WebsocketGateway.handleDisconnect,
      final_bind_error_at (onServer_updateStatus.trans hm)]
    exact .throws (bind_error_at hm)

/-- The end of a socket that is connected. -/
theorem disconnection_ends (hevent : t.event = .disconnection)
    (hconnected : g.sockets.any (·.id = t.client) = true) :
    t.Ends .idle g ((WebsocketGateway.handleEvent t.env t.client .disconnection).final g) := by
  let g₁ := (disconnect t.client).final g
  have hturn : t.turn .idle g = .ok (match WebsocketGateway.account t.client g with
      | some user => .offline user
      | none => if g.sockets.any (·.id = t.client) then .finished else .idle) g₁ := by
    rw [turn, start, hevent]
    show (match WebsocketGateway.account t.client g with
      | some user => pure (.offline user)
      | none => pure (if g.sockets.any (·.id = t.client) then .finished else .idle) :
        Handler Phase) g₁ = _
    cases WebsocketGateway.account t.client g <;> rfl
  have hfinal : (WebsocketGateway.handleEvent t.env t.client .disconnection).final g =
      (match WebsocketGateway.account t.client g with
      | some user => WebsocketGateway.handleDisconnect t.env user
      | none => pure ()).final g₁ := rfl
  rw [hfinal]
  cases haccount : WebsocketGateway.account t.client g with
  | some user =>
    rw [haccount] at hturn
    exact .turn hturn offline_ends
  | none =>
    rw [haccount, hconnected] at hturn
    exact .last hturn

theorem profile_at {db : Database} {id : Uuid} {u : User} (h : db.userById id = some u) :
    UsersService.profile id db = .ok u.toProfile db := by
  refine bind_at (query_at (a := some u.toProfile) ?_)
  rw [h, Option.map_some]

theorem profile_error_at {db : Database} {id : Uuid} (h : db.userById id = none) :
    UsersService.profile id db = .error (.notFound "User not found") db := by
  refine bind_at (query_at (a := none) ?_)
  rw [h, Option.map_none]

/-- The row that has just been written is found again. -/
theorem online_ends {user : Profile} {handler : Exception → Handler Unit} {u : User}
    (hrow : g.server.db.userById user.id = some u) :
    t.Ends (.online user) g ((recover (do
      let _ ← onServer (onDb (UsersService.updateStatus t.env user.id "online"))
      join t.client (userRoom user.id)
      emitTo (fun _ => true) (.presence user.id "online")) handler).final g) := by
  let g₁ := (onServer (onDb (UsersService.writeStatus t.env user.id "online")) :
    Handler Unit).final g
  have hrow' := Rows.find?_modify (c := fun u : User => u.id) (k := user.id) (f := fun u : User =>
    { u with status := "online", lastSeen := some t.env.now, updatedAt := t.env.now })
    (fun _ => rfl) hrow
  have hm : (onServer (onDb (UsersService.profile user.id)) : Handler Profile) g₁ = .ok _ g₁ :=
    within_at (within_at (profile_at hrow'))
  rw [final_recover_bind_at (onServer_updateStatus.trans hm)]
  have hwrite : t.turn (.online user) g = .ok (.onlineAgain user) g₁ := rfl
  exact .turn hwrite (.turn (recover_at (bind_at hm)) (.turn rfl (.last rfl)))

theorem account_ends {sub : Uuid} :
    t.Ends (.account sub) g ((recover (do
      let user ← onServer (onDb (UsersService.profile sub))
      updateSocket t.client fun s => { s with user := some user }
      let _ ← onServer (onDb (UsersService.updateStatus t.env user.id "online"))
      join t.client (userRoom user.id)
      emitTo (fun _ => true) (.presence user.id "online"))
      fun _ => disconnect t.client).final g) := by
  cases hrow : g.server.db.userById sub with
  | some u =>
    have hm : (onServer (onDb (UsersService.profile sub)) : Handler Profile) g =
      .ok u.toProfile g := within_at (within_at (profile_at hrow))
    have hid : u.toProfile.id = sub := by simpa using List.find?_some hrow
    rw [final_recover_bind_at hm]
    refine .step (m := updateSocket t.client fun s => { s with user := some u.toProfile }) rfl
      (recover_bind_at hm) ?_
    exact online_ends (by rw [hid]; exact hrow)
  | none =>
    have hm : (onServer (onDb (UsersService.profile sub)) : Handler Profile) g =
      .error (.notFound "User not found") g :=
        within_error_at (within_error_at (profile_error_at hrow))
    rw [final_recover_error_at (bind_error_at hm)]
    exact .last (recover_error_at (bind_error_at hm))

theorem connection_ends {handshake : Handshake} (hevent : t.event = .connection handshake) :
    t.Ends .idle g ((WebsocketGateway.handleConnection t.env t.client handshake).final g) := by
  let g₁ : Gateway := { g with sockets := g.sockets ++ [⟨t.client, none, []⟩] }
  have hturn : t.turn .idle g = (match handshake.token.filter (AuthService.verify t.env g.server)
    with
      | some token => pure (.account token.sub)
      | none => (do
        disconnect t.client
        pure .finished) : Handler Phase) g₁ := by
    rw [turn, start, hevent]
    rfl
  rw [WebsocketGateway.handleConnection, final_write_bind]
  show t.Ends _ _ (Prog.final _ g₁)
  let valid (s : Server) := handshake.token.filter (AuthService.verify t.env s)
  cases hvalid : handshake.token.filter (AuthService.verify t.env g.server) with
  | some token =>
    rw [hvalid] at hturn
    have hauth : AuthService.authenticate t.env handshake.token g.server =
        onDb (UsersService.profile token.sub) g.server :=
      bind_at (query_at (q := valid) hvalid)
    have hserver : (onServer (AuthService.authenticate t.env handshake.token) :
      Handler Profile) g₁ =
        (onServer (onDb (UsersService.profile token.sub)) : Handler Profile) g₁ := by
      simp only [onServer, within, g₁, hauth]
    rw [final_recover_congr (bind_left_at hserver)]
    exact .turn hturn account_ends
  | none =>
    rw [hvalid] at hturn
    have hauth : AuthService.authenticate t.env handshake.token g.server =
        .error (.unauthorized "Unauthorized") g.server :=
      bind_at (query_at (q := valid) hvalid)
    have hserver : (onServer (AuthService.authenticate t.env handshake.token) :
      Handler Profile) g₁ =
        .error (.unauthorized "Unauthorized") g₁ := within_error_at hauth
    rw [final_recover_error_at (bind_error_at hserver)]
    exact .last hturn

/-- A handler that is not interrupted does what it does as a whole. Only a connected socket can
end. -/
theorem handler_ends
    (hconnected : t.event = .disconnection → g.sockets.any (·.id = t.client) = true) :
    t.Ends .idle g ((WebsocketGateway.handleEvent t.env t.client t.event).final g) := by
  cases hevent : t.event with
  | connection handshake => exact connection_ends hevent
  | disconnection => exact disconnection_ends hevent (hconnected hevent)
  | joinChannel c => exact joinChannel_ends hevent
  | leaveChannel c => exact leaveChannel_ends hevent
  | sendMessage data => exact sendMessage_ends hevent
  | _ =>
    have hturn : t.turn .idle g = (do
        WebsocketGateway.handleEvent t.env t.client t.event
        pure .finished : Handler Phase) g := by
      rw [turn, start, hevent]
    rw [← hevent]
    cases hm : WebsocketGateway.handleEvent t.env t.client t.event g with
    | ok _ g' =>
      simp only [Prog.final, hm]
      exact .last (hturn.trans (bind_at hm))
    | error e g' =>
      simp only [Prog.final, hm]
      exact .throws (hturn.trans (bind_error_at hm))

end Task

end VoxLink
