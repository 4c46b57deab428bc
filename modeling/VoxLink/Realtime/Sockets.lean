import VoxLink.Content.Handlers
import VoxLink.Realtime.Presence

/-! What the turns of handlers do to sockets, to Redis and to the accounts, said once by `Turns`. -/

namespace VoxLink

open ProofKit Prog

/-- The sockets, Redis and the accounts after a turn. -/
structure After (sockets : List Socket) (redis : Redis) (users : List User) (g' : Gateway) :
    Prop where
  sockets : g'.sockets = sockets
  redis : g'.server.redis = redis
  users : g'.server.db.users = users

def Undisturbed (g g' : Gateway) : Prop := After g.sockets g.server.redis g.server.db.users g'

instance : IsPreorder Gateway Undisturbed where
  refl _ := ⟨rfl, rfl, rfl⟩
  trans _ _ _ h h' :=
    ⟨h'.sockets.trans h.sockets, h'.redis.trans h.redis, h'.users.trans h.users⟩

theorem undisturbed_emit {p : Socket → Bool} {event : GatewayEvent} :
    Keeps Undisturbed (emitTo p event) :=
  .write fun _ => ⟨rfl, rfl, rfl⟩

theorem undisturbed_service {α : Type} {m : Service α}
    (h : Keeps (fun db db' => db'.users = db.users) m) : Keeps Undisturbed (onServer (onDb m)) := by
  have hserver : Keeps (fun s s' => s'.redis = s.redis ∧ s'.db.users = s.db.users) (onDb m) :=
    .within (fun _ _ h => ⟨rfl, h⟩) h
  exact .within (fun _ _ h => ⟨rfl, h.1, h.2⟩) hserver

theorem undisturbed_asUser {client : String} {k : Profile → Handler Unit}
    (hk : ∀ user, Keeps Undisturbed (k user)) :
    Keeps Undisturbed (WebsocketGateway.asUser client k) := by
  apply Keeps.bind (.query _)
  intro user
  cases user with
  | some user => exact hk user
  | none => exact .pure _

namespace Phase

/-- The handler is to attach an account to its socket. -/
def attaching : Phase → Bool
  | .account _ => true
  | _ => false

/-- The account of the socket that the handler is to put into a room. -/
def entrant : Phase → Option Profile
  | .channel _ user | .room _ user => some user
  | _ => none

/-- The account whose row the handler still reads. -/
def owner : Phase → Option Profile
  | .online user | .onlineAgain user | .offline user | .offlineAgain user => some user
  | _ => none

/-- The handler is to add the user to the set under the key. -/
def adds (id key : String) : Phase → Bool
  | .addMember c user => user.id.toText = id ∧ WebsocketService.membersKey c.text = key
  | _ => false

/-- The handler is to remove the user from the set under the key. -/
def drops (id key : String) : Phase → Bool
  | .dropMember c user => user.id.toText = id ∧ WebsocketService.membersKey c = key
  | .offline user | .offlineAgain user | .memberKeys user => user.id.toText = id
  | .forget user _ keys => user.id.toText = id ∧ key ∈ keys
  | _ => false

/-- The keys from which the handler is to remove its user. -/
def keysLeft : Phase → List String
  | .forget _ _ keys => keys
  | _ => []

end Phase

/-- A handler goes on, with no more to do than before. -/
structure Calm (phase phase' : Phase) : Prop where
  attaching : phase'.attaching = false
  entrant : ∀ user, phase'.entrant = some user → phase.entrant = some user
  owner : ∀ user, phase'.owner = some user → phase.owner = some user
  adds : ∀ id key, phase.adds id key = false
  drops : ∀ id key, phase.drops id key = true → phase'.drops id key = true
  keysLeft : phase'.keysLeft = []
  writes : ∀ u, phase.writes u = false

theorem calm_of_done {phase phase' : Phase} (hattaching : phase'.attaching = false)
    (hentrant : phase'.entrant = none) (howner : phase'.owner = none)
    (hkeys : phase'.keysLeft = []) (hadds : ∀ id key, phase.adds id key = false)
    (hdrops : ∀ id key, phase.drops id key = false) (hwrites : ∀ u, phase.writes u = false) :
    Calm phase phase' := by
  refine ⟨hattaching, ?_, ?_, hadds, ?_, hkeys, hwrites⟩
  · intro user huser
    rw [hentrant] at huser
    exact nomatch huser
  · intro user huser
    rw [howner] at huser
    exact nomatch huser
  · intro id key hdrop
    rw [hdrops] at hdrop
    exact nomatch hdrop

/-- A change of a socket that leaves its account and the channels it is in. -/
structure Aside (f : Socket → Socket) : Prop where
  id : ∀ s, (f s).id = s.id
  user : ∀ s, (f s).user = s.user
  rooms : ∀ s c, channelRoom c ∈ (f s).rooms ↔ channelRoom c ∈ s.rooms

def Socket.enter (room : String) (s : Socket) : Socket :=
  { s with rooms := room :: s.rooms.filter (· ≠ room) }

def Socket.exit (room : String) (s : Socket) : Socket :=
  { s with rooms := s.rooms.filter (· ≠ room) }

def Socket.attach (user : Profile) (s : Socket) : Socket := { s with user := some user }

def User.setStatus (env : Env) (status : String) (u : User) : User :=
  { u with status, lastSeen := some env.now, updatedAt := env.now }

theorem aside_enter {room : String} (h : ∀ c, room ≠ channelRoom c) :
    Aside (Socket.enter room) := by
  refine ⟨fun _ => rfl, fun _ => rfl, fun s c => ?_⟩
  simp [Socket.enter, List.mem_filter, (h c).symm]

theorem aside_exit {room : String} (h : ∀ c, room ≠ channelRoom c) : Aside (Socket.exit room) := by
  refine ⟨fun _ => rfl, fun _ => rfl, fun s c => ?_⟩
  simp [Socket.exit, List.mem_filter, (h c).symm]

theorem userRoom_ne (u : Uuid) (c : String) : userRoom u ≠ channelRoom c := by
  intro h
  have hlist := congrArg String.toList h
  simp [userRoom, channelRoom] at hlist

theorem guildRoom_ne (g c : String) : guildRoom g ≠ channelRoom c := by
  intro h
  have hlist := congrArg String.toList h
  simp [guildRoom, channelRoom] at hlist

/-- `findOne` for a channel that the user may see. -/
theorem channelFound_returns {env : Env} {c : BodyField String} {user : Profile} {g : Gateway}
    (hopen : (ChannelsService.findOneOf env c user).passes g.server.db = true) :
    wp (onServer (onDb (ChannelsService.findOneOf env c user))) (fun _ g' => g' = g)
      (fun _ _ => False) g := by
  apply wp_within.mpr
  apply wp_onDb.mpr
  apply (ChannelsService.findOneOf_wp.of_passes hopen).mono
  · rintro _ _ rfl
    rfl
  · exact fun _ _ h => h

namespace WebsocketService

/-- What Redis makes of a command, if the command reaches it. -/
def attempted (env : Env) (site : Nat) (command : Redis → Option Redis) (redis : Redis) :
    Option Redis := if env.redisFails site then none else command redis

theorem attempt_runs {env : Env} {site : Nat} {command : Redis → Option Redis} {s : Server} :
    wp (attempt env site command)
      (fun worked s' => worked = (attempted env site command s.redis).isSome ∧
        s' = { s with redis := (attempted env site command s.redis).getD s.redis })
      (fun _ _ => False) s := by
  have hquery : (fun s : Server => if env.redisFails site then none else command s.redis) =
      fun s => attempted env site command s.redis := rfl
  simp only [WebsocketService.attempt, wp_bind, hquery, wp_query]
  cases attempted env site command s.redis with
  | some redis => exact ⟨rfl, rfl⟩
  | none => exact ⟨rfl, rfl⟩

theorem attempted_eq {env : Env} {site : Nat} {command : Redis → Option Redis} {redis : Redis}
    (h : env.redisFails site = false) : attempted env site command redis = command redis := by
  rw [attempted, h]
  rfl

end WebsocketService

namespace Task

/-- What a turn makes of a phase and a state. -/
inductive Turns (t : Task) (g g' : Gateway) : Phase → Phase → Prop
  | calm {phase phase' : Phase} : Calm phase phase' → Undisturbed g g' → Turns t g g' phase phase'
  -- connections
  | opens {sub : Uuid} : t.connects = true →
      After (g.sockets ++ [⟨t.client, none, []⟩]) g.server.redis g.server.db.users g' →
      Turns t g g' .idle (.account sub)
  | declines : t.connects = true →
      After (Rows.remove (·.id = t.client) g.sockets) g.server.redis g.server.db.users g' →
      Turns t g g' .idle .finished
  | attaches {sub : Uuid} {user : Profile} : user.id = sub → sub ∈ g.server.db.users.map (·.id) →
      After (Rows.modify (·.id = t.client) (Socket.attach user) g.sockets) g.server.redis
        g.server.db.users g' → Turns t g g' (.account sub) (.online user)
  | refuses {sub : Uuid} : sub ∉ g.server.db.users.map (·.id) →
      After (Rows.remove (·.id = t.client) g.sockets) g.server.redis g.server.db.users g' →
      Turns t g g' (.account sub) .finished
  | comes {user : Profile} : After g.sockets g.server.redis
      (Rows.modify (·.id = user.id) (User.setStatus t.env "online") g.server.db.users) g' →
      Turns t g g' (.online user) (.onlineAgain user)
  | vanishes {user : Profile} : user.id ∉ g.server.db.users.map (·.id) →
      After (Rows.remove (·.id = t.client) g.sockets) g.server.redis g.server.db.users g' →
      Turns t g g' (.onlineAgain user) (.offline user)
  -- ends of connections
  | ends {user : Profile} : WebsocketGateway.account t.client g = some user →
      After (Rows.remove (·.id = t.client) g.sockets) g.server.redis g.server.db.users g' →
      Turns t g g' .idle (.offline user)
  | endsUnknown {phase' : Phase} : WebsocketGateway.account t.client g = none →
      Calm .idle phase' →
      After (Rows.remove (·.id = t.client) g.sockets) g.server.redis g.server.db.users g' →
      Turns t g g' .idle phase'
  | goes {user : Profile} : After g.sockets g.server.redis
      (Rows.modify (·.id = user.id) (User.setStatus t.env "offline") g.server.db.users) g' →
      Turns t g g' (.offline user) (.offlineAgain user)
  | stops {user : Profile} : user.id ∉ g.server.db.users.map (·.id) → Undisturbed g g' →
      Turns t g g' (.offlineAgain user) .finished
  | lists {user : Profile} : Undisturbed g g' → Turns t g g' (.memberKeys user)
      (.forget user 1 (if t.env.redisFails 0 then []
        else (g.server.redis.keys t.env.now).filter WebsocketService.isMembersKey))
  -- rooms and sets
  | aside {phase phase' : Phase} {f : Socket → Socket} : Calm phase phase' → Aside f →
      After (Rows.modify (·.id = t.client) f g.sockets) g.server.redis g.server.db.users g' →
      Turns t g g' phase phase'
  | asks {c : BodyField String} {user : Profile} : WebsocketGateway.account t.client g = some user →
      Undisturbed g g' → Turns t g g' .idle (.channel c user)
  | enters {c : BodyField String} {user : Profile} :
      After (Rows.modify (·.id = t.client) (Socket.enter (channelRoom c.text)) g.sockets)
        g.server.redis g.server.db.users g' → Turns t g g' (.room c user) (.addMember c user)
  | leaves {c : String} {user : Profile} : WebsocketGateway.account t.client g = some user →
      After (Rows.modify (·.id = t.client) (Socket.exit (channelRoom c)) g.sockets)
        g.server.redis g.server.db.users g' → Turns t g g' .idle (.dropMember c user)
  | added {c : BodyField String} {user : Profile} {worked : Option Redis} :
      WebsocketService.attempted t.env 0
        (WebsocketService.sadd t.env (WebsocketService.membersKey c.text) user.id.toText)
        g.server.redis = worked →
      After g.sockets (worked.getD g.server.redis) g.server.db.users g' →
      Turns t g g' (.addMember c user) (.members c user)
  | dropped {c : String} {user : Profile} {worked : Option Redis} :
      WebsocketService.attempted t.env 0
        (WebsocketService.srem t.env (WebsocketService.membersKey c) user.id.toText)
        g.server.redis = worked →
      After g.sockets (worked.getD g.server.redis) g.server.db.users g' →
      Turns t g g' (.dropMember c user) .finished
  | forgets {user : Profile} {site : Nat} {key : String} {keys : List String}
      {worked : Option Redis} :
      WebsocketService.attempted t.env site (WebsocketService.srem t.env key user.id.toText)
        g.server.redis = worked →
      After g.sockets (worked.getD g.server.redis) g.server.db.users g' →
      Turns t g g' (.forget user site (key :: keys))
        (if worked.isSome then .forget user (site + 1) keys else .finished)

variable {t : Task} {phase : Phase} {g : Gateway}

theorem move_of_wp {C : Phase → Gateway → Prop}
    (h : wp (t.turn phase) C (fun _ g' => C .finished g') g) :
    C (move (t, phase) g).1.2 (move (t, phase) g).2 := by
  unfold wp at h
  unfold move
  cases hturn : t.turn phase g with
  | ok phase' g' =>
    rw [hturn] at h
    exact h
  | error e g' =>
    rw [hturn] at h
    exact h

/-- A turn that leaves sockets, Redis and accounts alone, after which there is less to do. -/
theorem calm_of_yields (h : Yields Undisturbed (Calm phase) (t.turn phase))
    (hfinished : Calm phase .finished) :
    wp (t.turn phase) (fun phase' g' => Turns t g g' phase phase')
      (fun _ g' => Turns t g g' phase .finished) g :=
  (h g).mono (fun _ _ hnext => .calm hnext.2 hnext.1) fun _ _ hnext => .calm hfinished hnext

theorem fail_calm (hfinished : Calm phase .finished) (e : Exception) :
    Yields Undisturbed (Calm phase) (t.fail e) :=
  .bind undisturbed_emit fun _ => .pure hfinished

theorem channel_turns {c : BodyField String} {user : Profile} :
    wp (t.turn (.channel c user)) (fun phase' g' => Turns t g g' (.channel c user) phase')
      (fun _ g' => Turns t g g' (.channel c user) .finished) g := by
  have hfinished : Calm (.channel c user) .finished :=
    calm_of_done rfl rfl rfl rfl (fun _ _ => rfl) (fun _ _ => rfl) fun _ => rfl
  apply calm_of_yields _ hfinished
  apply Yields.recover _ (fail_calm hfinished)
  apply Yields.bind (undisturbed_service (keeps_channels_findOneOf c))
  exact fun _ => .pure ⟨rfl, fun _ h => h, nofun, fun _ _ => rfl, nofun, rfl, fun _ => rfl⟩

theorem messages_turns {c : BodyField String} {user : Profile} {members : List String} :
    wp (t.turn (.messages c user members))
      (fun phase' g' => Turns t g g' (.messages c user members) phase')
      (fun _ g' => Turns t g g' (.messages c user members) .finished) g := by
  have hfinished : Calm (.messages c user members) .finished :=
    calm_of_done rfl rfl rfl rfl (fun _ _ => rfl) (fun _ _ => rfl) fun _ => rfl
  apply calm_of_yields _ hfinished
  apply Yields.recover _ (fail_calm hfinished)
  apply Yields.bind (undisturbed_service (keeps_messages_findAllOf c 50 0))
  exact fun _ => .pure (calm_of_done rfl rfl rfl rfl (fun _ _ => rfl) (fun _ _ => rfl) fun _ => rfl)

theorem save_turns {data : SendMessageData} {user : Profile} :
    wp (t.turn (.save data user)) (fun phase' g' => Turns t g g' (.save data user) phase')
      (fun _ g' => Turns t g g' (.save data user) .finished) g := by
  have hfinished : Calm (.save data user) .finished :=
    calm_of_done rfl rfl rfl rfl (fun _ _ => rfl) (fun _ _ => rfl) fun _ => rfl
  apply calm_of_yields _ hfinished
  apply Yields.recover _ (fail_calm hfinished)
  apply Yields.bind (undisturbed_service (keeps_messages_create (fun _ _ => rfl) _ _))
  exact fun _ => .pure (calm_of_done rfl rfl rfl rfl (fun _ _ => rfl) (fun _ _ => rfl) fun _ => rfl)

theorem profile_reads {id : Uuid} :
    wp (onServer (onDb (UsersService.profile id)) : Handler Profile)
      (fun user g' => g' = g ∧ user.id = id ∧ id ∈ g.server.db.users.map (·.id))
      (fun _ g' => g' = g ∧ id ∉ g.server.db.users.map (·.id)) g := by
  apply wp_within.mpr
  apply wp_within.mpr
  cases hrow : g.server.db.userById id with
  | some u =>
    have hid : u.id = id := by simpa using List.find?_some hrow
    have hmem : u ∈ g.server.db.users := List.mem_of_find?_eq_some hrow
    unfold wp
    rw [profile_at hrow]
    exact ⟨rfl, hid, List.mem_map.mpr ⟨u, hmem, hid⟩⟩
  | none =>
    unfold wp
    rw [profile_error_at hrow]
    refine ⟨rfl, fun hmem => ?_⟩
    obtain ⟨u, hu, hid⟩ := List.mem_map.mp hmem
    exact absurd hid (by simpa using List.find?_eq_none.mp hrow u hu)

theorem account_turns {sub : Uuid} :
    wp (t.turn (.account sub)) (fun phase' g' => Turns t g g' (.account sub) phase')
      (fun _ g' => Turns t g g' (.account sub) .finished) g := by
  simp only [turn, wp_recover, wp_bind]
  apply profile_reads.mono
  · rintro user _ ⟨rfl, hid, hmem⟩
    exact .attaches hid hmem ⟨rfl, rfl, rfl⟩
  · rintro _ _ ⟨rfl, hmem⟩
    exact .refuses hmem ⟨rfl, rfl, rfl⟩

theorem onlineAgain_turns {user : Profile} :
    wp (t.turn (.onlineAgain user)) (fun phase' g' => Turns t g g' (.onlineAgain user) phase')
      (fun _ g' => Turns t g g' (.onlineAgain user) .finished) g := by
  simp only [turn, wp_recover, wp_bind]
  apply profile_reads.mono
  · rintro _ _ ⟨rfl, -, -⟩
    exact .calm (calm_of_done rfl rfl rfl rfl (fun _ _ => rfl) (fun _ _ => rfl) fun _ => rfl)
      ⟨rfl, rfl, rfl⟩
  · rintro _ _ ⟨rfl, hmem⟩
    exact .vanishes hmem ⟨rfl, rfl, rfl⟩

theorem offlineAgain_turns {user : Profile} :
    wp (t.turn (.offlineAgain user)) (fun phase' g' => Turns t g g' (.offlineAgain user) phase')
      (fun _ g' => Turns t g g' (.offlineAgain user) .finished) g := by
  simp only [turn, wp_bind]
  apply profile_reads.mono
  · rintro _ _ ⟨rfl, -, -⟩
    exact .calm ⟨rfl, (fun _ h => by cases h), (fun _ h => by cases h), fun _ _ => rfl,
      fun _ _ h => h, rfl, fun _ => rfl⟩ ⟨rfl, rfl, rfl⟩
  · rintro _ _ ⟨rfl, hmem⟩
    exact .stops hmem ⟨rfl, rfl, rfl⟩

theorem asUser_turns {k : Profile → Handler Phase}
    (hk : ∀ user, WebsocketGateway.account t.client g = some user →
      wp (k user) (fun phase' g' => Turns t g g' .idle phase')
        (fun _ g' => Turns t g g' .idle .finished) g) :
    wp (t.asUser k) (fun phase' g' => Turns t g g' .idle phase')
      (fun _ g' => Turns t g g' .idle .finished) g := by
  simp only [asUser, wp_bind, wp_query]
  cases haccount : WebsocketGateway.account t.client g with
  | some user => exact hk user haccount
  | none =>
    exact .calm (calm_of_done rfl rfl rfl rfl (fun _ _ => rfl) (fun _ _ => rfl) fun _ => rfl)
      ⟨rfl, rfl, rfl⟩

theorem remove_append_self {client : String} {s : Socket} (h : s.id = client) (ss : List Socket) :
    Rows.remove (fun s : Socket => decide (s.id = client)) (ss ++ [s]) =
      Rows.remove (fun s : Socket => decide (s.id = client)) ss := by
  simp [Rows.remove, h]

theorem connection_turns {handshake : Handshake} (hevent : t.event = .connection handshake) :
    wp (t.turn .idle) (fun phase' g' => Turns t g g' .idle phase')
      (fun _ g' => Turns t g g' .idle .finished) g := by
  have hconnects : t.connects = true := by rw [connects, hevent]
  simp only [turn, start, hevent, wp_bind, wp_write, wp_query]
  split
  · exact .opens hconnects ⟨rfl, rfl, rfl⟩
  · exact .declines hconnects
      ⟨remove_append_self (s := ⟨t.client, none, []⟩) rfl g.sockets, rfl, rfl⟩

theorem disconnection_turns (hevent : t.event = .disconnection) :
    wp (t.turn .idle) (fun phase' g' => Turns t g g' .idle phase')
      (fun _ g' => Turns t g g' .idle .finished) g := by
  simp only [turn, start, hevent, wp_bind, wp_query]
  rw [disconnect, wp_write]
  cases haccount : WebsocketGateway.account t.client g with
  | some user => exact .ends haccount ⟨rfl, rfl, rfl⟩
  | none =>
    have hcalm : ∀ b : Bool, Calm .idle (if b then .finished else .idle) := by
      intro b
      cases b <;> exact calm_of_done rfl rfl rfl rfl (fun _ _ => rfl) (fun _ _ => rfl) fun _ => rfl
    exact .endsUnknown haccount (hcalm _) ⟨rfl, rfl, rfl⟩

/-- An event that is only passed on. -/
theorem passed_turns {m : Handler Unit} (hturn : t.turn .idle = (do m; pure .finished))
    (hm : Keeps Undisturbed m) :
    wp (t.turn .idle) (fun phase' g' => Turns t g g' .idle phase')
      (fun _ g' => Turns t g g' .idle .finished) g := by
  have hdone : Calm .idle .finished := calm_of_done rfl rfl rfl rfl (fun _ _ => rfl)
    (fun _ _ => rfl) fun _ => rfl
  apply calm_of_yields _ hdone
  rw [hturn]
  exact .bind hm fun _ => .pure hdone

/-- An event that moves its socket between rooms that are not of channels. -/
theorem guild_turns {f : Socket → Socket} (hf : Aside f)
    (hturn : t.turn .idle = (do
      WebsocketGateway.asUser t.client fun _ => updateSocket t.client f
      pure .finished)) :
    wp (t.turn .idle) (fun phase' g' => Turns t g g' .idle phase')
      (fun _ g' => Turns t g g' .idle .finished) g := by
  have hdone : Calm .idle .finished := calm_of_done rfl rfl rfl rfl (fun _ _ => rfl)
    (fun _ _ => rfl) fun _ => rfl
  rw [hturn]
  simp only [WebsocketGateway.asUser, wp_bind, wp_query]
  cases WebsocketGateway.account t.client g with
  | some user => exact .aside hdone hf ⟨rfl, rfl, rfl⟩
  | none => exact .calm hdone ⟨rfl, rfl, rfl⟩

theorem start_turns :
    wp (t.turn .idle) (fun phase' g' => Turns t g g' .idle phase')
      (fun _ g' => Turns t g g' .idle .finished) g := by
  cases hevent : t.event with
  | connection handshake => exact connection_turns hevent
  | disconnection => exact disconnection_turns hevent
  | joinChannel c =>
    simp only [turn, start, hevent]
    exact asUser_turns fun user haccount => .asks haccount ⟨rfl, rfl, rfl⟩
  | leaveChannel c =>
    simp only [turn, start, hevent]
    exact asUser_turns fun user haccount => .leaves haccount ⟨rfl, rfl, rfl⟩
  | sendMessage data =>
    simp only [turn, start, hevent]
    exact asUser_turns fun user _ =>
      .calm (calm_of_done rfl rfl rfl rfl (fun _ _ => rfl) (fun _ _ => rfl) fun _ => rfl)
        ⟨rfl, rfl, rfl⟩
  | typingStart c =>
    have hturn : t.turn .idle = (do
        WebsocketGateway.handleTyping t.client c true
        pure .finished) := by rw [turn, start, hevent]; rfl
    apply passed_turns hturn
    exact undisturbed_asUser fun _ => undisturbed_emit
  | typingStop c =>
    have hturn : t.turn .idle = (do
        WebsocketGateway.handleTyping t.client c false
        pure .finished) := by rw [turn, start, hevent]; rfl
    apply passed_turns hturn
    exact undisturbed_asUser fun _ => undisturbed_emit
  | guildJoin c =>
    apply guild_turns (aside_enter (guildRoom_ne c))
    simp only [turn, start, hevent]
    rfl
  | guildLeave c =>
    apply guild_turns (aside_exit (guildRoom_ne c))
    simp only [turn, start, hevent]
    rfl
  | voiceJoined c =>
    have hturn : t.turn .idle = (do
        WebsocketGateway.handleVoiceJoined t.client c
        pure .finished) := by rw [turn, start, hevent]; rfl
    apply passed_turns hturn
    exact undisturbed_asUser fun _ => undisturbed_emit
  | voiceLeft c =>
    have hturn : t.turn .idle = (do
        WebsocketGateway.handleVoiceLeft t.client c
        pure .finished) := by rw [turn, start, hevent]; rfl
    apply passed_turns hturn
    exact undisturbed_asUser fun _ => undisturbed_emit

theorem addMember_turns {c : BodyField String} {user : Profile} :
    wp (t.turn (.addMember c user)) (fun phase' g' => Turns t g g' (.addMember c user) phase')
      (fun _ g' => Turns t g g' (.addMember c user) .finished) g := by
  simp only [turn, wp_bind]
  apply wp_within.mpr
  simp only [WebsocketService.addChannelMember, wp_bind]
  apply WebsocketService.attempt_runs.mono
  · rintro _ _ ⟨-, rfl⟩
    exact .added rfl ⟨rfl, rfl, rfl⟩
  · exact fun _ _ h => h.elim

theorem dropMember_turns {c : String} {user : Profile} :
    wp (t.turn (.dropMember c user)) (fun phase' g' => Turns t g g' (.dropMember c user) phase')
      (fun _ g' => Turns t g g' (.dropMember c user) .finished) g := by
  simp only [turn, wp_bind]
  apply wp_within.mpr
  simp only [WebsocketService.removeChannelMember, wp_bind]
  apply WebsocketService.attempt_runs.mono
  · rintro _ _ ⟨-, rfl⟩
    exact .dropped rfl ⟨rfl, rfl, rfl⟩
  · exact fun _ _ h => h.elim

theorem forget_turns {user : Profile} {site : Nat} {keys : List String} :
    wp (t.turn (.forget user site keys))
      (fun phase' g' => Turns t g g' (.forget user site keys) phase')
      (fun _ g' => Turns t g g' (.forget user site keys) .finished) g := by
  cases keys with
  | nil =>
    have hdone : Calm (.forget user site []) .finished :=
      ⟨rfl, nofun, nofun, fun _ _ => rfl, fun _ _ h => by simp [Phase.drops] at h, rfl,
        fun _ => rfl⟩
    exact .calm hdone ⟨rfl, rfl, rfl⟩
  | cons key keys =>
    simp only [turn, wp_bind]
    apply wp_within.mpr
    apply WebsocketService.attempt_runs.mono
    · rintro worked _ ⟨rfl, rfl⟩
      exact .forgets rfl ⟨rfl, rfl, rfl⟩
    · exact fun _ _ h => h.elim

theorem move_turns : Turns t g (move (t, phase) g).2 phase (move (t, phase) g).1.2 := by
  apply move_of_wp (C := fun phase' g' => Turns t g g' phase phase')
  cases phase with
  | idle => exact start_turns
  | account sub => exact account_turns
  | online user => exact .comes ⟨rfl, rfl, rfl⟩
  | onlineAgain user => exact onlineAgain_turns
  | ownRoom user =>
    have hcalm : Calm (.ownRoom user) (.welcome user) :=
      calm_of_done rfl rfl rfl rfl (fun _ _ => rfl) (fun _ _ => rfl) fun _ => rfl
    exact .aside hcalm (aside_enter (userRoom_ne _))
      ⟨rfl, rfl, rfl⟩
  | welcome user =>
    exact .calm (calm_of_done rfl rfl rfl rfl (fun _ _ => rfl) (fun _ _ => rfl) fun _ => rfl)
      ⟨rfl, rfl, rfl⟩
  | offline user => exact .goes ⟨rfl, rfl, rfl⟩
  | offlineAgain user => exact offlineAgain_turns
  | memberKeys user =>
    simp only [turn, wp_bind]
    apply wp_within.mpr
    exact .lists ⟨rfl, rfl, rfl⟩
  | forget user site keys => exact forget_turns
  | channel c user => exact channel_turns
  | room c user => exact .enters ⟨rfl, rfl, rfl⟩
  | addMember c user => exact addMember_turns
  | members c user =>
    exact .calm (calm_of_done rfl rfl rfl rfl (fun _ _ => rfl) (fun _ _ => rfl) fun _ => rfl)
      ⟨rfl, rfl, rfl⟩
  | messages c user members => exact messages_turns
  | ready c user members messages =>
    exact .calm (calm_of_done rfl rfl rfl rfl (fun _ _ => rfl) (fun _ _ => rfl) fun _ => rfl)
      ⟨rfl, rfl, rfl⟩
  | dropMember c user => exact dropMember_turns
  | save data user => exact save_turns
  | saved c user m =>
    exact .calm (calm_of_done rfl rfl rfl rfl (fun _ _ => rfl) (fun _ _ => rfl) fun _ => rfl)
      ⟨rfl, rfl, rfl⟩
  | finished =>
    exact .calm (calm_of_done rfl rfl rfl rfl (fun _ _ => rfl) (fun _ _ => rfl) fun _ => rfl)
      ⟨rfl, rfl, rfl⟩

/-! ### Sockets and accounts along a run -/

/-- The handler is to attach an account to the socket `client`. -/
def attachesTo (client : String) (l : Task × Phase) : Bool :=
  l.1.client = client && l.2.attaching

/-- The account ids. -/
def ids (g : Gateway) : List Uuid := g.server.db.users.map (·.id)

/-- What a handler has loaded fits the sockets and accounts. -/
structure Fits (g : Gateway) (l : Task × Phase) : Prop where
  attaching : l.2.attaching = true → ∀ s ∈ g.sockets, s.id = l.1.client → s.user = none
  entrant : ∀ user, l.2.entrant = some user →
    ∀ s ∈ g.sockets, s.id = l.1.client → s.user = some user
  owner : ∀ user, l.2.owner = some user → user.id ∈ ids g
  keysLeft : ∀ key ∈ l.2.keysLeft, WebsocketService.isMembersKey key = true

/-- Every socket has its own id, and a row for its account, without which it is in no channel. -/
structure Orderly (p : Pool (Task × Phase) Gateway) : Prop where
  nodup : (p.state.sockets.map (·.id)).Nodup
  rows : ∀ s ∈ p.state.sockets, ∀ user, s.user = some user → user.id ∈ ids p.state
  guests : ∀ s ∈ p.state.sockets, s.user = none → ∀ c, channelRoom c ∉ s.rooms
  fits : ∀ l ∈ p.jobs, Fits p.state l
  one : ∀ client, p.jobs.countP (attachesTo client) ≤ 1

/-- A connection has an id that no socket has and no handler still uses. -/
def freshClient (p : Pool (Task × Phase) Gateway) (k : Nat) : Bool :=
  match p.jobs[k]? with
  | some (t, .idle) => !t.connects || p.state.sockets.all (·.id ≠ t.client) &&
      p.jobs.all fun l => l.1.client ≠ t.client || l.2.resting
  | _ => true

/-- Redis is available to every handler. -/
def Available (p : Pool (Task × Phase) Gateway) : Prop :=
  ∀ l ∈ p.jobs, ∀ site, l.1.env.redisFails site = false

variable {p : Pool (Task × Phase) Gateway} {k : Nat} {phase' : Phase} {g' : Gateway}

theorem move_task : (move (t, phase) g).1 = (t, (move (t, phase) g).1.2) := by
  unfold move
  split <;> rfl

theorem turn_turns {I : Pool (Task × Phase) Gateway → Prop} (hp : I p)
    (h : ∀ t phase phase' g', p.jobs[k]? = some (t, phase) → Turns t p.state g' phase phase' →
      I ⟨p.jobs.set k (t, phase'), g'⟩) : I (p.turn move k).2 := by
  apply turn_keeps _ hp
  rintro ⟨t, phase⟩ hk
  rw [turn_some hk, move_task]
  exact h t phase _ _ hk move_turns

theorem set_available (h : Available p) (hk : p.jobs[k]? = some (t, phase)) :
    Available ⟨p.jobs.set k (t, phase'), g'⟩ := by
  intro l hl
  rcases List.mem_or_eq_of_mem_set hl with hold | rfl
  · exact h l hold
  · exact h (t, phase) (List.mem_of_getElem? hk)

/-- The sockets of a client have the accounts they had. -/
def SameUser (g g' : Gateway) (client : String) : Prop :=
  ∀ s' ∈ g'.sockets, s'.id = client → ∃ s ∈ g.sockets, s.id = client ∧ s.user = s'.user

theorem Fits.carry {l : Task × Phase} (h : Fits g l) (hids : ids g' = ids g)
    (hsame : l.2.attaching = true ∨ l.2.entrant.isSome = true → SameUser g g' l.1.client) :
    Fits g' l := by
  constructor
  · intro hattaching s' hs' hid
    obtain ⟨s, hs, hclient, huser⟩ := hsame (.inl hattaching) s' hs' hid
    rw [← huser]
    exact h.attaching hattaching s hs hclient
  · intro user huser s' hs' hid
    obtain ⟨s, hs, hclient, hsuser⟩ := hsame (.inr (by rw [huser]; rfl)) s' hs' hid
    rw [← hsuser]
    exact h.entrant user huser s hs hclient
  · intro user huser
    rw [hids]
    exact h.owner user huser
  · exact h.keysLeft

theorem mem_set {l l' l'' : Task × Phase} {jobs : List (Task × Phase)}
    (hk : jobs[k]? = some l') (hl : l ∈ jobs.set k l'') : l = l'' ∨ l ∈ jobs.eraseIdx k := by
  have hperm := List.set_perm_cons_eraseIdx (List.getElem?_eq_some_iff.mp hk).1 l''
  exact List.mem_cons.mp (hperm.mem_iff.mp hl)

theorem Orderly.next (h : Orderly p) (hk : p.jobs[k]? = some (t, phase))
    (hnodup : (g'.sockets.map (·.id)).Nodup) (hids : ids g' = ids p.state)
    (hrows : ∀ s ∈ g'.sockets, ∀ user, s.user = some user → user.id ∈ ids p.state)
    (hguests : ∀ s ∈ g'.sockets, s.user = none → ∀ c, channelRoom c ∉ s.rooms)
    (hnew : Fits g' (t, phase'))
    (hsame : ∀ l ∈ p.others k, l.2.attaching = true ∨ l.2.entrant.isSome = true →
      SameUser p.state g' l.1.client)
    (hone : phase'.attaching = true → p.jobs.countP (attachesTo t.client) = 0) :
    Orderly ⟨p.jobs.set k (t, phase'), g'⟩ := by
  constructor
  · exact hnodup
  · dsimp only
    rwa [hids]
  · exact hguests
  · intro l hl
    rcases mem_set hk hl with rfl | hother
    · exact hnew
    · exact (h.fits l (List.mem_of_mem_eraseIdx hother)).carry hids (hsame l hother)
  · intro client
    show (p.jobs.set k (t, phase')).countP (attachesTo client) ≤ 1
    have hcount := set_countP (t, phase') (attachesTo client) hk
    have hone' := h.one client
    by_cases hnow : attachesTo client (t, phase') = true
    · simp only [attachesTo, Bool.and_eq_true, decide_eq_true_eq] at hnow
      have hnone := hone hnow.2
      rw [hnow.1] at hnone
      rw [hnone] at hcount
      split at hcount <;> split at hcount <;> omega
    · simp only [hnow, Bool.false_eq_true, if_false] at hcount
      omega

/-- Each socket was there, with its account, and without one in the same channels. -/
structure Kept (g g' : Gateway) : Prop where
  nodup : (g.sockets.map (·.id)).Nodup → (g'.sockets.map (·.id)).Nodup
  origin : ∀ s' ∈ g'.sockets, ∃ s ∈ g.sockets, s.id = s'.id ∧ s.user = s'.user ∧
    (s'.user = none → ∀ c, channelRoom c ∈ s'.rooms → channelRoom c ∈ s.rooms)

theorem Kept.sameUser (h : Kept g g') (client : String) : SameUser g g' client := by
  rintro s' hs' rfl
  obtain ⟨s, hs, hid, huser, -⟩ := h.origin s' hs'
  exact ⟨s, hs, hid, huser⟩

theorem kept_same (h : g'.sockets = g.sockets) : Kept g g' := by
  constructor
  · rw [h]
    exact fun hnodup => hnodup
  · intro s' hs'
    exact ⟨s', h ▸ hs', rfl, rfl, fun _ _ hroom => hroom⟩

theorem kept_remove {client : String}
    (h : g'.sockets = Rows.remove (fun s : Socket => decide (s.id = client)) g.sockets) :
    Kept g g' := by
  constructor
  · rw [h]
    exact Rows.nodup_remove
  · intro s' hs'
    rw [h] at hs'
    exact ⟨s', (Rows.mem_remove.mp hs').1, rfl, rfl, fun _ _ hroom => hroom⟩

theorem kept_modify {client : String} {f : Socket → Socket}
    (h : g'.sockets = Rows.modify (fun s : Socket => decide (s.id = client)) f g.sockets)
    (hf : ∀ s, (f s).id = s.id ∧ (f s).user = s.user)
    (hrooms : ∀ s ∈ g.sockets, s.id = client → s.user = none → ∀ c,
      channelRoom c ∈ (f s).rooms → channelRoom c ∈ s.rooms) : Kept g g' := by
  constructor
  · intro hnodup
    rw [h]
    exact Rows.nodup_modify hnodup fun s _ => (hf s).1
  · intro s' hs'
    rw [h] at hs'
    obtain ⟨s, hs, rfl⟩ := Rows.mem_modify.mp hs'
    refine ⟨s, hs, ?_⟩
    split_ifs with hclient
    · refine ⟨(hf s).1.symm, (hf s).2.symm, fun hnone c hroom => ?_⟩
      rw [(hf s).2] at hnone
      exact hrooms s hs (of_decide_eq_true hclient) hnone c hroom
    · exact ⟨rfl, rfl, fun _ _ hroom => hroom⟩

/-- A turn that neither opens a socket nor attaches an account. -/
theorem Orderly.keep (h : Orderly p) (hk : p.jobs[k]? = some (t, phase)) (hkept : Kept p.state g')
    (hids : ids g' = ids p.state) (hattaching : phase'.attaching = false)
    (hnew : Fits g' (t, phase')) : Orderly ⟨p.jobs.set k (t, phase'), g'⟩ := by
  apply h.next hk (hkept.nodup h.nodup) hids _ _ hnew (fun l _ _ => hkept.sameUser _)
  · intro hnow
    rw [hattaching] at hnow
    exact nomatch hnow
  · intro s' hs' user huser
    obtain ⟨s, hs, -, hsuser, -⟩ := hkept.origin s' hs'
    exact h.rows s hs user (hsuser.trans huser)
  · intro s' hs' hnone c hroom
    obtain ⟨s, hs, -, hsuser, hsrooms⟩ := hkept.origin s' hs'
    exact h.guests s hs (hsuser.trans hnone) c (hsrooms hnone c hroom)

theorem ids_of_users {users : List User} (h : g'.server.db.users = users)
    (hids : users.map (·.id) = ids g) : ids g' = ids g := by
  rw [ids, h, hids]

theorem account_mem {client : String} {user : Profile}
    (h : WebsocketGateway.account client g = some user) :
    ∃ s ∈ g.sockets, s.id = client ∧ s.user = some user := by
  obtain ⟨s, hs, huser⟩ := Option.bind_eq_some_iff.mp h
  exact ⟨s, List.mem_of_find?_eq_some hs, by simpa using List.find?_some hs, huser⟩

/-- The account of a client is that of each of its sockets. -/
theorem account_user {client : String} {user : Profile}
    (hnodup : (g.sockets.map (·.id)).Nodup) (h : WebsocketGateway.account client g = some user)
    {s : Socket} (hs : s ∈ g.sockets) (hid : s.id = client) : s.user = some user := by
  obtain ⟨s', hs', hid', huser⟩ := account_mem h
  rw [Rows.eq_of_nodup hnodup hs hs' (hid.trans hid'.symm)]
  exact huser

/-- A handler that is to put no socket into a room. -/
theorem fits_of_owner (hattaching : phase'.attaching = false) (hentrant : phase'.entrant = none)
    (hkeys : phase'.keysLeft = []) (howner : ∀ user, phase'.owner = some user → user.id ∈ ids g') :
    Fits g' (t, phase') := by
  constructor
  · intro hnow
    dsimp only at hnow
    rw [hattaching] at hnow
    exact nomatch hnow
  · intro user huser
    dsimp only at huser
    rw [hentrant] at huser
    exact nomatch huser
  · exact howner
  · intro key hkey
    dsimp only at hkey
    rw [hkeys] at hkey
    exact nomatch hkey

theorem fits_of_done (hattaching : phase'.attaching = false) (hentrant : phase'.entrant = none)
    (hkeys : phase'.keysLeft = []) (howner : phase'.owner = none) : Fits g' (t, phase') := by
  apply fits_of_owner hattaching hentrant hkeys
  intro user huser
  rw [howner] at huser
  exact nomatch huser

theorem Fits.calm (h : Fits g (t, phase)) (hcalm : Calm phase phase') (hids : ids g' = ids g)
    (hkept : Kept g g') : Fits g' (t, phase') := by
  constructor
  · intro hnow
    dsimp only at hnow
    rw [hcalm.attaching] at hnow
    exact nomatch hnow
  · intro user huser s' hs' hid
    obtain ⟨s, hs, hsid, hsuser, -⟩ := hkept.origin s' hs'
    rw [← hsuser]
    exact h.entrant user (hcalm.entrant user huser) s hs (hsid.trans hid)
  · intro user huser
    rw [hids]
    exact h.owner user (hcalm.owner user huser)
  · intro key hkey
    dsimp only at hkey
    rw [hcalm.keysLeft] at hkey
    exact nomatch hkey

theorem resting_of_attaching {phase : Phase}
    (h : phase.attaching = true ∨ phase.entrant.isSome = true) : phase.resting = false := by
  cases phase with
  | idle | finished => rcases h with h | h <;> exact nomatch h
  | _ => rfl

theorem opens_orderly {sub : Uuid} (h : Orderly p) (hk : p.jobs[k]? = some (t, .idle))
    (hfresh : freshClient p k = true) (hconnects : t.connects = true)
    (hafter : After (p.state.sockets ++ [⟨t.client, none, []⟩]) p.state.server.redis
      p.state.server.db.users g') : Orderly ⟨p.jobs.set k (t, .account sub), g'⟩ := by
  have hids : ids g' = ids p.state := ids_of_users hafter.users rfl
  obtain ⟨hnew, hresting⟩ : (∀ s ∈ p.state.sockets, s.id ≠ t.client) ∧
      ∀ l ∈ p.jobs, l.1.client = t.client → l.2.resting = true := by
    simp only [freshClient, hk, hconnects, Bool.not_true, Bool.false_or, Bool.and_eq_true,
      List.all_eq_true, Bool.or_eq_true, decide_eq_true_eq] at hfresh
    exact ⟨hfresh.1, fun l hl hid => (hfresh.2 l hl).resolve_left fun hne => hne hid⟩
  have hbusy : ∀ l ∈ p.jobs, l.2.attaching = true ∨ l.2.entrant.isSome = true →
      l.1.client ≠ t.client := by
    intro l hl hnow hid
    have hrest := hresting l hl hid
    rw [resting_of_attaching hnow] at hrest
    exact nomatch hrest
  have hmem : ∀ s ∈ g'.sockets, s ∈ p.state.sockets ∨ s = ⟨t.client, none, []⟩ := by
    intro s hs
    rw [hafter.sockets] at hs
    simpa using List.mem_append.mp hs
  apply h.next hk _ hids
  · intro s hs user huser
    rcases hmem s hs with hold | rfl
    · exact h.rows s hold user huser
    · exact nomatch huser
  · intro s hs hnone c hroom
    rcases hmem s hs with hold | rfl
    · exact h.guests s hold hnone c hroom
    · exact nomatch hroom
  · refine ⟨fun _ s hs hid => ?_, nofun, nofun, nofun⟩
    rcases hmem s hs with hold | rfl
    · exact absurd hid (hnew s hold)
    · rfl
  · intro l hl hnow s' hs' hid
    have hne := hbusy l (List.mem_of_mem_eraseIdx hl) hnow
    rcases hmem s' hs' with hold | rfl
    · exact ⟨s', hold, hid, rfl⟩
    · exact absurd hid.symm hne
  · intro _
    apply List.countP_eq_zero.mpr
    intro l hl hnow
    simp only [attachesTo, Bool.and_eq_true, decide_eq_true_eq] at hnow
    exact hbusy l hl (.inl hnow.2) hnow.1
  · rw [hafter.sockets]
    apply Rows.nodup_append_of_fresh h.nodup (by simp)
    rintro _ (_ | ⟨_, ⟨⟩⟩) hmem
    obtain ⟨s, hs, hid⟩ := List.mem_map.mp hmem
    exact hnew s hs hid

theorem attaches_orderly {user : Profile} (h : Orderly p)
    (hk : p.jobs[k]? = some (t, .account user.id)) (hmem : user.id ∈ ids p.state)
    (hafter : After (Rows.modify (·.id = t.client) (Socket.attach user) p.state.sockets)
      p.state.server.redis p.state.server.db.users g') :
    Orderly ⟨p.jobs.set k (t, .online user), g'⟩ := by
  have hids : ids g' = ids p.state := ids_of_users hafter.users rfl
  have hfits := h.fits _ (List.mem_of_getElem? hk)
  have hmodified : ∀ s' ∈ g'.sockets, ∃ s ∈ p.state.sockets, s.id = s'.id ∧
      (s.id = t.client ∧ s'.user = some user ∨ s.id ≠ t.client ∧ s' = s) := by
    intro s' hs'
    rw [hafter.sockets] at hs'
    obtain ⟨s, hs, rfl⟩ := Rows.mem_modify.mp hs'
    refine ⟨s, hs, ?_⟩
    split_ifs with hid
    · exact ⟨rfl, .inl ⟨of_decide_eq_true hid, rfl⟩⟩
    · exact ⟨rfl, .inr ⟨fun heq => hid (decide_eq_true heq), rfl⟩⟩
  apply h.next hk _ hids
  · intro s' hs' u hu
    obtain ⟨s, hs, -, ⟨-, huser⟩ | ⟨-, rfl⟩⟩ := hmodified s' hs'
    · rw [Option.some.inj (huser.symm.trans hu)] at hmem
      exact hmem
    · exact h.rows s' hs u hu
  · intro s' hs' hnone c hroom
    obtain ⟨s, hs, -, ⟨-, huser⟩ | ⟨-, rfl⟩⟩ := hmodified s' hs'
    · exact nomatch huser.symm.trans hnone
    · exact h.guests s' hs hnone c hroom
  · refine fits_of_owner rfl rfl rfl ?_
    rintro _ ⟨⟩
    exact hids ▸ hmem
  · intro l hl hnow s' hs' hid
    obtain ⟨s, hs, hsid, ⟨hclient, -⟩ | ⟨-, rfl⟩⟩ := hmodified s' hs'
    · -- no other handler of this socket waits for its account
      exfalso
      have hsame : l.1.client = t.client := hid.symm.trans (hsid.symm.trans hclient)
      have hnone := hfits.attaching rfl s hs hclient
      rcases hnow with hattaching | hentrant
      · have hcount := (jobs_perm hk).countP_eq (attachesTo t.client)
        have hone := h.one t.client
        have hother : 0 < (p.others k).countP (attachesTo t.client) :=
          List.countP_pos_iff.mpr ⟨l, hl, by simp [attachesTo, hsame, hattaching]⟩
        have hself : attachesTo t.client (t, Phase.account user.id) = true := by
          simp [attachesTo, Phase.attaching]
        rw [List.countP_cons, if_pos hself] at hcount
        omega
      · obtain ⟨u, hu⟩ := Option.isSome_iff_exists.mp hentrant
        have huser := (h.fits l (List.mem_of_mem_eraseIdx hl)).entrant u hu s hs
          (hclient.trans hsame.symm)
        exact nomatch hnone.symm.trans huser
    · exact ⟨s', hs, hid, rfl⟩
  · exact nofun
  · rw [hafter.sockets]
    exact Rows.nodup_modify h.nodup fun _ _ => rfl

theorem turns_orderly (h : Orderly p) (hk : p.jobs[k]? = some (t, phase))
    (hfresh : freshClient p k = true) (hturns : Turns t p.state g' phase phase') :
    Orderly ⟨p.jobs.set k (t, phase'), g'⟩ := by
  have hfits := h.fits _ (List.mem_of_getElem? hk)
  cases hturns with
  | calm hcalm hafter =>
    have hids : ids g' = ids p.state := ids_of_users hafter.users rfl
    have hkept := kept_same hafter.sockets
    exact h.keep hk hkept hids hcalm.attaching (hfits.calm hcalm hids hkept)
  | opens hconnects hafter => exact opens_orderly h hk hfresh hconnects hafter
  | declines hconnects hafter =>
    have hids : ids g' = ids p.state := ids_of_users hafter.users rfl
    exact h.keep hk (kept_remove hafter.sockets) hids rfl (fits_of_done rfl rfl rfl rfl)
  | attaches hid hmem hafter =>
    subst hid
    exact attaches_orderly h hk hmem hafter
  | refuses hmem hafter =>
    have hids : ids g' = ids p.state := ids_of_users hafter.users rfl
    exact h.keep hk (kept_remove hafter.sockets) hids rfl (fits_of_done rfl rfl rfl rfl)
  | comes hafter =>
    have hids : ids g' = ids p.state := ids_of_users hafter.users (Rows.map_modify fun _ _ => rfl)
    refine h.keep hk (kept_same hafter.sockets) hids rfl (fits_of_owner rfl rfl rfl ?_)
    rintro _ ⟨⟩
    exact hids ▸ hfits.owner _ rfl
  | vanishes hmem hafter => exact absurd (hfits.owner _ rfl) hmem
  | ends haccount hafter =>
    have hids : ids g' = ids p.state := ids_of_users hafter.users rfl
    refine h.keep hk (kept_remove hafter.sockets) hids rfl (fits_of_owner rfl rfl rfl ?_)
    rintro _ ⟨⟩
    obtain ⟨s, hs, -, huser⟩ := account_mem haccount
    exact hids ▸ h.rows s hs _ huser
  | endsUnknown haccount hcalm hafter =>
    have hids : ids g' = ids p.state := ids_of_users hafter.users rfl
    have hkept := kept_remove hafter.sockets
    exact h.keep hk hkept hids hcalm.attaching (hfits.calm hcalm hids hkept)
  | goes hafter =>
    have hids : ids g' = ids p.state := ids_of_users hafter.users (Rows.map_modify fun _ _ => rfl)
    refine h.keep hk (kept_same hafter.sockets) hids rfl (fits_of_owner rfl rfl rfl ?_)
    rintro _ ⟨⟩
    exact hids ▸ hfits.owner _ rfl
  | stops hmem hafter => exact absurd (hfits.owner _ rfl) hmem
  | lists hafter =>
    have hids : ids g' = ids p.state := ids_of_users hafter.users rfl
    refine h.keep hk (kept_same hafter.sockets) hids rfl ⟨nofun, nofun, nofun, ?_⟩
    intro key hkey
    dsimp only [Phase.keysLeft] at hkey
    split at hkey
    · exact nomatch hkey
    · exact (List.mem_filter.mp hkey).2
  | aside hcalm hf hafter =>
    have hids : ids g' = ids p.state := ids_of_users hafter.users rfl
    have hkept := kept_modify hafter.sockets (fun s => ⟨hf.id s, hf.user s⟩)
      fun s _ _ _ c => (hf.rooms s c).mp
    exact h.keep hk hkept hids hcalm.attaching (hfits.calm hcalm hids hkept)
  | asks haccount hafter =>
    have hids : ids g' = ids p.state := ids_of_users hafter.users rfl
    refine h.keep hk (kept_same hafter.sockets) hids rfl ⟨nofun, ?_, nofun, nofun⟩
    rintro _ ⟨⟩ s hs hid
    rw [hafter.sockets] at hs
    exact account_user h.nodup haccount hs hid
  | enters hafter =>
    have hids : ids g' = ids p.state := ids_of_users hafter.users rfl
    have hkept := kept_modify hafter.sockets (fun s => ⟨rfl, rfl⟩) fun s hs hid hnone => by
      rw [hfits.entrant _ rfl s hs hid] at hnone
      exact nomatch hnone
    exact h.keep hk hkept hids rfl (fits_of_done rfl rfl rfl rfl)
  | leaves haccount hafter =>
    have hids : ids g' = ids p.state := ids_of_users hafter.users rfl
    have hkept := kept_modify hafter.sockets (fun s => ⟨rfl, rfl⟩) fun s _ _ _ c hroom =>
      (List.mem_filter.mp hroom).1
    exact h.keep hk hkept hids rfl (fits_of_done rfl rfl rfl rfl)
  | added hworked hafter =>
    have hids : ids g' = ids p.state := ids_of_users hafter.users rfl
    exact h.keep hk (kept_same hafter.sockets) hids rfl (fits_of_done rfl rfl rfl rfl)
  | dropped hworked hafter =>
    have hids : ids g' = ids p.state := ids_of_users hafter.users rfl
    exact h.keep hk (kept_same hafter.sockets) hids rfl (fits_of_done rfl rfl rfl rfl)
  | forgets hworked hafter =>
    have hids : ids g' = ids p.state := ids_of_users hafter.users rfl
    have hkept := kept_same hafter.sockets
    split
    · refine h.keep hk hkept hids rfl ⟨nofun, nofun, nofun, ?_⟩
      exact fun key hkey => hfits.keysLeft key (List.mem_cons_of_mem _ hkey)
    · exact h.keep hk hkept hids rfl (fits_of_done rfl rfl rfl rfl)

theorem turn_orderly (h : Orderly p) (hfresh : freshClient p k = true) :
    Orderly (p.turn move k).2 :=
  turn_turns h fun _ _ _ _ hk hturns => turns_orderly h hk hfresh hturns

theorem turn_available (h : Available p) : Available (p.turn move k).2 :=
  turn_turns h fun _ _ _ _ hk _ => set_available h hk

end Task

end VoxLink
