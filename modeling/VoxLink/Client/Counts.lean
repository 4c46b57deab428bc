import VoxLink.Accounts.Storage
import VoxLink.Client.Stores
import VoxLink.Guilds.ChannelAccess
import VoxLink.Realtime.Members

/-! Whether the count of members that a client keeps for a channel agrees with the set in Redis. The
client counts events; the set changes when a user comes or goes. -/

namespace VoxLink

open ProofKit Prog WebsocketService

namespace Client

/-! ### What the listeners do to a count -/

/-- The counts in the store for the channel. -/
def countsOf (c : String) (st : Stores) : List Int :=
  (st.channels.channels.filter (·.id = c)).map (·.memberCount)

/-- The event changes the count of the channel. -/
def about (c : String) : GatewayEvent → Bool
  | .ready c' _ _ | .memberJoined c' _ => c' = .value c
  | .memberLeft c' _ => c' = c
  | _ => false

variable {c c' : String} {channel : BodyField String} {st : Stores} {event : GatewayEvent}

theorem updateChannel_counts {n : Int} {s : ChannelStore} :
    ((s.updateChannel channel n).channels.filter (·.id = c)).map (·.memberCount) =
      if channel = .value c then ((s.channels.filter (·.id = c)).map (·.memberCount)).map fun _ => n
      else (s.channels.filter (·.id = c)).map (·.memberCount) := by
  simp only [ChannelStore.updateChannel]
  by_cases hc : channel = .value c
  · subst hc
    rw [if_pos rfl]
    induction s.channels with
    | nil => rfl
    | cons item items ih =>
      by_cases hitem : item.id = c
      · simpa [hitem] using ih
      · simpa [hitem] using ih
  · rw [if_neg hc]
    induction s.channels with
    | nil => rfl
    | cons item items ih =>
      by_cases hitem : item.id = c
      · simpa [hitem, Ne.symm hc] using ih
      · by_cases hother : .value item.id = channel
        · simpa [hother, hitem] using ih
        · simpa [hitem, hother] using ih

theorem find_count :
    (st.channels.find (.value c)).map (·.memberCount) = (countsOf c st).head? := by
  simp [countsOf, ChannelStore.find, List.head?_filter]

theorem counts_other (h : about c event = false) :
    countsOf c (listen event st) = countsOf c st := by
  cases event with
  | ready channel _ _ | memberJoined channel _ =>
    have hne : ¬channel = .value c := by simpa [about] using h
    simp only [countsOf, listen, updateChannel_counts, if_neg hne]
  | memberLeft c' _ =>
    have hne : ¬BodyField.value c' = .value c := by simpa [about] using h
    simp only [countsOf, listen, updateChannel_counts, if_neg hne]
  | _ => rfl

theorem counts_joined {u : UserSummary} : countsOf c (listen (.memberJoined (.value c) u) st) =
    (countsOf c st).map fun _ => (countsOf c st).head?.getD 0 + 1 := by
  simp only [listen, find_count]
  simp only [countsOf, updateChannel_counts, if_true]

theorem counts_left {u : Uuid} : countsOf c (listen (.memberLeft c u) st) =
    (countsOf c st).map fun _ => max 0 ((countsOf c st).head?.getD 1 - 1) := by
  simp only [listen, find_count]
  simp only [countsOf, updateChannel_counts, if_true]

theorem counts_ready {ms : List MessageListing} {members : List String} :
    countsOf c (listen (.ready (.value c) ms members) st) =
      (countsOf c st).map fun _ => (members.length : Int) := by
  simp only [countsOf, listen, updateChannel_counts, if_true]

/-! ### A client that watches a channel -/

/-- The backend and the stores of one client. `ready` says that the client has received
`channel:ready` for the channel and has stayed in its room since. -/
structure Watch where
  gateway : Gateway
  stores : Stores
  ready : Bool

def isReady (c : String) : GatewayEvent → Bool
  | .ready c' _ _ => c' = .value c
  | _ => false

/-- The watch after a step of the backend from which the client receives `events`. -/
def Watch.next (w c : String) (g : Gateway) (events : List GatewayEvent) (s : Watch) : Watch :=
  ⟨g, listenAll events s.stores, (s.ready || events.any (isReady c)) && inRoom w c g⟩

/-- A request or a handler runs to its end and its emissions are delivered. -/
def Watch.step (X : Externals) (w c : String) (s : Watch) (i : Env × Input) : Unit × Watch :=
  let (output, g) := s.gateway.step X i
  ((), s.next w c g (received w (emissions output)))

/-- The count in the store of a client that is ready is the size of the set. -/
def Tracks (c : String) (s : Watch) : Prop :=
  s.ready = true → ∀ n ∈ countsOf c s.stores, ∀ now,
    n = (membersAt now s.gateway.server.redis (membersKey c)).length

/-! ### Which steps keep the count -/

/-- Whether the removal of a user from the sets under the keys comes to `key`. -/
def reaches (env : Env) (key : String) : Nat → List String → Bool
  | _, [] => false
  | site, k :: keys => !env.redisFails site && (k = key || reaches env key (site + 1) keys)

/-- Whether the end of a connection of the user removes him from the set under the key. -/
def removes (env : Env) (user : Profile) (key : String) (g : Gateway) : Bool :=
  (g.server.db.userById user.id).isSome && !env.redisFails 0 &&
    reaches env key 1 ((g.server.redis.keys env.now).filter isMembersKey)

/-- The event changes the set of the channel by as much as it changes the count of the client. -/
def tallies (w c : String) (s : Watch) (i : Env × Input) : Bool :=
  match i.2 with
  | .request _ => true
  | .event client e =>
    match WebsocketGateway.account client s.gateway with
    | none => true
    | some user =>
      let ids := membersAt i.1.now s.gateway.server.redis (membersKey c)
      let tracked := s.ready && !(countsOf c s.stores).isEmpty
      match e with
      | .joinChannel c' =>
        if c'.text = c && (ChannelsService.findOneOf i.1 c' user).passes s.gateway.server.db then
          -- a join without an id enters the set and the room of its text, but is told without one
          if c' ≠ .value c then !tracked || user.id.toText ∈ ids || i.1.redisFails 0
          else if client = w then
            (countsOf c s.stores).isEmpty || !i.1.redisFails 1 || i.1.redisFails 0 && ids.isEmpty
          else !tracked || user.id.toText ∉ ids && !i.1.redisFails 0
        else true
      | .leaveChannel c' =>
        c' ≠ c || client = w || !tracked || ids.isEmpty ||
          user.id.toText ∈ ids && !i.1.redisFails 0
      | .disconnection =>
        client = w || !tracked || user.id.toText ∉ ids ||
          !removes i.1 user (membersKey c) s.gateway
      | _ => true

/-! ### What steps do to the set of a channel -/

/-- The keys of members go on to hold sets, and the set under the key changes by `f`. -/
def ChangesSet (key : String) (f : List String → List String) (redis redis' : Redis) : Prop :=
  HoldsSets redis →
    HoldsSets redis' ∧ ∀ now, membersAt now redis' key = f (membersAt now redis key)

abbrev KeepsSet (key : String) : Redis → Redis → Prop := ChangesSet key fun ids => ids

variable {w client key key' id : String} {redis redis' : Redis} {env : Env} {X : Externals}
  {g g' : Gateway}

instance : IsPreorder Redis (KeepsSet key) where
  refl _ h := ⟨h, fun _ => rfl⟩
  trans _ _ _ h h' hsets := by
    obtain ⟨hsets', hmembers⟩ := h hsets
    obtain ⟨hsets'', hmembers'⟩ := h' hsets'
    exact ⟨hsets'', fun now => (hmembers' now).trans (hmembers now)⟩

theorem keepsSet_del (h : key' ≠ key) : KeepsSet key redis (redis.del key') := by
  intro hsets
  refine ⟨hsets.del key', fun now => ?_⟩
  rw [membersAt_del, if_neg h.symm]

/-- What is stored under a key that is none of members. -/
theorem keepsSet_put {v : RedisValue} {deadline : Option Date} (hkey : isMembersKey key = true)
    (h : isMembersKey key' = false) : KeepsSet key redis (redis.put key' v deadline) := by
  have hne : key ≠ key' := by
    rintro rfl
    exact nomatch hkey.symm.trans h
  intro hsets
  constructor
  · intro e he hmember
    rcases List.mem_cons.mp he with rfl | hold
    · exact nomatch hmember.symm.trans h
    · exact hsets.del key' e hold hmember
  · intro now
    rw [membersAt, Keyspace.get_put_of_ne hne, membersAt]

theorem not_membersKey (token : String) : isMembersKey (AuthService.inviteKey token) = false ∧
    isMembersKey (AuthService.magicKey token) = false := by
  constructor
  · simp [isMembersKey, AuthService.inviteKey, List.isPrefixOf]
  · simp [isMembersKey, AuthService.magicKey, List.isPrefixOf]

theorem keepsSet_request (hkey : isMembersKey key = true) (X : Externals) (g : Gateway) (env : Env)
    (req : Request) :
    KeepsSet key g.server.redis (g.step X (env, .request req)).2.server.redis := by
  have hne : ∀ token, AuthService.magicKey token ≠ key := by
    rintro token rfl
    exact nomatch hkey.symm.trans (not_membersKey token).2
  have hrequest : Keeps (OnRedis (KeepsSet key)) (handle X env req) := onRedis_handle
    (fun token _ _ _ _ => keepsSet_put hkey (not_membersKey token).1)
    (fun _ token _ _ => keepsSet_put hkey (not_membersKey token).2)
    (fun _ token => keepsSet_del (hne token))
  exact (hrequest g.server).final

/-- A command that changes the set under its key by `f` is tried. -/
theorem changesSet_attempted {f : List String → List String} {command : Redis → Option Redis}
    (env : Env) (site : Nat) (key : String) (redis : Redis)
    (h : HoldsSets redis → ∃ redis', command redis = some redis' ∧ HoldsSets redis' ∧
      ∀ now key, membersAt now redis' key =
        if key = key' then f (membersAt now redis key') else membersAt now redis key) :
    ChangesSet key (fun ids => if env.redisFails site ∨ key ≠ key' then ids else f ids)
      redis ((attempted env site command redis).getD redis) := by
  intro hsets
  obtain ⟨redis', hcommand, hsets', hmembers⟩ := h hsets
  have hredis : (attempted env site command redis).getD redis =
      if env.redisFails site then redis else redis' := by
    unfold attempted
    split_ifs
    · rfl
    · rw [hcommand, Option.getD_some]
  rw [hredis]
  by_cases hfails : env.redisFails site = true
  · rw [if_pos hfails]
    exact ⟨hsets, fun _ => (if_pos (.inl hfails)).symm⟩
  · rw [if_neg hfails]
    refine ⟨hsets', fun now => ?_⟩
    rw [hmembers]
    by_cases heq : key = key'
    · simp [heq, hfails]
    · simp [heq]

theorem sadd_attempted (env : Env) (key id : String) (redis : Redis)
    (hkey : isMembersKey key' = true) :
    ChangesSet key (fun ids => if env.redisFails 0 ∨ key ≠ key' then ids else withMember id ids)
      redis ((attempted env 0 (sadd env key' id) redis).getD redis) :=
  changesSet_attempted env 0 key redis fun hsets => sadd_membersAt env id hsets hkey

theorem srem_attempted (env : Env) (site : Nat) (key id : String) (redis : Redis)
    (hkey : isMembersKey key' = true) :
    ChangesSet key
      (fun ids => if env.redisFails site ∨ key ≠ key' then ids else ids.filter (· ≠ id))
      redis ((attempted env site (srem env key' id) redis).getD redis) :=
  changesSet_attempted env site key redis fun hsets => srem_membersAt env id hsets hkey

/-- The removal of a user from all sets changes that under the key if it comes so far. -/
theorem removeFrom_runs (env : Env) (key id : String) {s : Server} (site : Nat)
    {keys : List String}
    (hsets : HoldsSets s.redis)
    (hkeys : ∀ k ∈ keys, isMembersKey k = true) :
    wp (removeFrom env id site keys)
      (fun _ s' => ChangesSet key
        (fun ids => if reaches env key site keys then ids.filter (· ≠ id) else ids)
        s.redis s'.redis) (fun _ _ => False) s := by
  induction keys generalizing site s with
  | nil => exact fun _ => ⟨hsets, fun _ => rfl⟩
  | cons k keys ih =>
    have hk := hkeys k List.mem_cons_self
    have hremoved := srem_attempted env site key id s.redis hk hsets
    refine attempt_runs.seq ?_
    rintro worked s' ⟨hworked, rfl⟩
    by_cases hfails : env.redisFails site = true
    · have hstops : worked = false := by simp [hworked, attempted, hfails]
      rw [hstops]
      simpa [reaches, hfails, ChangesSet] using fun _ => hremoved
    · obtain ⟨redis', hsrem, -, -⟩ := srem_membersAt env id hsets hk
      have hgoes : worked = true := by simp [hworked, attempted, hfails, hsrem]
      rw [hgoes]
      refine (ih (site + 1) hremoved.1 fun k' hk' => hkeys k' (.tail _ hk')).mono ?_ fun _ _ h => h
      intro _ s' hrest _
      refine ⟨(hrest hremoved.1).1, fun now => ?_⟩
      rw [(hrest hremoved.1).2, hremoved.2]
      by_cases heq : k = key
      · subst heq
        simp [reaches, hfails, List.filter_filter]
      · have hne : key ≠ k := fun h => heq h.symm
        simp [reaches, hfails, heq, hne]

/-! ### Handlers that leave the channel alone -/

/-- The set of the channel is the same, the client has not entered its room, and no emission is
about it. -/
structure Quiet (w c : String) (g g' : Gateway) : Prop where
  set : KeepsSet (membersKey c) g.server.redis g'.server.redis
  room : inRoom w c g' = true → inRoom w c g = true
  sent : ∃ es, g'.sent = g.sent ++ es ∧ ∀ e ∈ es, about c e.event = false

instance : IsPreorder Gateway (Quiet w c) where
  refl g := ⟨refl_of _ _, fun h => h, [], (List.append_nil _).symm, List.forall_mem_nil _⟩
  trans g g' g'' h h' := by
    refine ⟨trans_of _ h.set h'.set, fun hroom => h.room (h'.room hroom), ?_⟩
    obtain ⟨es, hes, habout⟩ := h.sent
    obtain ⟨es', hes', habout'⟩ := h'.sent
    refine ⟨es ++ es', by rw [hes', hes, List.append_assoc], fun e he => ?_⟩
    rcases List.mem_append.mp he with hmem | hmem
    · exact habout e hmem
    · exact habout' e hmem

theorem quiet_emit {p : Socket → Bool} (h : about c event = false) :
    Keeps (Quiet w c) (emitTo p event) :=
  .write fun _ => ⟨refl_of _ _, fun hroom => hroom, _, rfl, by simpa using h⟩

/-- A change of the sockets that brings none into the room of the channel. -/
theorem quiet_sockets {f : List Socket → List Socket}
    (h : ∀ ss, ∀ s' ∈ f ss, channelRoom c ∈ s'.rooms → ∃ s ∈ ss, s.id = s'.id ∧
      channelRoom c ∈ s.rooms) :
    Keeps (Quiet w c) (write fun g => { g with sockets := f g.sockets } : Handler Unit) := by
  refine .write fun g => ⟨refl_of _ _, fun hroom => ?_, [], (List.append_nil _).symm,
    List.forall_mem_nil _⟩
  simp only [inRoom, List.any_eq_true, Bool.and_eq_true, decide_eq_true_eq,
    List.contains_iff_mem] at hroom ⊢
  obtain ⟨s', hs', rfl, hin⟩ := hroom
  obtain ⟨s, hs, hid, hin⟩ := h g.sockets s' hs' hin
  exact ⟨s, hs, hid, hin⟩

theorem quiet_update {f : Socket → Socket} (hid : ∀ s, (f s).id = s.id)
    (hrooms : ∀ s, channelRoom c ∈ (f s).rooms → channelRoom c ∈ s.rooms) :
    Keeps (Quiet w c) (updateSocket client f) := by
  apply quiet_sockets
  intro ss s' hs' hin
  obtain ⟨s, hs, rfl⟩ := Rows.mem_modify.mp hs'
  split_ifs at hin ⊢
  · exact ⟨s, hs, (hid s).symm, hrooms s hin⟩
  · exact ⟨s, hs, rfl, hin⟩

theorem quiet_disconnect : Keeps (Quiet w c) (disconnect client) := by
  apply quiet_sockets
  intro ss s' hs' hin
  exact ⟨s', (Rows.mem_remove.mp hs').1, rfl, hin⟩

theorem quiet_server {α : Type} {m : Backend α}
    (h : Keeps (OnRedis (KeepsSet (membersKey c))) m) : Keeps (Quiet w c) (onServer m) :=
  .within (fun _ _ hset => ⟨hset, fun hroom => hroom, [], (List.append_nil _).symm,
    List.forall_mem_nil _⟩) h

theorem quiet_service {α : Type} {m : Service α} : Keeps (Quiet w c) (onServer (onDb m)) :=
  quiet_server onRedis_service

theorem quiet_join {room : String} (h : room ≠ channelRoom c) :
    Keeps (Quiet w c) (join client room) :=
  quiet_update (f := Socket.enter room) (fun _ => rfl)
    fun _ hin => (mem_enter.mp hin).resolve_left h.symm

theorem quiet_leave {room : String} : Keeps (Quiet w c) (leave client room) :=
  quiet_update (f := Socket.exit room) (fun _ => rfl) fun _ hin => (mem_exit.mp hin).1

theorem quiet_asUser {k : Profile → Handler Unit} (hk : ∀ user, Keeps (Quiet w c) (k user)) :
    Keeps (Quiet w c) (WebsocketGateway.asUser client k) := by
  apply Keeps.bind (.query _)
  intro user
  cases user with
  | some user => exact hk user
  | none => exact .pure _

/-- A command on the set of another channel. -/
theorem quiet_attempt {site : Nat} {command : Redis → Option Redis}
    (h : ∀ redis, KeepsSet (membersKey c) redis
      ((attempted env site command redis).getD redis)) :
    Keeps (Quiet w c) (onServer (do let _ ← attempt env site command)) := by
  apply quiet_server
  refine Keeps.bind (fun s => ?_) fun _ => .pure _
  refine attempt_runs.mono ?_ fun _ _ hthrows => hthrows.elim
  rintro _ _ ⟨-, rfl⟩
  exact h s.redis

theorem channelRoom_injective : Function.Injective channelRoom := by
  intro c c' h
  exact membersKey_injective (congrArg (· ++ ":members") h)

theorem quiet_joinChannel (h : channel.text ≠ c) :
    Keeps (Quiet w c) (WebsocketGateway.handleJoinChannel env client channel) := by
  have hne : membersKey c ≠ membersKey channel.text := fun heq => h (membersKey_injective heq).symm
  have hid : channel ≠ .value c := fun heq => h (heq ▸ rfl)
  refine quiet_asUser fun user => .recover ?_ fun _ => quiet_emit rfl
  refine .bind quiet_service fun _ => .bind (quiet_join (channelRoom_injective.ne h)) fun _ => ?_
  refine .bind (quiet_attempt fun redis => ?_) fun _ => .bind (quiet_server (.query _)) fun _ => ?_
  · simpa [hne] using
      sadd_attempted env (membersKey c) user.id.toText redis (isMembersKey_membersKey channel.text)
  · refine .bind quiet_service fun _ => .bind (quiet_emit ?_) fun _ => quiet_emit ?_
    · simpa [about] using hid
    · simpa [about] using hid

theorem quiet_leaveChannel (h : c' ≠ c) :
    Keeps (Quiet w c) (WebsocketGateway.handleLeaveChannel env client c') := by
  have hne : membersKey c ≠ membersKey c' := fun heq => h (membersKey_injective heq).symm
  refine quiet_asUser fun user => .bind quiet_leave fun _ => ?_
  refine .bind (quiet_attempt fun redis => ?_) fun _ => quiet_emit ?_
  · simpa [hne] using
      srem_attempted env 0 (membersKey c) user.id.toText redis (isMembersKey_membersKey c')
  · simpa [about] using h

theorem quiet_connection {handshake : Handshake} :
    Keeps (Quiet w c) (WebsocketGateway.handleConnection env client handshake) := by
  have hopens := quiet_sockets (w := w) (c := c) (f := (· ++ [⟨client, none, []⟩]))
  refine .bind (hopens fun ss s' hs' hin => ?_) fun _ => .recover ?_ fun _ => quiet_disconnect
  · rcases List.mem_append.mp hs' with hold | hnew
    · exact ⟨s', hold, rfl, hin⟩
    · rw [List.mem_singleton.mp hnew] at hin
      exact nomatch hin
  · refine .bind (quiet_server onRedis_authenticate) fun user => ?_
    refine .bind (quiet_update (f := Socket.attach user) (fun _ => rfl) fun _ hin => hin) fun _ =>
      ?_
    refine .bind quiet_service fun _ => .bind (quiet_join (userRoom_ne user.id c)) fun _ => ?_
    exact quiet_emit rfl

theorem quiet_handleEvent {e : SocketEvent}
    (hjoin : ∀ channel, e = .joinChannel channel → channel.text ≠ c)
    (hleave : ∀ c', e = .leaveChannel c' → c' ≠ c) (hend : e ≠ .disconnection) :
    Keeps (Quiet w c) (WebsocketGateway.handleEvent env client e) := by
  cases e with
  | connection handshake => exact quiet_connection
  | disconnection => exact absurd rfl hend
  | joinChannel channel => exact quiet_joinChannel (hjoin channel rfl)
  | leaveChannel c' => exact quiet_leaveChannel (hleave c' rfl)
  | sendMessage data =>
    refine quiet_asUser fun user => .recover ?_ fun _ => quiet_emit rfl
    exact .bind quiet_service fun _ => quiet_emit rfl
  | typingStart c' => exact quiet_asUser fun _ => quiet_emit rfl
  | typingStop c' => exact quiet_asUser fun _ => quiet_emit rfl
  | guildJoin g => exact quiet_asUser fun _ => quiet_join (guildRoom_ne g c)
  | guildLeave g => exact quiet_asUser fun _ => quiet_leave
  | voiceJoined c' => exact quiet_asUser fun _ => quiet_emit rfl
  | voiceLeft c' => exact quiet_asUser fun _ => quiet_emit rfl

/-! ### Joining, leaving and the end of a connection -/

/-- The messages of a channel that `findOne` gives the user are listed for him. -/
theorem findAllOf_returns {user : Profile} {db : Database} {limit offset : Nat}
    (h : (ChannelsService.findOneOf env channel user).passes db = true) :
    wp (MessagesService.findAllOf env channel user limit offset) (fun _ db' => db' = db)
      (fun _ _ => False) db := by
  have hlists : (MessagesService.findAllOf env channel user limit offset).passes db = true := by
    rw [findAllOf_passes, ← findOneOf_passes, h]
  have hreads : wp (MessagesService.findAllOf env channel user limit offset)
      (fun _ db' => db = db') (fun _ db' => db = db') db :=
    keeps_messages_findAllOf channel limit offset db
  exact (hreads.of_passes hlists).mono (fun _ _ heq => heq.symm) fun _ _ h => h

theorem members_read {site : Nat} {s : Server} :
    wp (getChannelMembers env site c)
      (fun members s' => members =
        (if env.redisFails site then [] else membersAt env.now s.redis (membersKey c)) ∧ s' = s)
      (fun _ _ => False) s := by
  refine ⟨?_, rfl⟩
  unfold membersAt
  rfl

/-- A user joins a channel that `findOne` gives him. -/
theorem join_runs (env : Env) {user : Profile}
    (haccount : WebsocketGateway.account client g = some user)
    (hopen : (ChannelsService.findOneOf env channel user).passes g.server.db = true) :
    wp (WebsocketGateway.handleJoinChannel env client channel)
      (fun _ g' =>
        g'.server.redis = (attempted env 0 (sadd env (membersKey channel.text) user.id.toText)
          g.server.redis).getD g.server.redis ∧
        g'.sockets = Rows.modify (·.id = client) (Socket.enter (channelRoom channel.text))
          g.sockets ∧
        ∃ ms, g'.sent = g.sent ++
          [⟨.memberJoined channel user.summary,
              (g'.sockets.filter (channelRoom channel.text ∈ ·.rooms)).map (·.id)⟩,
            ⟨.ready channel ms (if env.redisFails 1 then []
                else membersAt env.now g'.server.redis (membersKey channel.text)),
              (g'.sockets.filter (·.id = client)).map (·.id)⟩])
      (fun _ _ => False) g := by
  refine wp_bind.mpr ?_
  rw [wp_query, haccount]
  refine wp_recover.mpr ?_
  refine ((channelFound_returns hopen).mono (fun _ _ h => h) fun _ _ h => h.elim).seq ?_
  rintro view _ rfl
  refine wp_bind.mpr (wp_bind.mpr (wp_within.mpr (wp_bind.mpr ?_)))
  refine attempt_runs.mono ?_ fun _ _ h => h.elim
  rintro _ _ ⟨-, rfl⟩
  refine wp_bind.mpr (wp_within.mpr (members_read.mono ?_ fun _ _ h => h.elim))
  rintro _ _ ⟨rfl, rfl⟩
  refine wp_bind.mpr (wp_within.mpr (wp_onDb.mpr ?_))
  refine (findAllOf_returns hopen).mono ?_ fun _ _ h => h.elim
  rintro ms _ rfl
  exact ⟨rfl, rfl, ms.reverse, List.append_assoc _ _ _⟩

theorem leave_runs (env : Env) (c : String) {user : Profile}
    (haccount : WebsocketGateway.account client g = some user) :
    wp (WebsocketGateway.handleLeaveChannel env client c)
      (fun _ g' =>
        g'.server.redis = (attempted env 0 (srem env (membersKey c) user.id.toText)
          g.server.redis).getD g.server.redis ∧
        g'.sockets = Rows.modify (·.id = client) (Socket.exit (channelRoom c)) g.sockets ∧
        g'.sent = g.sent ++ [⟨.memberLeft c user.id,
          (g'.sockets.filter (channelRoom c ∈ ·.rooms)).map (·.id)⟩])
      (fun _ _ => False) g := by
  refine wp_bind.mpr ?_
  rw [wp_query, haccount]
  refine wp_bind.mpr ?_
  refine wp_bind.mpr (wp_within.mpr (wp_bind.mpr ?_))
  refine attempt_runs.mono ?_ fun _ _ h => h.elim
  rintro _ _ ⟨-, rfl⟩
  exact ⟨rfl, rfl, rfl⟩

/-- The status of an account is written when there is such an account. -/
theorem updateStatus_wp {id : Uuid} {status : String} {db : Database} :
    wp (UsersService.updateStatus env id status) (fun _ _ => (db.userById id).isSome = true)
      (fun _ _ => (db.userById id).isSome = false) db := by
  have hfind : (Rows.modify (·.id = id) (User.setStatus env status) db.users).find? (·.id = id) =
      (db.userById id).map fun u => if decide (u.id = id) then u.setStatus env status else u :=
    Rows.find?_modify_map fun _ => rfl
  refine wp_bind.mpr (UsersService.profile_wp.mono ?_ ?_)
  · rintro p _ ⟨-, hp⟩
    have hfound := (congrArg (Option.map User.toProfile) hfind).symm.trans hp
    simp only [Option.map_eq_some_iff] at hfound
    obtain ⟨_, ⟨u, hu, -⟩, -⟩ := hfound
    rw [hu, Option.isSome_some]
  · rintro _ _ ⟨-, hnone⟩
    rw [Option.map_eq_none_iff.mp (hfind.symm.trans hnone), Option.isSome_none]

theorem end_runs (env : Env) (c : String) {user : Profile}
    (haccount : WebsocketGateway.account client g = some user)
    (hsets : HoldsSets g.server.redis) :
    let Q := fun g' : Gateway =>
      ChangesSet (membersKey c)
        (fun ids => if removes env user (membersKey c) g then ids.filter (· ≠ user.id.toText)
          else ids) g.server.redis g'.server.redis ∧
      g'.sockets = Rows.remove (·.id = client) g.sockets ∧
      ∃ es, g'.sent = g.sent ++ es ∧ ∀ e ∈ es, about c e.event = false
    wp (WebsocketGateway.handleEvent env client .disconnection) (fun _ => Q) (fun _ => Q) g := by
  intro Q
  refine wp_bind.mpr ?_
  rw [wp_query, haccount]
  refine wp_bind.mpr (wp_bind.mpr (wp_within.mpr (wp_onDb.mpr (updateStatus_wp.mono ?_ ?_))))
  · intro _ db hrow
    refine wp_bind.mpr (wp_within.mpr (wp_bind.mpr ?_))
    rw [wp_query]
    have hquiet : ∀ recipients, ∀ e ∈ [Emission.mk (.presence user.id "offline") recipients],
        about c e.event = false := by
      intro recipients e he
      rw [List.mem_singleton.mp he]
      rfl
    have hrow : (g.server.db.userById user.id).isSome = true := hrow
    cases hfails : env.redisFails 0 with
    | true =>
      have hstays : removes env user (membersKey c) g = false := by simp [removes, hfails]
      rw [if_pos rfl]
      refine ⟨?_, rfl, _, rfl, hquiet _⟩
      simp only [hstays]
      exact refl_of (KeepsSet (membersKey c)) _
    | false =>
      have hkeys : ∀ k ∈ (g.server.redis.keys env.now).filter isMembersKey,
          isMembersKey k = true := fun k hk => (List.mem_filter.mp hk).2
      have hremoves : removes env user (membersKey c) g =
          reaches env (membersKey c) 1 ((g.server.redis.keys env.now).filter isMembersKey) := by
        simp [removes, hfails, hrow]
      rw [if_neg Bool.false_ne_true]
      have hruns := removeFrom_runs env (membersKey c) user.id.toText (s := { g.server with db }) 1
        hsets hkeys
      refine wp.mono hruns ?_ fun _ _ h => h.elim
      intro _ s' hset
      refine ⟨?_, rfl, _, rfl, hquiet _⟩
      simp only [hremoves]
      exact hset
  · intro _ db hrow
    have hstays : removes env user (membersKey c) g = false := by
      rw [removes, hrow]
      rfl
    refine ⟨?_, rfl, [], (List.append_nil _).symm, List.forall_mem_nil _⟩
    simp only [hstays]
    exact refl_of (KeepsSet (membersKey c)) _

/-! ### A step, as the client sees it -/

theorem mem_received {sent : List Emission} {e : GatewayEvent} (h : e ∈ received w sent) :
    ∃ e' ∈ sent, e'.event = e := by
  obtain ⟨e', he', rfl⟩ := List.mem_map.mp h
  exact ⟨e', (List.mem_filter.mp he').1, rfl⟩

/-- What a step does to the channel and to the events that the client receives. -/
inductive Happens (w c : String) (s : Watch) (i : Env × Input) (g' : Gateway)
    (events : List GatewayEvent) : Prop
  | quiet (hset : KeepsSet (membersKey c) s.gateway.server.redis g'.server.redis)
      (hroom : inRoom w c g' = true → inRoom w c s.gateway = true)
      (habout : ∀ e ∈ events, about c e = false) (htallies : tallies w c s i = true) :
      Happens w c s i g' events
  | joins {client : String} {user : Profile} {ms : List MessageListing}
      (hevent : i.2 = .event client (.joinChannel (.value c)))
      (haccount : WebsocketGateway.account client s.gateway = some user)
      (hopen : (ChannelsService.findOneOf i.1 (.value c) user).passes s.gateway.server.db = true)
      (hset : ChangesSet (membersKey c)
        (fun ids => if i.1.redisFails 0 then ids else withMember user.id.toText ids)
        s.gateway.server.redis g'.server.redis)
      (hroom : inRoom w c g' = (decide (client = w) || inRoom w c s.gateway))
      (hevents : events =
        (if inRoom w c g' then [.memberJoined (.value c) user.summary] else []) ++
          if client = w then [.ready (.value c) ms (if i.1.redisFails 1 then []
            else membersAt i.1.now g'.server.redis (membersKey c))] else []) :
      Happens w c s i g' events
  | joinsUnnamed {client : String} {user : Profile} {channel : BodyField String}
      (hevent : i.2 = .event client (.joinChannel channel)) (htext : channel.text = c)
        (hid : channel ≠ .value c)
      (haccount : WebsocketGateway.account client s.gateway = some user)
      (hopen : (ChannelsService.findOneOf i.1 channel user).passes s.gateway.server.db = true)
      (hset : ChangesSet (membersKey c)
        (fun ids => if i.1.redisFails 0 then ids else withMember user.id.toText ids)
        s.gateway.server.redis g'.server.redis)
      (hroom : inRoom w c s.gateway = true → inRoom w c g' = true)
      (habout : ∀ e ∈ events, about c e = false) : Happens w c s i g' events
  | leaves {client : String} {user : Profile}
      (hevent : i.2 = .event client (.leaveChannel c))
      (haccount : WebsocketGateway.account client s.gateway = some user)
      (hset : ChangesSet (membersKey c)
        (fun ids => if i.1.redisFails 0 then ids else ids.filter (· ≠ user.id.toText))
        s.gateway.server.redis g'.server.redis)
      (hroom : inRoom w c g' = (!decide (client = w) && inRoom w c s.gateway))
      (hevents : events = if inRoom w c g' then [.memberLeft c user.id] else []) :
      Happens w c s i g' events
  | ends {client : String} {user : Profile}
      (hevent : i.2 = .event client .disconnection)
      (haccount : WebsocketGateway.account client s.gateway = some user)
      (hset : ChangesSet (membersKey c)
        (fun ids => if removes i.1 user (membersKey c) s.gateway
          then ids.filter (· ≠ user.id.toText) else ids)
        s.gateway.server.redis g'.server.redis)
      (hroom : inRoom w c g' = (!decide (client = w) && inRoom w c s.gateway))
      (habout : ∀ e ∈ events, about c e = false) : Happens w c s i g' events

variable {s : Watch} {events : List GatewayEvent}

theorem inRoom_enter {user : Profile} (haccount : WebsocketGateway.account client g = some user)
    (h : g'.sockets = Rows.modify (·.id = client) (Socket.enter (channelRoom c)) g.sockets) :
    inRoom w c g' = (decide (client = w) || inRoom w c g) := by
  rw [Bool.eq_iff_iff, Bool.or_eq_true, decide_eq_true_eq, inRoom_mem, inRoom_mem, h]
  constructor
  · rintro ⟨s', hs', hid, hin⟩
    obtain ⟨s, hs, rfl⟩ := Rows.mem_modify.mp hs'
    split_ifs at hid hin with hclient
    · exact .inl ((of_decide_eq_true hclient).symm.trans hid)
    · exact .inr ⟨s, hs, hid, hin⟩
  · rintro (rfl | ⟨s, hs, hid, hin⟩)
    · obtain ⟨s, hs, hid, -⟩ := Task.account_mem haccount
      refine ⟨s.enter (channelRoom c), Rows.mem_modify.mpr ⟨s, hs, by simp [hid]⟩, hid, ?_⟩
      exact mem_enter.mpr (.inl rfl)
    · refine ⟨_, Rows.mem_modify.mpr ⟨s, hs, rfl⟩, ?_⟩
      split_ifs
      · exact ⟨hid, mem_enter.mpr (.inr hin)⟩
      · exact ⟨hid, hin⟩

theorem inRoom_exit
    (h : g'.sockets = Rows.modify (·.id = client) (Socket.exit (channelRoom c)) g.sockets) :
    inRoom w c g' = (!decide (client = w) && inRoom w c g) := by
  rw [Bool.eq_iff_iff, Bool.and_eq_true, Bool.not_eq_true', decide_eq_false_iff_not, inRoom_mem,
    inRoom_mem, h]
  constructor
  · rintro ⟨s', hs', hid, hin⟩
    obtain ⟨s, hs, rfl⟩ := Rows.mem_modify.mp hs'
    split_ifs at hid hin with hclient
    · exact absurd rfl (mem_exit.mp hin).2
    · exact ⟨fun heq => hclient (decide_eq_true (hid.trans heq.symm)), s, hs, hid, hin⟩
  · rintro ⟨hne, s, hs, hid, hin⟩
    have hother : ¬s.id = client := fun heq => hne (heq.symm.trans hid)
    exact ⟨s, Rows.mem_modify.mpr ⟨s, hs, by simp [hother]⟩, hid, hin⟩

theorem inRoom_remove (h : g'.sockets = Rows.remove (·.id = client) g.sockets) :
    inRoom w c g' = (!decide (client = w) && inRoom w c g) := by
  rw [Bool.eq_iff_iff, Bool.and_eq_true, Bool.not_eq_true', decide_eq_false_iff_not, inRoom_mem,
    inRoom_mem, h]
  constructor
  · rintro ⟨s, hs, hid, hin⟩
    obtain ⟨hmem, hother⟩ := Rows.mem_remove.mp hs
    exact ⟨fun heq => of_decide_eq_false hother (hid.trans heq.symm), s, hmem, hid, hin⟩
  · rintro ⟨hne, s, hs, hid, hin⟩
    have hother : ¬s.id = client := fun heq => hne (heq.symm.trans hid)
    exact ⟨s, Rows.mem_remove.mpr ⟨hs, decide_eq_false hother⟩, hid, hin⟩

theorem join_happens {user : Profile} {ms : List MessageListing} (htext : channel.text = c)
    (haccount : WebsocketGateway.account client s.gateway = some user)
    (hopen : (ChannelsService.findOneOf env channel user).passes s.gateway.server.db = true)
    (hredis : g'.server.redis = (attempted env 0 (sadd env (membersKey c) user.id.toText)
      s.gateway.server.redis).getD s.gateway.server.redis)
    (hsockets : g'.sockets =
      Rows.modify (·.id = client) (Socket.enter (channelRoom c)) s.gateway.sockets)
    (hsent : g'.sent =
      [⟨.memberJoined channel user.summary,
        (g'.sockets.filter (channelRoom c ∈ ·.rooms)).map (·.id)⟩,
        ⟨.ready channel ms (if env.redisFails 1 then []
            else membersAt env.now g'.server.redis (membersKey c)),
          (g'.sockets.filter (·.id = client)).map (·.id)⟩]) :
    Happens w c s (env, .event client (.joinChannel channel)) g' (received w g'.sent) := by
  have hroom := inRoom_enter (w := w) haccount hsockets
  have hset := sadd_attempted env (membersKey c) user.id.toText s.gateway.server.redis
    (isMembersKey_membersKey c)
  simp only [ne_eq, not_true, or_false] at hset
  rw [← hredis] at hset
  by_cases hid : channel = .value c
  swap
  · refine .joinsUnnamed rfl htext hid haccount hopen hset ?_ fun e he => ?_
    · exact fun hin => hroom.trans (by rw [hin, Bool.or_true])
    · obtain ⟨e', he', rfl⟩ := mem_received he
      rw [hsent] at he'
      rcases List.mem_pair.mp he' with rfl | rfl
      · exact decide_eq_false hid
      · exact decide_eq_false hid
  subst hid
  have hself : w ∈ (g'.sockets.filter (·.id = client)).map (·.id) ↔ client = w := by
    simp only [List.mem_map, List.mem_filter, decide_eq_true_eq]
    constructor
    · rintro ⟨s', ⟨-, hclient⟩, hid⟩
      exact hclient.symm.trans hid
    · rintro rfl
      obtain ⟨s', hs', hid, -⟩ := inRoom_mem.mp (hroom.trans (by simp))
      exact ⟨s', ⟨hs', hid⟩, hid⟩
  have hevents : received w g'.sent =
      (if inRoom w c g' then [.memberJoined (.value c) user.summary] else []) ++
        if client = w then [.ready (.value c) ms (if env.redisFails 1 then []
          else membersAt env.now g'.server.redis (membersKey c))] else [] := by
    rw [hsent, received_pair]
    simp only [← inRoom_iff, hself]
  exact .joins rfl haccount hopen hset hroom hevents

theorem leave_happens {user : Profile}
    (haccount : WebsocketGateway.account client s.gateway = some user)
    (hredis : g'.server.redis = (attempted env 0 (srem env (membersKey c) user.id.toText)
      s.gateway.server.redis).getD s.gateway.server.redis)
    (hsockets : g'.sockets =
      Rows.modify (·.id = client) (Socket.exit (channelRoom c)) s.gateway.sockets)
    (hsent : g'.sent = [⟨.memberLeft c user.id,
      (g'.sockets.filter (channelRoom c ∈ ·.rooms)).map (·.id)⟩]) :
    Happens w c s (env, .event client (.leaveChannel c)) g' (received w g'.sent) := by
  have hevents : received w g'.sent = if inRoom w c g' then [.memberLeft c user.id] else [] := by
    rw [hsent, received_single]
    simp only [← inRoom_iff]
  refine .leaves rfl haccount ?_ (inRoom_exit hsockets) hevents
  have hset := srem_attempted env 0 (membersKey c) user.id.toText s.gateway.server.redis
    (isMembersKey_membersKey c)
  simp only [ne_eq, not_true, or_false] at hset
  exact hredis ▸ hset

theorem quiet_happens {e : SocketEvent} (hquiet : Quiet w c { s.gateway with sent := [] } g')
    (htallies : tallies w c s (env, .event client e) = true) :
    Happens w c s (env, .event client e) g' (received w g'.sent) := by
  obtain ⟨es, hes, habout⟩ := hquiet.sent
  refine .quiet hquiet.set hquiet.room (fun e he => ?_) htallies
  obtain ⟨e', he', rfl⟩ := mem_received he
  have hes : g'.sent = es := hes
  exact habout e' (hes ▸ he')

/-- A refused join tells the client. -/
theorem quiet_refused {user : Profile} (haccount : WebsocketGateway.account client g = some user)
    (hrefused : (ChannelsService.findOneOf env channel user).passes g.server.db = false) :
    Quiet w c g ((WebsocketGateway.handleJoinChannel env client channel).final g) := by
  have hruns : wp (WebsocketGateway.handleJoinChannel env client channel)
    (fun _ g' => Quiet w c g g')
      (fun _ g' => Quiet w c g g') g := by
    refine wp_bind.mpr ?_
    rw [wp_query, haccount]
    refine wp_recover.mpr (wp_bind.mpr (wp_within.mpr (wp_onDb.mpr ?_)))
    refine (wp.of_refused hrefused).mono (fun _ _ h => h.elim) fun e db _ => ?_
    exact ⟨refl_of (KeepsSet (membersKey c)) _, fun hroom => hroom, _, rfl, by simp [about]⟩
  exact hruns.final

theorem quiet_unknown {k : Profile → Handler Unit}
    (haccount : WebsocketGateway.account client g = none) :
    Quiet w c g ((WebsocketGateway.asUser client k).final g) := by
  rw [WebsocketGateway.asUser, final_bind_at (query_at haccount)]
  exact refl_of (Quiet w c) g

/-- A socket without an account changes no channel. -/
theorem quiet_guest (haccount : WebsocketGateway.account client g = none) (e : SocketEvent) :
    Quiet w c g ((WebsocketGateway.handleEvent env client e).final g) := by
  cases e with
  | connection handshake => exact (quiet_connection g).final
  | disconnection =>
    have hends : Keeps (Quiet w c) (do disconnect client; pure ()) :=
      .bind quiet_disconnect fun _ => .pure _
    have heq : (WebsocketGateway.handleEvent env client .disconnection).final g =
        (do disconnect client; pure () : Handler Unit).final g :=
      final_bind_at (query_at haccount)
    rw [heq]
    exact (hends g).final
  | _ => exact quiet_unknown haccount

theorem event_happens (env : Env) (client : String) (e : SocketEvent)
    (hsets : HoldsSets s.gateway.server.redis) :
    let g' := (WebsocketGateway.handleEvent env client e).final { s.gateway with sent := [] }
    Happens w c s (env, .event client e) g' (received w g'.sent) := by
  intro g'
  have hquiet : Keeps (Quiet w c) (WebsocketGateway.handleEvent env client e) →
      tallies w c s (env, .event client e) = true →
      Happens w c s (env, .event client e) g' (received w g'.sent) :=
    fun h htallies => quiet_happens (h _).final htallies
  cases haccount : WebsocketGateway.account client s.gateway with
  | none =>
    refine quiet_happens (quiet_guest (g := { s.gateway with sent := [] }) haccount e) ?_
    simp [tallies, haccount]
  | some user =>
    cases e with
    | joinChannel channel =>
      by_cases hc : channel.text = c
      · subst hc
        cases hopen : (ChannelsService.findOneOf env channel user).passes s.gateway.server.db with
        | true =>
          have hruns := join_runs env (g := { s.gateway with sent := [] }) haccount hopen
          obtain ⟨hredis, hsockets, ms, hsent⟩ :=
            (hruns.mono (fun _ _ h => h) fun _ _ h => h.elim).final
          exact join_happens rfl haccount hopen hredis hsockets hsent
        | false =>
          refine quiet_happens (quiet_refused (g := { s.gateway with sent := [] }) haccount hopen)
            ?_
          simp [tallies, haccount, hopen]
      · exact hquiet (quiet_joinChannel hc) (by simp [tallies, haccount, hc])
    | leaveChannel c' =>
      by_cases hc : c' = c
      · subst hc
        have hruns := leave_runs env c' (g := { s.gateway with sent := [] }) haccount
        obtain ⟨hredis, hsockets, hsent⟩ :=
          (hruns.mono (fun _ _ h => h) fun _ _ h => h.elim).final
        exact leave_happens haccount hredis hsockets hsent
      · exact hquiet (quiet_leaveChannel hc) (by simp [tallies, haccount, hc])
    | disconnection =>
      obtain ⟨hset, hsockets, es, hes, habout⟩ :=
        (end_runs env c (g := { s.gateway with sent := [] }) haccount hsets).final
      refine .ends rfl haccount hset (inRoom_remove hsockets) fun e he => ?_
      obtain ⟨e', he', rfl⟩ := mem_received he
      have hes : g'.sent = es := hes
      exact habout e' (hes ▸ he')
    | _ =>
      exact hquiet (quiet_handleEvent nofun nofun nofun) (by simp [tallies, haccount])

theorem step_happens (X : Externals) (i : Env × Input) (hsets : HoldsSets s.gateway.server.redis) :
    Happens w c s i (s.gateway.step X i).2
      (received w (emissions (s.gateway.step X i).1)) := by
  obtain ⟨env, input⟩ := i
  cases input with
  | request req =>
    have hset := keepsSet_request (isMembersKey_membersKey c) X s.gateway env req
    exact .quiet hset (fun hroom => hroom) nofun rfl
  | event client e => exact event_happens env client e hsets

/-! ### Steps and runs -/

theorem counts_quiet (h : ∀ e ∈ events, about c e = false) :
    countsOf c (listenAll events st) = countsOf c st := by
  induction events generalizing st with
  | nil => rfl
  | cons e events ih =>
    exact (ih fun e' he' => h e' (.tail _ he')).trans (counts_other (h e List.mem_cons_self))

theorem ready_quiet (h : ∀ e ∈ events, about c e = false) : events.any (isReady c) = false := by
  apply List.any_eq_false.mpr
  intro e he
  have habout := h e he
  cases e with
  | ready channel ms members => simpa [isReady, about] using habout
  | _ => exact Bool.false_ne_true

theorem length_withMember {ids : List String} :
    (withMember id ids).length = if id ∈ ids then ids.length else ids.length + 1 := by
  unfold withMember
  split_ifs
  · rfl
  · rw [List.length_append, List.length_singleton]

theorem nodup_withMember {ids : List String} (h : ids.Nodup) : (withMember id ids).Nodup := by
  unfold withMember
  split_ifs with hmem
  · exact h
  · exact h.append (List.nodup_singleton id) (by simpa using hmem)

theorem length_without {ids : List String} (h : ids.Nodup) :
    (ids.filter (· ≠ id)).length = if id ∈ ids then ids.length - 1 else ids.length := by
  have herase : ids.filter (· ≠ id) = ids.erase id := by
    rw [h.erase_eq_filter]
    exact List.filter_congr fun x _ => by simp [bne, beq_eq_decide]
  rw [herase, List.length_erase]

/-- What holds of a watch whether it tracks the set or not. -/
structure Sound (w c : String) (s : Watch) : Prop where
  sets : HoldsSets s.gateway.server.redis
  nodup : ∀ now, (membersAt now s.gateway.server.redis (membersKey c)).Nodup
  inside : s.ready = true → inRoom w c s.gateway = true

theorem Sound.next {f : List String → List String} (h : Sound w c s)
    (hset : ChangesSet (membersKey c) f s.gateway.server.redis g'.server.redis)
    (hf : ∀ ids, ids.Nodup → (f ids).Nodup) : Sound w c (s.next w c g' events) := by
  obtain ⟨hsets, hmembers⟩ := hset h.sets
  refine ⟨hsets, fun now => ?_, fun hready => (Bool.and_eq_true_iff.mp hready).2⟩
  show (membersAt now g'.server.redis (membersKey c)).Nodup
  rw [hmembers]
  exact hf _ (h.nodup now)

theorem happens_sound {i : Env × Input} (hhappens : Happens w c s i g' events)
    (h : Sound w c s) : Sound w c (s.next w c g' events) := by
  cases hhappens with
  | quiet hset => exact h.next hset fun _ hids => hids
  | joins hevent haccount hopen hset =>
    apply h.next hset
    intro ids hids
    split_ifs
    · exact hids
    · exact nodup_withMember hids
  | joinsUnnamed hevent htext hid haccount hopen hset =>
    apply h.next hset
    intro ids hids
    split_ifs
    · exact hids
    · exact nodup_withMember hids
  | leaves hevent haccount hset =>
    apply h.next hset
    intro ids hids
    split_ifs
    · exact hids
    · exact hids.filter _
  | ends hevent haccount hset =>
    apply h.next hset
    intro ids hids
    split_ifs
    · exact hids.filter _
    · exact hids

theorem tracks_iff (hsets : HoldsSets s.gateway.server.redis) (now : Date) :
    Tracks c s ↔ (s.ready = true → ∀ n ∈ countsOf c s.stores,
      n = (membersAt now s.gateway.server.redis (membersKey c)).length) := by
  constructor
  · exact fun h hready n hn => h hready n hn now
  · intro h hready n hn now'
    rw [h hready n hn, hsets.membersAt_eq (isMembersKey_membersKey c) now now']

theorem quiet_tracks (h : Sound w c s) (htracks : Tracks c s)
    (hset : KeepsSet (membersKey c) s.gateway.server.redis g'.server.redis)
    (habout : ∀ e ∈ events, about c e = false) : Tracks c (s.next w c g' events) := by
  intro hready n hn now
  have hwas : s.ready = true := by
    have hboth := (Bool.and_eq_true_iff.mp hready).1
    rwa [ready_quiet habout, Bool.or_false] at hboth
  rw [show countsOf c (s.next w c g' events).stores = _ from counts_quiet habout] at hn
  exact (htracks hwas n hn now).trans (congrArg _ (congrArg _ ((hset h.sets).2 now).symm))

/-- A client that is not in the room is not ready. -/
theorem outside_tracks (hroom : inRoom w c g' = false) : Tracks c (s.next w c g' events) := by
  intro hready
  have hin := (Bool.and_eq_true_iff.mp hready).2
  exact nomatch hroom.symm.trans hin

/-- All counts are set to `x`, and the set has `m` elements afterwards. -/
theorem forall_set {counts : List Int} {x m : Int} :
    (∀ n ∈ counts.map fun _ => x, n = m) ↔ counts = [] ∨ x = m := by
  cases counts with
  | nil => simp
  | cons n counts => simpa using fun h _ => h

theorem head_tracked {counts : List Int} {m d : Int} (h : ∀ n ∈ counts, n = m)
    (hcounts : counts ≠ []) : counts.head?.getD d = m := by
  cases counts with
  | nil => exact absurd rfl hcounts
  | cons n counts => exact h n List.mem_cons_self

/-- The client itself joins: its count becomes the length of the list that it gets. -/
theorem selfJoins_tracks {env : Env} {user : Profile} {ms : List MessageListing}
    (h : Sound w c s)
    (hset : ChangesSet (membersKey c)
      (fun ids => if env.redisFails 0 then ids else withMember user.id.toText ids)
      s.gateway.server.redis g'.server.redis)
    (hroom : inRoom w c g' = true)
    (hevents : events = [.memberJoined (.value c) user.summary,
      .ready (.value c) ms (if env.redisFails 1 then []
        else membersAt env.now g'.server.redis (membersKey c))]) :
    Tracks c (s.next w c g' events) ↔ ((countsOf c s.stores).isEmpty || !env.redisFails 1 ||
      env.redisFails 0 && (membersAt env.now s.gateway.server.redis (membersKey c)).isEmpty) =
        true := by
  obtain ⟨hsets, hmembers⟩ := hset h.sets
  have hready : (s.next w c g' events).ready = true := by
    simp [Watch.next, hevents, isReady, hroom]
  have hcounts : countsOf c (s.next w c g' events).stores =
      (countsOf c s.stores).map fun _ => ((if env.redisFails 1 then []
        else membersAt env.now g'.server.redis (membersKey c)).length : Int) := by
    have hlisten : (s.next w c g' events).stores = listenAll events s.stores := rfl
    rw [hlisten, hevents, listenAll, List.foldl_cons, List.foldl_cons, List.foldl_nil, counts_ready,
      counts_joined, List.map_map]
    rfl
  have hiff := tracks_iff (s := s.next w c g' events) (c := c) hsets env.now
  have hredis : (s.next w c g' events).gateway.server.redis = g'.server.redis := rfl
  rw [hiff, hready, hcounts, hredis]
  simp only [forall_const, forall_set, hmembers, Bool.or_eq_true, List.isEmpty_iff, or_assoc]
  apply or_congr_right
  generalize membersAt env.now s.gateway.server.redis (membersKey c) = ids
  cases hfails : env.redisFails 1 with
  | false => simp
  | true =>
    cases hadds : env.redisFails 0 with
    | true => cases ids <;> simp; omega
    | false =>
      have hpos := List.length_pos_of_mem (mem_withMember.mpr (.inr (Eq.refl user.id.toText)) :
        user.id.toText ∈ withMember user.id.toText ids)
      simp
      omega

theorem unless_tracked {P : Prop} {b ready : Bool} {counts : List Int}
    (h : ready = true → counts ≠ [] → (P ↔ b = true)) :
    (ready = true → counts ≠ [] → P) ↔ (!(ready && !counts.isEmpty) || b) = true := by
  cases ready with
  | false => simp
  | true =>
    cases counts with
    | nil => simp
    | cons n counts => simpa using h rfl (List.cons_ne_nil n counts)

/-- A step that does not make the client ready: each count is set to `x`. -/
theorem other_tracks {f : List String → List String} {x : Int} (h : Sound w c s) (now : Date)
    (hset : ChangesSet (membersKey c) f s.gateway.server.redis g'.server.redis)
    (hroom : s.ready = true → inRoom w c g' = true) (hready : events.any (isReady c) = false)
    (hcounts : s.ready = true →
      countsOf c (listenAll events s.stores) = (countsOf c s.stores).map fun _ => x) :
    Tracks c (s.next w c g' events) ↔ (s.ready = true → countsOf c s.stores ≠ [] →
      x = (f (membersAt now s.gateway.server.redis (membersKey c))).length) := by
  obtain ⟨hsets, hmembers⟩ := hset h.sets
  have hstays : (s.next w c g' events).ready = s.ready := by
    simp only [Watch.next, hready, Bool.or_false]
    cases hs : s.ready with
    | true => exact hroom hs
    | false => rfl
  have hstores : (s.next w c g' events).stores = listenAll events s.stores := rfl
  have hredis : (s.next w c g' events).gateway.server.redis = g'.server.redis := rfl
  have hiff := tracks_iff (s := s.next w c g' events) (c := c) hsets now
  rw [hiff, hstays, hstores, hredis]
  apply forall_congr'
  intro hwas
  rw [hcounts hwas, forall_set, hmembers, or_iff_not_imp_left]

/-- A step of which the client hears nothing: the count stays. -/
theorem unheard_tracks {f : List String → List String} (h : Sound w c s) (htracks : Tracks c s)
    (now : Date) (hset : ChangesSet (membersKey c) f s.gateway.server.redis g'.server.redis)
    (hroom : s.ready = true → inRoom w c g' = true) (habout : ∀ e ∈ events, about c e = false) :
    Tracks c (s.next w c g' events) ↔ (s.ready = true → countsOf c s.stores ≠ [] →
      ((membersAt now s.gateway.server.redis (membersKey c)).length : Int) =
        (f (membersAt now s.gateway.server.redis (membersKey c))).length) := by
  refine other_tracks h now hset hroom (ready_quiet habout) fun hwas => ?_
  rw [counts_quiet habout]
  conv_lhs => rw [← List.map_id (countsOf c s.stores)]
  exact List.map_congr_left fun n hn => htracks hwas n hn now

/-- A user joins without an id: the count stays. -/
theorem joinsUnnamed_tracks {env : Env} {user : Profile} (h : Sound w c s) (htracks : Tracks c s)
    (hset : ChangesSet (membersKey c)
      (fun ids => if env.redisFails 0 then ids else withMember user.id.toText ids)
      s.gateway.server.redis g'.server.redis)
    (hroom : inRoom w c s.gateway = true → inRoom w c g' = true)
    (habout : ∀ e ∈ events, about c e = false) :
    Tracks c (s.next w c g' events) ↔ (!(s.ready && !(countsOf c s.stores).isEmpty) ||
      user.id.toText ∈ membersAt env.now s.gateway.server.redis (membersKey c) ||
      env.redisFails 0) = true := by
  rw [unheard_tracks h htracks env.now hset (fun hwas => hroom (h.inside hwas)) habout]
  rw [Bool.or_assoc]
  apply unless_tracked
  intro hwas hsome
  generalize membersAt env.now s.gateway.server.redis (membersKey c) = ids
  cases hfails : env.redisFails 0 with
  | true => simp
  | false =>
    by_cases hmem : user.id.toText ∈ ids
    · simp [length_withMember, hmem]
    · simp [length_withMember, hmem]

/-- Another client joins: the count grows by one. -/
theorem joins_tracks {env : Env} {user : Profile} (h : Sound w c s) (htracks : Tracks c s)
    (hset : ChangesSet (membersKey c)
      (fun ids => if env.redisFails 0 then ids else withMember user.id.toText ids)
      s.gateway.server.redis g'.server.redis)
    (hroom : inRoom w c g' = inRoom w c s.gateway)
    (hevents : events = if inRoom w c g' then [.memberJoined (.value c) user.summary] else []) :
    Tracks c (s.next w c g' events) ↔ (!(s.ready && !(countsOf c s.stores).isEmpty) ||
      user.id.toText ∉ membersAt env.now s.gateway.server.redis (membersKey c) &&
        !env.redisFails 0) = true := by
  have hready : events.any (isReady c) = false := by
    rw [hevents]
    split_ifs <;> rfl
  have hcounts : s.ready = true → countsOf c (listenAll events s.stores) =
      (countsOf c s.stores).map fun _ => (countsOf c s.stores).head?.getD 0 + 1 := by
    intro hwas
    rw [hevents, if_pos (hroom.trans (h.inside hwas))]
    exact counts_joined (u := user.summary)
  rw [other_tracks h env.now hset (fun hwas => hroom.trans (h.inside hwas)) hready hcounts]
  apply unless_tracked
  intro hwas hsome
  rw [head_tracked (fun n hn => htracks hwas n hn env.now) hsome]
  generalize membersAt env.now s.gateway.server.redis (membersKey c) = ids
  cases hfails : env.redisFails 0 with
  | true => simp
  | false =>
    by_cases hmem : user.id.toText ∈ ids
    · simp [length_withMember, hmem]
    · simp [length_withMember, hmem]

/-- Another client leaves: the count goes down by one, but not below zero. -/
theorem leaves_tracks {env : Env} {user : Profile} (h : Sound w c s) (htracks : Tracks c s)
    (hset : ChangesSet (membersKey c)
      (fun ids => if env.redisFails 0 then ids else ids.filter (· ≠ user.id.toText))
      s.gateway.server.redis g'.server.redis)
    (hroom : inRoom w c g' = inRoom w c s.gateway)
    (hevents : events = if inRoom w c g' then [.memberLeft c user.id] else []) :
    Tracks c (s.next w c g' events) ↔ (!(s.ready && !(countsOf c s.stores).isEmpty) ||
      (membersAt env.now s.gateway.server.redis (membersKey c)).isEmpty ||
      user.id.toText ∈ membersAt env.now s.gateway.server.redis (membersKey c) &&
        !env.redisFails 0) = true := by
  have hready : events.any (isReady c) = false := by
    rw [hevents]
    split_ifs <;> rfl
  have hcounts : s.ready = true → countsOf c (listenAll events s.stores) =
      (countsOf c s.stores).map fun _ => max 0 ((countsOf c s.stores).head?.getD 1 - 1) := by
    intro hwas
    rw [hevents, if_pos (hroom.trans (h.inside hwas))]
    exact counts_left (u := user.id)
  rw [other_tracks h env.now hset (fun hwas => hroom.trans (h.inside hwas)) hready hcounts]
  rw [Bool.or_assoc]
  apply unless_tracked
  intro hwas hsome
  rw [head_tracked (fun n hn => htracks hwas n hn env.now) hsome]
  have hids := h.nodup env.now
  generalize membersAt env.now s.gateway.server.redis (membersKey c) = ids at hids ⊢
  have hempty : ids.isEmpty = true ↔ ids.length = 0 := by
    rw [List.isEmpty_iff, List.length_eq_zero_iff]
  cases hfails : env.redisFails 0 with
  | true =>
    simp only [if_true, Bool.not_true, Bool.and_false, Bool.or_false, hempty]
    omega
  | false =>
    simp only [Bool.false_eq_true, if_false, length_without hids, Bool.or_eq_true, hempty]
    by_cases hmem : user.id.toText ∈ ids
    · have hpos := List.length_pos_of_mem hmem
      simp only [hmem, if_true, decide_true, Bool.not_false, Bool.and_true, or_true, iff_true]
      omega
    · simp only [hmem, if_false, decide_false, Bool.false_and, Bool.false_eq_true, or_false]
      omega

/-- The connection of another client ends: the count stays. -/
theorem ends_tracks {env : Env} {user : Profile} (h : Sound w c s) (htracks : Tracks c s)
    (hset : ChangesSet (membersKey c)
      (fun ids => if removes env user (membersKey c) s.gateway
        then ids.filter (· ≠ user.id.toText) else ids)
      s.gateway.server.redis g'.server.redis)
    (hroom : inRoom w c g' = inRoom w c s.gateway) (habout : ∀ e ∈ events, about c e = false) :
    Tracks c (s.next w c g' events) ↔ (!(s.ready && !(countsOf c s.stores).isEmpty) ||
      user.id.toText ∉ membersAt env.now s.gateway.server.redis (membersKey c) ||
      !removes env user (membersKey c) s.gateway) = true := by
  rw [unheard_tracks h htracks env.now hset (fun hwas => hroom.trans (h.inside hwas)) habout]
  rw [Bool.or_assoc]
  apply unless_tracked
  intro hwas hsome
  have hids := h.nodup env.now
  generalize membersAt env.now s.gateway.server.redis (membersKey c) = ids at hids ⊢
  cases hremoves : removes env user (membersKey c) s.gateway with
  | false => simp
  | true =>
    simp only [if_true, length_without hids]
    by_cases hmem : user.id.toText ∈ ids
    · have hpos := List.length_pos_of_mem hmem
      simp [hmem]
      omega
    · simp [hmem]

/-- A step keeps the count if and only if it tallies. -/
theorem happens_tracks {i : Env × Input} (hhappens : Happens w c s i g' events) (h : Sound w c s)
    (htracks : Tracks c s) : Tracks c (s.next w c g' events) ↔ tallies w c s i = true := by
  obtain ⟨env, input⟩ := i
  cases hhappens with
  | quiet hset hroom habout htallies =>
    exact iff_of_true (quiet_tracks h htracks hset habout) htallies
  | @joins client user ms hevent haccount hopen hset hroom hevents =>
    obtain rfl : input = _ := hevent
    by_cases hself : client = w
    · subst hself
      have hin : inRoom client c g' = true := by simp [hroom]
      rw [selfJoins_tracks h hset hin (by simpa [hin] using hevents)]
      simp [tallies, haccount, hopen, BodyField.text]
    · have hsame : inRoom w c g' = inRoom w c s.gateway := by simp [hroom, hself]
      rw [joins_tracks h htracks hset hsame (by simpa [hself] using hevents)]
      simp [tallies, haccount, hopen, hself, BodyField.text]
  | @joinsUnnamed client user channel hevent htext hid haccount hopen hset hroom habout =>
    obtain rfl : input = _ := hevent
    rw [joinsUnnamed_tracks h htracks hset hroom habout]
    simp [tallies, haccount, hopen, htext, hid]
  | @leaves client user hevent haccount hset hroom hevents =>
    obtain rfl : input = _ := hevent
    by_cases hself : client = w
    · subst hself
      exact iff_of_true (outside_tracks (by simp [hroom])) (by simp [tallies, haccount])
    · have hsame : inRoom w c g' = inRoom w c s.gateway := by simp [hroom, hself]
      rw [leaves_tracks h htracks hset hsame hevents]
      simp [tallies, haccount, hself, or_assoc]
  | @ends client user hevent haccount hset hroom habout =>
    obtain rfl : input = _ := hevent
    by_cases hself : client = w
    · subst hself
      exact iff_of_true (outside_tracks (by simp [hroom])) (by simp [tallies, haccount])
    · have hsame : inRoom w c g' = inRoom w c s.gateway := by simp [hroom, hself]
      rw [ends_tracks h htracks hset hsame habout]
      simp [tallies, haccount, hself, or_assoc]

theorem step_sound {i : Env × Input} (h : Sound w c s) : Sound w c (s.step X w c i).2 :=
  happens_sound (step_happens X i h.sets) h

theorem step_tracks {i : Env × Input} (h : Sound w c s) (htracks : Tracks c s) :
    Tracks c (s.step X w c i).2 ↔ tallies w c s i = true :=
  happens_tracks (step_happens X i h.sets) h htracks

/-- The count in the store of a ready client is the size of the set throughout a run in which no
handlers overlap, if and only if each step changes both by as much. -/
theorem counts_track (X : Externals) (w c : String) (g : Gateway) (st : Stores)
    (is : List (Env × Input)) (hsets : ∀ e ∈ g.server.redis, isMembersKey e.1 = false) :
    Along (Watch.step X w c) (fun s i => Tracks c (s.step X w c i).2) ⟨g, st, false⟩ is ↔
      Along (Watch.step X w c) (fun s i => tallies w c s i = true) ⟨g, st, false⟩ is := by
  have hstart : Sound w c ⟨g, st, false⟩ ∧ Tracks c ⟨g, st, false⟩ := by
    refine ⟨⟨holdsSets_of_none hsets, fun now => ?_, nofun⟩, nofun⟩
    rw [membersAt_of_none hsets]
    exact List.nodup_nil
  have hevery : Along (Watch.step X w c) (fun _ _ => True) ⟨g, st, false⟩ is :=
    along_of_forall (fun _ _ => trivial) _ _
  apply hevery.congr_invariant (I := fun s => Sound w c s ∧ Tracks c s) _ _ hstart
  · exact fun s i ⟨hsound, htracks⟩ _ => step_tracks hsound htracks
  · exact fun s i ⟨hsound, _⟩ _ htracks => ⟨step_sound hsound, htracks⟩

/-- Alice and Bob are registered, and Alice has opened a channel, which her client shows. -/
def bothRegistered : Watch :=
  let requests : List (Env × Request) :=
    [(sampleEnv 1, ⟨none, .auth (.register ⟨"alice", "alice@mail", "secret"⟩)⟩),
      (sampleEnv 2, ⟨none, .auth (.register ⟨"bob", "bob@mail", "secret"⟩)⟩),
      (sampleEnv 3, ⟨some (sampleToken 1 "alice"),
        .channels (.create ⟨"general", .text, .absent, .absent, .absent, .absent⟩)⟩)]
  ⟨⟨run (serve sampleExternals) Server.empty requests, [], []⟩,
    ⟨⟨[⟨Task.generalChannel, 0⟩]⟩, fun _ => none⟩, false⟩

/-- Both connect, and then Alice and Bob join the channel. -/
def bothCome : List (Env × Input) :=
  [(sampleEnv 4, .event "alice" (.connection ⟨some (sampleToken 1 "alice"), none, none⟩)),
    (sampleEnv 5, .event "bob" (.connection ⟨some (sampleToken 2 "bob"), none, none⟩)),
    (sampleEnv 6, .event "alice" (.joinChannel (.value Task.generalChannel))),
    (sampleEnv 7, .event "bob" (.joinChannel (.value Task.generalChannel)))]

/-- Then Bob leaves, and the connection of Alice ends. -/
def bobLeaves : List (Env × Input) :=
  bothCome ++
    [(sampleEnv 8, .event "bob" (.leaveChannel Task.generalChannel)),
      (sampleEnv 9, .event "alice" .disconnection)]

theorem bobLeaves_counts :
    let step := Watch.step sampleExternals "alice" Task.generalChannel
    Along step (fun s i => Tracks Task.generalChannel (step s i).2) bothRegistered bobLeaves :=
  (counts_track sampleExternals "alice" Task.generalChannel bothRegistered.gateway
    bothRegistered.stores bobLeaves (by decide +kernel)).mpr (by decide +kernel)

/-- Bob, who is in the channel, joins it again. -/
def bobJoinsAgain : List (Env × Input) :=
  bothCome ++ [(sampleEnv 8, .event "bob" (.joinChannel (.value Task.generalChannel)))]

theorem bobJoinsAgain_miscounts :
    let step := Watch.step sampleExternals "alice" Task.generalChannel
    (∀ e ∈ bothRegistered.gateway.server.redis, isMembersKey e.1 = false) ∧
      Along step (fun s i => ((step s i).2.gateway.sockets.map (·.user)).Nodup) bothRegistered
        bobJoinsAgain ∧
      ¬Along step (fun s i => Tracks Task.generalChannel (step s i).2) bothRegistered
        bobJoinsAgain := by
  refine ⟨by decide +kernel, by decide +kernel, fun htracks => ?_⟩
  have hlast := (along_append.mp htracks).2.1 (by decide +kernel) 3 (by decide +kernel) 0
  exact absurd hlast (by decide +kernel)

end Client

end VoxLink
