import VoxLink.Client.Stores
import VoxLink.Realtime.Members

/-! Whether the channel that the client shows stays subscribed when its connection is lost and comes
again. Selecting a channel joins it once; each connection has a socket of its own on the server, and
the handlers there take turns. -/

namespace VoxLink

open ProofKit Prog

namespace Client

/-- The client with the backend. `connection` is the socket at the other end, `timers` are the
selections that wait for a connection. -/
structure Link where
  currentChannel : Option String
  timers : List String
  connection : Option String
  pool : Pool (Task × Phase) Gateway

inductive LinkInput where
  -- `selectChannel`, its `setTimeout`, and the choice of another guild
  | select (env : Env) (channelId : String)
  | timer (env : Env) (k : Nat)
  | deselect
  -- the connection of the client
  | connected (env : Env) (id : String) (handshake : Handshake)
  | lost (env : Env)
  -- the backend: another client, a request, the turn of a handler
  | other (t : Task)
  | request (env : Env) (req : Request)
  | turn (k : Nat)

namespace Link

variable (s : Link)

/-- An event of a socket comes to the server, where its handler is to run. -/
def send (t : Task) : Link := { s with pool := ⟨s.pool.jobs ++ [(t, .idle)], s.pool.state⟩ }

/-- `tryJoin` and the test before it. -/
def tryJoin (env : Env) (channelId : String) : Link :=
  match s.connection with
  | some id => s.send ⟨env, id, .joinChannel (.value channelId)⟩
  | none => { s with timers := s.timers ++ [channelId] }

def next (X : Externals) : LinkInput → Link
  | .select env channelId => { s with currentChannel := some channelId }.tryJoin env channelId
  | .timer env k =>
    match s.timers[k]? with
    | some channelId => { s with timers := s.timers.eraseIdx k }.tryJoin env channelId
    | none => s
  | .deselect => { s with currentChannel := none }
  | .connected env id handshake =>
    { s with connection := some id }.send ⟨env, id, .connection handshake⟩
  | .lost env =>
    match s.connection with
    | some id => { s with connection := none }.send ⟨env, id, .disconnection⟩
    | none => s
  | .other t => s.send t
  | .request env req =>
    { s with pool := { s.pool with state := (s.pool.state.step X (env, .request req)).2 } }
  | .turn k => { s with pool := (s.pool.turn Task.move k).2 }

def step (X : Externals) (s : Link) (i : LinkInput) : Unit × Link := ((), s.next X i)

/-- The handler of the socket is still to put it into the room of the channel. -/
def joins (id c : String) (l : Task × Phase) : Bool :=
  l.1.client = id && match l.2 with
    | .idle =>
      match l.1.event with
      | .joinChannel c' => c'.text = c
      | _ => false
    | .channel c' _ | .room c' _ => c'.text = c
    | _ => false

def handled : Phase → Bool
  | .finished => true
  | _ => false

/-- When nothing is under way any more for a client that is connected and authenticated, its socket
is in the room of its channel. -/
def Subscribed (s : Link) : Prop :=
  ∀ id c, s.connection = some id → s.currentChannel = some c →
    (WebsocketGateway.account id s.pool.state).isSome = true → s.timers = [] →
    (∀ l ∈ s.pool.jobs, l.1.client = id → handled l.2 = true) →
    inRoom id c s.pool.state = true

/-- Socket ids are new, and other clients have other sockets. -/
def fresh (s : Link) : LinkInput → Bool
  | .connected _ id _ =>
    (s.pool.jobs.all fun l => l.1.client ≠ id) && s.pool.state.sockets.all fun socket =>
      socket.id ≠ id
  | .other t => s.connection ≠ some t.client
  | _ => true

/-- A timer or a handler is still to join the channel. -/
def joinsLater (s : Link) (id c : String) : Bool := c ∈ s.timers || s.pool.jobs.any (joins id c)

/-- The handler with the turn does not leave the channel of the client unsubscribed: when it
attaches the account to the socket, a timer or another handler is still to join the channel, and
when it is to join the channel, it may. -/
def keepsUp (s : Link) : LinkInput → Bool
  | .turn k =>
    match s.pool.jobs[k]? with
    | some (t, .account sub) =>
      s.connection ≠ some t.client || (s.pool.state.server.db.userById sub).isNone ||
        s.currentChannel.all (s.joinsLater t.client)
    | some (t, .channel c user) =>
      s.connection ≠ some t.client || s.currentChannel ≠ some c.text ||
        (ChannelsService.findOneOf t.env c user).passes s.pool.state.server.db ||
          c.text ∈ s.timers || (s.pool.others k).any (joins t.client c.text) ||
          inRoom t.client c.text s.pool.state
    | _ => true
  | _ => true

end Link

/-! ### What a turn does to a socket -/

/-- The sockets with the id are the same. -/
def Elsewhere (id : String) (g g' : Gateway) : Prop :=
  g'.sockets.filter (·.id = id) = g.sockets.filter (·.id = id)

variable {id c : String} {g g' : Gateway} {t : Task} {phase : Phase}

instance : IsPreorder Gateway (Elsewhere id) where
  refl _ := rfl
  trans _ _ _ h h' := Eq.trans h' h

theorem account_eq_filter : WebsocketGateway.account id g =
    ((g.sockets.filter (·.id = id)).head?).bind (·.user) := by
  rw [WebsocketGateway.account, List.head?_filter]

theorem Elsewhere.account (h : Elsewhere id g g') :
    WebsocketGateway.account id g' = WebsocketGateway.account id g := by
  rw [account_eq_filter, h, account_eq_filter]

theorem Elsewhere.inRoom (h : Elsewhere id g g') : inRoom id c g' = inRoom id c g := by
  have hfilter : ∀ g, Client.inRoom id c g =
      (g.sockets.filter (·.id = id)).any (·.rooms.contains (channelRoom c)) := by
    intro g
    rw [Client.inRoom, List.any_filter]
  rw [hfilter, h, hfilter]

theorem elsewhere_emit {p : Socket → Bool} {event : GatewayEvent} :
    Keeps (Elsewhere id) (emitTo p event) := .write fun _ => rfl

theorem elsewhere_server {α : Type} {m : Backend α} : Keeps (Elsewhere id) (onServer m) :=
  fun _ => wp_within.mpr (wp.of_forall (fun _ _ => rfl) fun _ _ => rfl)

theorem elsewhere_update {client : String} {f : Socket → Socket} (h : client ≠ id)
    (hf : ∀ s, (f s).id = s.id) : Keeps (Elsewhere id) (updateSocket client f) := by
  refine .write fun g => Rows.filter_modify_disjoint fun s _ hs => ?_
  have hid : s.id = client := of_decide_eq_true hs
  constructor
  · exact decide_eq_false (hid ▸ h)
  · exact decide_eq_false (by rw [hf, hid]; exact h)

theorem elsewhere_disconnect {client : String} (h : client ≠ id) :
    Keeps (Elsewhere id) (disconnect client) := by
  refine .write fun g => Rows.filter_remove_disjoint fun s _ hs => ?_
  exact decide_eq_false (of_decide_eq_true hs ▸ h)

theorem elsewhere_open {client : String} (h : client ≠ id) : Keeps (Elsewhere id)
    (write fun g => { g with sockets := g.sockets ++ [⟨client, none, []⟩] } : Handler Unit) := by
  refine .write fun g => Rows.filter_append_of_not fun s hs => ?_
  rw [List.mem_singleton.mp hs]
  exact decide_eq_false h

/-- Turns that change no socket. -/
def still : Phase → Bool
  | .idle | .account _ | .onlineAgain _ | .ownRoom _ | .room _ _ => false
  | _ => true

theorem start_elsewhere (h : t.client ≠ id) : Keeps (Elsewhere id) t.start := by
  have hasUser : ∀ k : Profile → Handler Phase, (∀ user, Keeps (Elsewhere id) (k user)) →
      Keeps (Elsewhere id) (t.asUser k) := by
    intro k hk
    apply Keeps.bind (.query _)
    intro user
    cases user with
    | some user => exact hk user
    | none => exact .pure _
  have hpasses : ∀ k : Profile → Handler Unit, (∀ user, Keeps (Elsewhere id) (k user)) →
      Keeps (Elsewhere id) (do
        WebsocketGateway.asUser t.client k
        pure Phase.finished) := by
    intro k hk
    refine .bind (.bind (.query _) fun user => ?_) fun _ => .pure _
    cases user with
    | some user => exact hk user
    | none => exact .pure _
  have hleave : ∀ room, Keeps (Elsewhere id) (leave t.client room) := fun _ =>
    elsewhere_update h fun _ => rfl
  have hjoin : ∀ room, Keeps (Elsewhere id) (join t.client room) := fun _ =>
    elsewhere_update h fun _ => rfl
  obtain ⟨env, client, event⟩ := t
  cases event with
  | connection handshake =>
    refine .bind (elsewhere_open h) fun _ => .bind (.query _) fun valid => ?_
    cases valid with
    | some token => exact .pure _
    | none => exact .bind (elsewhere_disconnect h) fun _ => .pure _
  | disconnection =>
    refine .bind (.query _) fun connected => .bind (.query _) fun user => ?_
    refine .bind (elsewhere_disconnect h) fun _ => ?_
    cases user with
    | some user => exact .pure _
    | none => exact .pure _
  | joinChannel c => exact hasUser _ fun _ => .pure _
  | leaveChannel c => exact hasUser _ fun _ => .bind (hleave _) fun _ => .pure _
  | sendMessage data => exact hasUser _ fun _ => .pure _
  | guildJoin g => exact hpasses _ fun _ => hjoin _
  | guildLeave g => exact hpasses _ fun _ => hleave _
  | _ => exact hpasses _ fun _ => elsewhere_emit

theorem turn_elsewhere (h : t.client = id → still phase = true) :
    Keeps (Elsewhere id) (t.turn phase) := by
  have hfail : ∀ e, Keeps (Elsewhere id) (t.fail e) := fun _ =>
    .bind elsewhere_emit fun _ => .pure _
  have hmoving : still phase = false → t.client ≠ id := fun hstill hid =>
    nomatch hstill.symm.trans (h hid)
  cases phase with
  | idle => exact start_elsewhere (hmoving rfl)
  | account sub =>
    refine .recover (.bind elsewhere_server fun user => ?_) fun _ => ?_
    · exact .bind (elsewhere_update (hmoving rfl) fun _ => rfl) fun _ => .pure _
    · exact .bind (elsewhere_disconnect (hmoving rfl)) fun _ => .pure _
  | online user => exact .bind elsewhere_server fun _ => .pure _
  | onlineAgain user =>
    refine .recover (.bind elsewhere_server fun _ => .pure _) fun _ => ?_
    exact .bind (elsewhere_disconnect (hmoving rfl)) fun _ => .pure _
  | ownRoom user => exact .bind (elsewhere_update (hmoving rfl) fun _ => rfl) fun _ => .pure _
  | welcome user => exact .bind elsewhere_emit fun _ => .pure _
  | offline user => exact .bind elsewhere_server fun _ => .pure _
  | offlineAgain user =>
    exact .bind elsewhere_server fun _ => .bind elsewhere_emit fun _ => .pure _
  | memberKeys user => exact .bind elsewhere_server fun _ => .pure _
  | forget user site keys =>
    cases keys with
    | nil => exact .pure _
    | cons key keys => exact .bind elsewhere_server fun _ => .pure _
  | channel c user => exact .recover (.bind elsewhere_server fun _ => .pure _) hfail
  | room c user => exact .bind (elsewhere_update (hmoving rfl) fun _ => rfl) fun _ => .pure _
  | addMember c user => exact .bind elsewhere_server fun _ => .pure _
  | members c user => exact .bind elsewhere_server fun _ => .pure _
  | messages c user members => exact .recover (.bind elsewhere_server fun _ => .pure _) hfail
  | ready c user members messages =>
    exact .bind elsewhere_emit fun _ => .bind elsewhere_emit fun _ => .pure _
  | dropMember c user => exact .bind elsewhere_server fun _ => .bind elsewhere_emit fun _ => .pure _
  | save data user => exact .recover (.bind elsewhere_server fun _ => .pure _) hfail
  | saved c user m => exact .bind elsewhere_emit fun _ => .pure _
  | finished => exact .pure _

/-! ### The turns of the handlers of the client -/

/-- After the turn the socket has an account only if it had one, it is in the rooms in which it was,
and a channel that the handler was to join it has joined or is still to join. -/
def Goes (t : Task) (phase : Phase) (g : Gateway) (phase' : Phase) (g' : Gateway) : Prop :=
  (WebsocketGateway.account t.client g').isSome = true →
    (WebsocketGateway.account t.client g).isSome = true ∧ ∀ c,
      (inRoom t.client c g = true → inRoom t.client c g' = true) ∧
        (Link.joins t.client c (t, phase) = true →
          Link.joins t.client c (t, phase') = true ∨ inRoom t.client c g' = true)

theorem Elsewhere.goes {phase' : Phase} (h : Elsewhere t.client g g')
    (hjoins : ∀ c, Link.joins t.client c (t, phase) = true →
      Link.joins t.client c (t, phase') = true) : Goes t phase g phase' g' := by
  intro haccount
  rw [h.account] at haccount
  refine ⟨haccount, fun c => ⟨fun hin => h.inRoom.trans hin, fun hjoin => .inl (hjoins c hjoin)⟩⟩

/-- A socket that is gone has no account. -/
theorem account_removed {client : String} {ss : List Socket}
    (h : g'.sockets = Rows.remove (·.id = client) ss) :
    WebsocketGateway.account client g' = none := by
  have hnone : g'.sockets.find? (·.id = client) = none := by
    rw [h, List.find?_eq_none]
    intro s hs
    simpa using (Rows.mem_remove.mp hs).2
  rw [WebsocketGateway.account, hnone]
  rfl

theorem goes_guest {phase' : Phase} (h : WebsocketGateway.account t.client g' = none) :
    Goes t phase g phase' g' := by
  intro haccount
  rw [h] at haccount
  exact nomatch haccount

/-- The socket enters a room. -/
theorem account_enter {client room : String}
    (h : g'.sockets = Rows.modify (·.id = client) (Socket.enter room) g.sockets) :
    WebsocketGateway.account client g' = WebsocketGateway.account client g := by
  have hfind : (Rows.modify (·.id = client) (Socket.enter room) g.sockets).find? (·.id = client) =
      (g.sockets.find? (·.id = client)).map fun s => if decide (s.id = client) then s.enter room
        else s := Rows.find?_modify_map fun _ => rfl
  rw [WebsocketGateway.account, h, hfind, WebsocketGateway.account]
  cases g.sockets.find? (·.id = client) with
  | none => rfl
  | some s =>
    show (if _ then s.enter room else s).user = s.user
    split_ifs <;> rfl

theorem inRoom_entered {client room : String}
    (h : g'.sockets = Rows.modify (·.id = client) (Socket.enter room) g.sockets)
    (hin : inRoom client c g = true) : inRoom client c g' = true := by
  obtain ⟨s, hs, hid, hroom⟩ := inRoom_mem.mp hin
  rw [inRoom_mem, h]
  refine ⟨_, Rows.mem_modify.mpr ⟨s, hs, rfl⟩, ?_⟩
  rw [if_pos (decide_eq_true hid)]
  exact ⟨hid, mem_enter.mpr (.inr hroom)⟩

theorem inRoom_new {client : String}
    (h : g'.sockets = Rows.modify (·.id = client) (Socket.enter (channelRoom c)) g.sockets)
    (haccount : (WebsocketGateway.account client g).isSome = true) :
    inRoom client c g' = true := by
  obtain ⟨user, huser⟩ := Option.isSome_iff_exists.mp haccount
  obtain ⟨s, hs, hid, -⟩ := Task.account_mem huser
  rw [inRoom_mem, h]
  refine ⟨_, Rows.mem_modify.mpr ⟨s, hs, rfl⟩, ?_⟩
  rw [if_pos (decide_eq_true hid)]
  exact ⟨hid, mem_enter.mpr (.inl rfl)⟩

/-- A new socket has no account. -/
theorem open_goes {phase' : Phase} {handshake : Handshake}
    (hevent : t.event = .connection handshake)
    (h : g'.sockets = g.sockets ++ [⟨t.client, none, []⟩]) : Goes t .idle g phase' g' := by
  have haccount : WebsocketGateway.account t.client g' = WebsocketGateway.account t.client g := by
    rw [WebsocketGateway.account, h, List.find?_append, WebsocketGateway.account]
    cases g.sockets.find? (·.id = t.client) with
    | none => simp
    | some s => rfl
  intro hsome
  rw [haccount] at hsome
  refine ⟨hsome, fun c => ⟨fun hin => ?_, fun hjoin => ?_⟩⟩
  · obtain ⟨s, hs, hid, hroom⟩ := inRoom_mem.mp hin
    rw [inRoom_mem, h]
    exact ⟨s, List.mem_append_left _ hs, hid, hroom⟩
  · simp [Link.joins, hevent] at hjoin

theorem start_goes (hevent : (∃ h, t.event = .connection h) ∨ ∃ c, t.event = .joinChannel c) :
    wp t.start (fun phase' g' => Goes t .idle g phase' g')
      (fun _ g' => Goes t .idle g .finished g') g := by
  rcases hevent with ⟨handshake, hevent⟩ | ⟨c, hevent⟩
  · simp only [Task.start, hevent, wp_bind, wp_write, wp_query]
    cases handshake.token.filter (AuthService.verify t.env g.server) with
    | some token => exact open_goes hevent rfl
    | none => exact goes_guest (account_removed rfl)
  · simp only [Task.start, hevent, Task.asUser, wp_bind, wp_query]
    cases haccount : WebsocketGateway.account t.client g with
    | none => exact goes_guest haccount
    | some user =>
      refine Elsewhere.goes rfl fun c' hjoin => ?_
      simpa [Link.joins, hevent] using hjoin

/-- The account of the token is gone. -/
theorem refused_goes {sub : Uuid} (hgone : (g.server.db.userById sub).isNone = true) :
    wp (t.turn (.account sub)) (fun phase' g' => Goes t (.account sub) g phase' g')
      (fun _ g' => Goes t (.account sub) g .finished g') g := by
  simp only [Task.turn, wp_recover, wp_bind]
  apply Task.profile_reads.mono
  · rintro _ _ ⟨-, -, hmem⟩
    obtain ⟨u, hu, hid⟩ := List.mem_map.mp hmem
    have hnone := List.find?_eq_none.mp (Option.isNone_iff_eq_none.mp hgone) u hu
    exact absurd (decide_eq_true hid) hnone
  · rintro _ _ ⟨rfl, -⟩
    exact goes_guest (account_removed rfl)

/-- A turn of a handler of the client that does not attach an account, and is not refused the
channel. -/
theorem turn_goes (hevent : (∃ h, t.event = .connection h) ∨ ∃ c, t.event = .joinChannel c)
    (haccount : ∀ sub, phase ≠ .account sub)
    (hopen : ∀ c user, phase = .channel c user →
      (ChannelsService.findOneOf t.env c user).passes g.server.db = true) :
    wp (t.turn phase) (fun phase' g' => Goes t phase g phase' g')
      (fun _ g' => Goes t phase g .finished g') g := by
  have hstill : still phase = true → (∀ c user, phase ≠ .channel c user) →
      wp (t.turn phase) (fun phase' g' => Goes t phase g phase' g')
        (fun _ g' => Goes t phase g .finished g') g := by
    intro hstill hother
    have hjoins : ∀ c, Link.joins t.client c (t, phase) = false := by
      intro c
      cases phase with
      | idle | room => exact nomatch hstill
      | channel c user => exact absurd rfl (hother c user)
      | _ => simp [Link.joins]
    have hkeeps : Keeps (Elsewhere t.client) (t.turn phase) := turn_elsewhere fun _ => hstill
    refine (hkeeps g).mono (fun _ g' h => ?_) fun _ g' h => ?_
    · exact h.goes fun c hjoin => nomatch (hjoins c).symm.trans hjoin
    · exact h.goes fun c hjoin => nomatch (hjoins c).symm.trans hjoin
  cases phase with
  | idle => exact start_goes hevent
  | account sub => exact absurd rfl (haccount sub)
  | onlineAgain user =>
    simp only [Task.turn, wp_recover, wp_bind]
    apply Task.profile_reads.mono
    · rintro _ _ ⟨rfl, -⟩
      exact Elsewhere.goes rfl fun c hjoin => by simp [Link.joins] at hjoin
    · rintro _ _ ⟨rfl, -⟩
      exact goes_guest (account_removed rfl)
  | ownRoom user =>
    intro hsome
    rw [account_enter rfl] at hsome
    refine ⟨hsome, fun c => ⟨inRoom_entered rfl, fun hjoin => by simp [Link.joins] at hjoin⟩⟩
  | room c user =>
    intro hsome
    rw [account_enter rfl] at hsome
    refine ⟨hsome, fun c' => ⟨inRoom_entered rfl, fun hjoin => ?_⟩⟩
    obtain rfl : c.text = c' := by simpa [Link.joins] using hjoin
    exact .inr (inRoom_new rfl hsome)
  | channel c user =>
    refine wp_recover.mpr (((channelFound_returns (hopen c user rfl)).mono (fun _ _ h => h)
      fun _ _ h => h.elim).seq ?_)
    rintro _ _ rfl
    exact Elsewhere.goes rfl fun c' hjoin => by simpa [Link.joins] using hjoin
  | _ =>
    refine hstill rfl ?_
    intro c user heq
    cases heq

/-! ### Runs -/

namespace Link

variable {X : Externals} {s : Link} {k : Nat}

/-- The events of the socket are its connection and joins, and when it has an account and the client
shows a channel, it is in its room or something is still to put it there. -/
structure Covered (id : String) (s : Link) : Prop where
  events : ∀ l ∈ s.pool.jobs, l.1.client = id →
    (∃ h, l.1.event = .connection h) ∨ ∃ c, l.1.event = .joinChannel c
  joined : ∀ c, s.currentChannel = some c →
    (WebsocketGateway.account id s.pool.state).isSome = true →
    s.joinsLater id c = true ∨ inRoom id c s.pool.state = true

theorem move_task (l : Task × Phase) (g : Gateway) : (Task.move l g).1.1 = l.1 := by
  unfold Task.move
  split <;> rfl

/-- What the turn has to leave to be done. -/
theorem Covered.next (h : Covered id s) {phase phase' : Phase}
    (hk : s.pool.jobs[k]? = some (t, phase))
    (hjoined : ∀ c, s.currentChannel = some c →
      (WebsocketGateway.account id g').isSome = true →
      inRoom id c g' = true ∨ c ∈ s.timers ∨ joins id c (t, phase') = true ∨
        (s.pool.others k).any (joins id c) = true) :
    Covered id { s with pool := ⟨s.pool.jobs.set k (t, phase'), g'⟩ } := by
  constructor
  · intro l hl hclient
    rcases List.mem_or_eq_of_mem_set hl with hold | rfl
    · exact h.events l hold hclient
    · exact h.events (t, phase) (List.mem_of_getElem? hk) hclient
  · intro c hc haccount
    simp only [joinsLater, set_any _ _ hk, Bool.or_eq_true, decide_eq_true_eq]
    rcases hjoined c hc haccount with hin | hlater
    · exact .inr hin
    · exact .inl hlater

/-- The joins to come before a turn. -/
theorem Covered.before (h : Covered id s) (hk : s.pool.jobs[k]? = some (t, phase))
    (hc : s.currentChannel = some c)
    (haccount : (WebsocketGateway.account id s.pool.state).isSome = true) :
    inRoom id c s.pool.state = true ∨ c ∈ s.timers ∨ joins id c (t, phase) = true ∨
      (s.pool.others k).any (joins id c) = true := by
  have hjoined := h.joined c hc haccount
  simp only [joinsLater, jobs_any _ hk, Bool.or_eq_true, decide_eq_true_eq] at hjoined
  rcases hjoined with hlater | hin
  · exact .inr hlater
  · exact .inl hin

/-- A turn that changes nothing for the socket, and is not the turn of one of its joins. -/
theorem Covered.elsewhere (h : Covered id s) {phase' : Phase}
    (hk : s.pool.jobs[k]? = some (t, phase)) (helse : Elsewhere id s.pool.state g')
    (hjoins : ∀ c, s.currentChannel = some c → joins id c (t, phase) = true →
      c ∈ s.timers ∨ joins id c (t, phase') = true ∨ (s.pool.others k).any (joins id c) = true ∨
        inRoom id c s.pool.state = true) :
    Covered id { s with pool := ⟨s.pool.jobs.set k (t, phase'), g'⟩ } := by
  apply h.next hk
  intro c hc haccount
  rw [helse.account] at haccount
  rw [helse.inRoom]
  rcases h.before hk hc haccount with hin | htimer | hjoin | hothers
  · exact .inl hin
  · exact .inr (.inl htimer)
  · rcases hjoins c hc hjoin with htimer | hjoin' | hothers | hin
    · exact .inr (.inl htimer)
    · exact .inr (.inr (.inl hjoin'))
    · exact .inr (.inr (.inr hothers))
    · exact .inl hin
  · exact .inr (.inr (.inr hothers))

theorem Covered.goes (h : Covered t.client s) {phase' : Phase}
    (hk : s.pool.jobs[k]? = some (t, phase)) (hgoes : Goes t phase s.pool.state phase' g') :
    Covered t.client { s with pool := ⟨s.pool.jobs.set k (t, phase'), g'⟩ } := by
  apply h.next hk
  intro c hc haccount
  obtain ⟨hwas, hrooms⟩ := hgoes haccount
  rcases h.before hk hc hwas with hin | htimer | hjoin | hothers
  · exact .inl ((hrooms c).1 hin)
  · exact .inr (.inl htimer)
  · rcases (hrooms c).2 hjoin with hjoin' | hin
    · exact .inr (.inr (.inl hjoin'))
    · exact .inl hin
  · exact .inr (.inr (.inr hothers))

/-- The turn that attaches the account. -/
theorem Covered.attaches (h : Covered t.client s) {sub : Uuid} {phase' : Phase}
    (hk : s.pool.jobs[k]? = some (t, .account sub))
    (hlater : ∀ c, s.currentChannel = some c → s.joinsLater t.client c = true) :
    Covered t.client { s with pool := ⟨s.pool.jobs.set k (t, phase'), g'⟩ } := by
  apply h.next hk
  intro c hc _
  have hlater := hlater c hc
  simp only [joinsLater, jobs_any _ hk, Bool.or_eq_true, decide_eq_true_eq] at hlater
  rcases hlater with htimer | hself | hothers
  · exact .inr (.inl htimer)
  · simp [joins] at hself
  · exact .inr (.inr (.inr hothers))

theorem Covered.turn (hconnection : s.connection = some id) (h : Covered id s)
    (hkeeps : s.keepsUp (.turn k) = true) : Covered id (s.next X (.turn k)) := by
  show Covered id { s with pool := (s.pool.turn Task.move k).2 }
  cases hk : s.pool.jobs[k]? with
  | none =>
    rw [turn_none hk]
    exact h
  | some l =>
    obtain ⟨t, phase⟩ := l
    rw [turn_some hk]
    have hmove : Task.move (t, phase) s.pool.state =
        ((t, (Task.move (t, phase) s.pool.state).1.2), (Task.move (t, phase) s.pool.state).2) :=
      Prod.ext (Prod.ext (move_task _ _) rfl) rfl
    rw [hmove]
    have hother : (t.client = id → still phase = true) →
        Elsewhere id s.pool.state (Task.move (t, phase) s.pool.state).2 := fun hstill =>
      Task.move_of_wp (C := fun _ g' => Elsewhere id s.pool.state g') (turn_elsewhere hstill _)
    by_cases hclient : t.client = id
    · subst hclient
      have hevent := h.events _ (List.mem_of_getElem? hk) rfl
      simp only [keepsUp, hk] at hkeeps
      cases phase with
      | account sub =>
        cases hgone : (s.pool.state.server.db.userById sub).isNone with
        | true => exact h.goes hk (Task.move_of_wp (refused_goes hgone))
        | false =>
          apply h.attaches hk
          intro c hc
          simpa [hconnection, hgone, hc] using hkeeps
      | channel c user =>
        cases hopen : (ChannelsService.findOneOf t.env c user).passes s.pool.state.server.db with
        | true =>
          refine h.goes hk (Task.move_of_wp (turn_goes hevent nofun fun c' user' heq => ?_))
          obtain ⟨rfl, rfl⟩ := Phase.channel.inj heq
          exact hopen
        | false =>
          refine h.elsewhere hk (hother fun _ => rfl) fun c' hc hjoin => ?_
          obtain rfl : c.text = c' := by simpa [joins] using hjoin
          simp only [hconnection, hc, hopen, ne_eq, not_true, decide_false, Bool.false_or,
            Bool.or_eq_true, decide_eq_true_eq, or_assoc] at hkeeps
          rcases hkeeps with htimer | hothers | hin
          · exact .inl htimer
          · exact .inr (.inr (.inl hothers))
          · exact .inr (.inr (.inr hin))
      | _ =>
        refine h.goes hk (Task.move_of_wp (turn_goes hevent ?_ ?_))
        · intro sub heq
          cases heq
        · intro c user heq
          cases heq
    · refine h.elsewhere hk (hother fun heq => absurd heq hclient) fun c _ hjoin => ?_
      simp [joins, hclient] at hjoin

/-- An event of another socket, or a join. -/
theorem Covered.send (h : Covered id s)
    (ht : t.client = id → ∃ c, t.event = .joinChannel c) : Covered id (s.send t) := by
  constructor
  · intro l hl hclient
    rcases List.mem_append.mp hl with hold | hnew
    · exact h.events l hold hclient
    · rw [List.mem_singleton.mp hnew] at hclient ⊢
      exact .inr (ht hclient)
  · intro c hc haccount
    refine (h.joined c hc haccount).imp_left fun hlater => ?_
    simp only [joinsLater, Link.send, List.any_append, Bool.or_eq_true] at hlater ⊢
    rcases hlater with htimer | hjob
    · exact .inl htimer
    · exact .inr (.inl hjob)

@[simp] theorem tryJoin_connection {env : Env} : (s.tryJoin env c).connection = s.connection := by
  unfold tryJoin
  split
  · rfl
  · rfl

theorem select_covered {env : Env} (hconnection : s.connection = some id) (h : Covered id s) :
    Covered id (s.next X (.select env c)) := by
  have hevents := (h.send (t := ⟨env, id, .joinChannel (.value c)⟩) fun _ => ⟨_, rfl⟩).events
  have hnext : s.next X (.select env c) =
      { s with currentChannel := some c }.send ⟨env, id, .joinChannel (.value c)⟩ := by
    simp only [next, tryJoin, hconnection]
  rw [hnext]
  refine ⟨hevents, fun c' hc _ => .inl ?_⟩
  obtain rfl : c = c' := Option.some.inj hc
  simp [joinsLater, Link.send, joins, BodyField.text]

theorem timer_covered {env : Env} (hconnection : s.connection = some id) (h : Covered id s) :
    Covered id (s.next X (.timer env k)) := by
  cases hk : s.timers[k]? with
  | none => simpa only [next, hk] using h
  | some c =>
    have hnext : s.next X (.timer env k) =
        { s with timers := s.timers.eraseIdx k }.send ⟨env, id, .joinChannel (.value c)⟩ := by
      simp only [next, hk, tryJoin, hconnection]
    rw [hnext]
    have hsend := h.send (t := ⟨env, id, .joinChannel (.value c)⟩) fun _ => ⟨_, rfl⟩
    refine ⟨hsend.events, fun c' hc haccount => ?_⟩
    refine (h.joined c' hc haccount).imp_left fun hlater => ?_
    simp only [joinsLater, Link.send, List.any_append, Bool.or_eq_true,
      decide_eq_true_eq] at hlater ⊢
    rcases hlater with htimer | hjob
    · -- the timer that fires has joined its channel
      obtain ⟨hlt, rfl⟩ := List.getElem?_eq_some_iff.mp hk
      rcases List.mem_cons.mp ((List.getElem_cons_eraseIdx_perm hlt).mem_iff.mpr htimer) with
        rfl | hrest
      · exact .inr (.inr (by simp [joins, BodyField.text]))
      · exact .inl (decide_eq_true hrest)
    · exact .inr (.inl hjob)

theorem connected_covered {env : Env} {handshake : Handshake}
    (hfresh : s.fresh (.connected env id handshake) = true) :
    Covered id (s.next X (.connected env id handshake)) := by
  simp only [fresh, Bool.and_eq_true, List.all_eq_true, decide_eq_true_eq] at hfresh
  constructor
  · intro l hl hclient
    rcases List.mem_append.mp hl with hold | hnew
    · exact absurd hclient (hfresh.1 l hold)
    · rw [List.mem_singleton.mp hnew]
      exact .inl ⟨handshake, rfl⟩
  · intro c _ haccount
    obtain ⟨user, huser⟩ := Option.isSome_iff_exists.mp haccount
    obtain ⟨socket, hsocket, hid, -⟩ := Task.account_mem huser
    exact absurd hid (hfresh.2 socket hsocket)

theorem request_covered {env : Env} {req : Request} (h : Covered id s) :
    Covered id (s.next X (.request env req)) :=
  ⟨h.events, h.joined⟩

theorem next_covered {i : LinkInput} (h : ∀ id, s.connection = some id → Covered id s)
    (hfresh : s.fresh i = true) (hkeeps : s.keepsUp i = true) :
    ∀ id, (s.next X i).connection = some id → Covered id (s.next X i) := by
  intro id hid
  cases i with
  | select env c =>
    have hsame : s.connection = some id := by simpa [next] using hid
    exact select_covered hsame (h id hsame)
  | timer env k =>
    have hsame : s.connection = some id := by
      rw [← hid, next]
      split
      · rw [tryJoin_connection]
      · rfl
    exact timer_covered hsame (h id hsame)
  | deselect => exact ⟨(h id hid).events, nofun⟩
  | connected env id' handshake =>
    obtain rfl : id' = id := Option.some.inj hid
    exact connected_covered hfresh
  | lost env =>
    have hnone : (s.next X (.lost env)).connection = none := by
      rw [next]
      split
      · rfl
      · assumption
    exact nomatch hnone.symm.trans hid
  | other t =>
    refine (h id hid).send fun hclient => ?_
    have hother : s.connection ≠ some t.client := of_decide_eq_true hfresh
    exact absurd (hclient ▸ hid) hother
  | request env req => exact request_covered (h id hid)
  | turn k => exact (h id hid).turn hid hkeeps

/-- The channel that the client shows is subscribed in every state of a run in which the account is
attached to a socket only while the channel is still to be joined, and no join is refused. -/
theorem channel_stays_subscribed (X : Externals) (s : Link) (is : List LinkInput)
    (hstart : s.connection = none)
    (hfresh : Along (step X) (fun s i => s.fresh i = true) s is)
    (hkeeps : Along (step X) (fun s i => s.keepsUp i = true) s is) :
    Subscribed (run (step X) s is) := by
  have hend := (along_and.mpr ⟨hfresh, hkeeps⟩).invariant
    (I := fun s => ∀ id, s.connection = some id → Covered id s)
    (fun s i h ⟨hf, hk⟩ => next_covered h hf hk) fun id hid => nomatch hstart.symm.trans hid
  intro id c hid hc haccount htimers hdone
  rcases (hend id hid).joined c hc haccount with hlater | hin
  · simp only [joinsLater, htimers, List.not_mem_nil, decide_false, Bool.false_or,
      List.any_eq_true] at hlater
    obtain ⟨l, hl, hjoin⟩ := hlater
    simp only [joins, Bool.and_eq_true, decide_eq_true_eq] at hjoin
    have hhandled := hdone l hl hjoin.1
    obtain ⟨t, phase⟩ := l
    cases phase with
    | finished => exact nomatch hjoin.2
    | _ => exact nomatch hhandled
  · exact hin

/-- The client of Alice before it connects, with the backend on which she has opened a channel. -/
def offline : Link := ⟨none, [], none, ⟨[], ⟨Task.channelOpened, [], []⟩⟩⟩

def aliceToken : Handshake := ⟨some (sampleToken 1 "alice"), none, none⟩

/-- The handler of job `k` runs to its end. -/
def wholly (k : Nat) : List LinkInput := List.replicate 7 (.turn k)

/-- Alice connects, selects her channel and is in its room. -/
def selects : List LinkInput :=
  [.connected (sampleEnv 4) "first" aliceToken] ++ wholly 0 ++
    [.select (sampleEnv 5) Task.generalChannel] ++ wholly 1

/-- She loses the connection, selects the channel again while she has none, and its timer fires when
she is back. -/
def selectsOffline : List LinkInput :=
  selects ++ [.lost (sampleEnv 6)] ++ wholly 2 ++ [.select (sampleEnv 7) Task.generalChannel] ++
    [.connected (sampleEnv 8) "second" aliceToken] ++ wholly 3 ++
    [.timer (sampleEnv 9) 0] ++ wholly 4

theorem selectsOffline_subscribed :
    Subscribed (run (step sampleExternals) offline selectsOffline) :=
  channel_stays_subscribed sampleExternals offline selectsOffline rfl (by decide +kernel)
    (by decide +kernel)

/-- She loses the connection and is back. -/
def comesBack : List LinkInput :=
  selects ++ [.lost (sampleEnv 6)] ++ wholly 2 ++
    [.connected (sampleEnv 7) "second" aliceToken] ++ wholly 3

theorem comesBack_unsubscribed :
    offline.connection = none ∧
      Along (step sampleExternals) (fun s i => s.fresh i = true) offline comesBack ∧
      inRoom "first" Task.generalChannel
        (run (step sampleExternals) offline selects).pool.state = true ∧
      ¬Subscribed (run (step sampleExternals) offline comesBack) := by
  refine ⟨rfl, by decide +kernel, by decide +kernel, fun hsubscribed => ?_⟩
  have hin := hsubscribed "second" Task.generalChannel (by decide +kernel) (by decide +kernel)
    (by decide +kernel) (by decide +kernel) (by decide +kernel)
  exact absurd hin (by decide +kernel)

end Link

end Client

end VoxLink
