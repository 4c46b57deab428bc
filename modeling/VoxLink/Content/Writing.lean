import VoxLink.Content.Handlers
import VoxLink.Guilds.Changes
import VoxLink.Secrecy.PrivateRuns

/-! Who writes into a channel: which requests and events store a message, and which are shown to the
others in the room of a channel. -/

namespace VoxLink

open ProofKit Prog

variable {X : Externals} {env : Env} {user : Profile} {db : Database} {g : Gateway}

/-! ### Messages stored -/

/-- The table of messages is the same. -/
def SameMessages (db db' : Database) : Prop := db'.messages = db.messages

instance : IsPreorder Database SameMessages where
  refl _ := rfl
  trans _ _ _ h h' := Eq.trans h' h

/-- The routes that write the table of messages. -/
def Route.ofMessages : Route → Bool
  | .messages _ | .admin (.deleteMessage _) => true
  | _ => false

theorem Changes.sameMessages {route : Route} {α : Type} {m : Service α}
    (h : Changes env user route m) (hroute : route.ofGuilds = true) : Keeps SameMessages m :=
  fun db => (h db).mono (fun _ _ h => h.messages_eq hroute) fun _ _ h => h.messages_eq hroute

theorem guarded_messages {route : Route} (hroute : route.ofMessages = false) :
    Keeps SameMessages (guarded X env user route) := by
  cases route with
  | auth r => exact .throw _
  | users r => exact keeps_usersController (fun _ _ _ => rfl) fun _ _ _ _ => rfl
  | channels r => exact (channelsController_changes r).sameMessages rfl
  | messages r => exact Bool.noConfusion hroute
  | events r => exact keeps_eventsController (fun _ _ => rfl) r
  | guilds r => exact (guildsController_changes r).sameMessages rfl
  | admin r =>
    apply keeps_adminController
    · exact fun _ _ _ => rfl
    · exact fun _ _ => rfl
    · rintro id rfl
      exact Bool.noConfusion hroute

/-- The messages that a step inserts. -/
def inserted (db db' : Database) : List Message := db'.messages.drop db.messages.length

/-- No message is inserted. -/
def NoInsert (db db' : Database) : Prop := db'.messages.length = db.messages.length

instance : IsPreorder Database NoInsert where
  refl _ := rfl
  trans _ _ _ h h' := Eq.trans h' h

theorem NoInsert.inserted_eq {db' : Database} (h : NoInsert db db') : inserted db db' = [] :=
  List.drop_eq_nil_of_le (le_of_eq h)

theorem SameMessages.noInsert {db' : Database} (h : SameMessages db db') : NoInsert db db' :=
  congrArg List.length h

/-- Only a request that creates a message inserts one. -/
theorem guarded_noInsert {route : Route} (hroute : ∀ c d, route ≠ .messages (.create c d)) :
    Keeps NoInsert (guarded X env user route) := by
  cases hwrites : route.ofMessages with
  | false => exact (guarded_messages hwrites).mono fun _ _ h => h.noInsert
  | true =>
    cases route with
    | messages r =>
      apply keeps_messagesController
      · exact fun _ _ _ => List.length_map _
      · rintro c d rfl
        exact absurd rfl (hroute c d)
    | admin r =>
      cases r with
      | deleteMessage id =>
        refine .map (.bind (.throwIf _ _) fun _ => .bind (keeps_uuidOf _) fun _ => ?_)
        exact .write fun _ => List.length_map _
      | _ => exact Bool.noConfusion hwrites
    | _ => exact Bool.noConfusion hwrites

theorem Enrolled.sameMessages {db' : Database} (h : Enrolled env db db') :
    SameMessages db db' := by
  rcases h with rfl | ⟨u, -, -, rfl⟩
  · rfl
  · rfl

theorem serve_noInsert {req : Request} (hroute : ∀ c d, req.route ≠ .messages (.create c d))
    (s : Server) : NoInsert s.db (serve X s (env, req)).2.db := by
  have hwp : wp (handle X env req) (fun _ s' => NoInsert s.db s'.db)
      (fun _ s' => NoInsert s.db s'.db) s := by
    apply wp_handle
    · intro r _
      exact authController_enrolled.mono (fun _ _ h => h.sameMessages.noInsert)
        fun _ _ h => h.sameMessages.noInsert
    · exact fun _ _ _ => guarded_noInsert hroute s.db
    · exact fun _ => rfl
  exact hwp.final

/-! ### Posts -/

/-- A message that somebody wants stored: its author, the id that names the channel, what it replies
to, and whether its texts can be stored. -/
structure Post where
  author : Profile
  channelId : BodyField String
  replyToId : BodyField String
  storable : Bool

/-- The author, the channel and the message replied to are stored, as far as they are named. -/
def Post.stored (db : Database) (p : Post) : Bool :=
  p.storable && p.channelId.get?.all (fun id => (Uuid.parse id).any (db.channelById · |>.isSome)) &&
    (db.userById p.author.id).isSome &&
    p.replyToId.get?.all fun id => (Uuid.parse id).any (db.messageById · |>.isSome)

/-- The body that `message:send` makes of its payload. -/
def SendMessageData.body (data : SendMessageData) : CreateMessageDto :=
  { content := data.content, attachments := data.attachments, replyToId := data.replyToId
    metadata := .absent }

/-- The message that the input asks to store, once the caller is known and the body is valid. -/
def Input.post (X : Externals) (env : Env) (g : Gateway) : Input → Option Post
  | .request ⟨token, .messages (.create channelId d)⟩ =>
    if d.valid X then (callerOf env g.server token).map fun user =>
      ⟨user, .value channelId, d.replyToId, d.storable⟩
    else none
  | .event client (.sendMessage data) => (WebsocketGateway.account client g).map fun user =>
      ⟨user, data.channelId, data.replyToId, data.body.storable⟩
  | _ => none

/-- Exactly the post is inserted, if it can be stored. -/
def Inserts (db : Database) (post : Option Post) (db' : Database) : Prop :=
  match post.filter (·.stored db) with
  | none => inserted db db' = []
  | some p => ∃ m, inserted db db' = [m] ∧ m.channelId = p.channelId.get?.bind Uuid.parse ∧
      m.authorId = some p.author.id

theorem NoInsert.inserts {db' : Database} {post : Option Post} (h : NoInsert db db')
    (hpost : post.filter (·.stored db) = none) : Inserts db post db' := by
  rw [Inserts, hpost]
  exact h.inserted_eq

/-- A row that a post of the user makes. -/
structure Posted (env : Env) (user : Profile) (channelId : BodyField String) (m : Message) :
    Prop where
  id : m.id = env.uuids 0
  channel : m.channelId = channelId.get?.bind Uuid.parse
  author : m.authorId = some user.id
  present : m.isDeleted = false

theorem create_wp {d : CreateMessageDto} {channelId : BodyField String} :
    wp (MessagesService.create env d user channelId)
      (fun v db' => Post.stored db ⟨user, channelId, d.replyToId, d.storable⟩ = true ∧
        Posted env user channelId v.message ∧
        db' = { db with messages := db.messages ++ [v.message] })
      (fun _ db' => Post.stored db ⟨user, channelId, d.replyToId, d.storable⟩ = false ∧ db' = db)
      db := by
  rw [MessagesService.create, wp_bind, wp_texts]
  refine ⟨fun hstorable => ?_, fun hstorable => ⟨by simp [Post.stored, hstorable], rfl⟩⟩
  refine wp_bind.mpr (newReference_wp.mono ?_ ?_)
  · rintro channel _ ⟨rfl, hchannel, hnamed⟩
    rw [wp_bind, wp_query, wp_bind, wp_references]
    refine ⟨fun hauthor => ?_, fun hauthor => ⟨by simp [Post.stored, hauthor], rfl⟩⟩
    refine wp_bind.mpr (newReference_wp.mono ?_ ?_)
    · rintro reply _ ⟨rfl, -, hreply⟩
      refine ⟨?_, ⟨rfl, hchannel, rfl, rfl⟩, rfl⟩
      simp only [Post.stored, hstorable, hnamed, hauthor, hreply, Bool.and_self]
    · rintro e _ ⟨rfl, hreply⟩
      exact ⟨by simp only [Post.stored, hreply, Bool.and_false], rfl⟩
  · rintro e _ ⟨rfl, hmissing⟩
    exact ⟨by simp only [Post.stored, hmissing, Bool.and_false, Bool.false_and], rfl⟩

theorem create_passes {d : CreateMessageDto} {channelId : BodyField String} :
    (MessagesService.create env d user channelId).passes db =
      Post.stored db ⟨user, channelId, d.replyToId, d.storable⟩ := by
  have hwp : wp (MessagesService.create env d user channelId) _ _ db := create_wp
  unfold wp at hwp
  unfold Prog.passes
  split at hwp
  · exact hwp.1.symm
  · exact hwp.1.symm

theorem inserted_append {m : Message} :
    inserted db { db with messages := db.messages ++ [m] } = [m] :=
  List.drop_left

/-- The service stores the post, or leaves the tables alone. -/
theorem create_inserts {d : CreateMessageDto} {channelId : BodyField String} :
    wp (MessagesService.create env d user channelId)
      (fun _ db' => Inserts db (some ⟨user, channelId, d.replyToId, d.storable⟩) db')
      (fun _ db' => Inserts db (some ⟨user, channelId, d.replyToId, d.storable⟩) db') db := by
  apply create_wp.mono
  · intro v db' ⟨hstored, hposted, hdb⟩
    rw [Inserts, Option.filter_some, if_pos hstored, hdb]
    exact ⟨v.message, inserted_append, hposted.channel, hposted.author⟩
  · intro e db' ⟨hstored, hdb⟩
    rw [Inserts, Option.filter_some, hstored, hdb]
    exact NoInsert.inserted_eq rfl

/-- A request whose post does not pass the guard and the validation inserts nothing. -/
theorem post_refused {token : Option Jwt} {channelId : String} {d : CreateMessageDto}
    (hpost : (Input.request ⟨token, .messages (.create channelId d)⟩).post X env g = none) :
    NoInsert g.server.db
      (serve X g.server (env, ⟨token, .messages (.create channelId d)⟩)).2.db := by
  have hwp : wp (handle X env ⟨token, .messages (.create channelId d)⟩)
      (fun _ s' => NoInsert g.server.db s'.db) (fun _ s' => NoInsert g.server.db s'.db)
      g.server := by
    apply wp_handle
    · exact nofun
    · intro user hauth hvalid
      have hvalid : d.valid X = true := hvalid
      simp [Input.post, authenticated_iff.mp hauth, hvalid] at hpost
    · exact fun _ => rfl
  exact hwp.final

theorem request_inserts {req : Request} :
    Inserts g.server.db ((Input.request req).post X env g) (serve X g.server (env, req)).2.db := by
  by_cases hroute : ∃ c d, req.route = .messages (.create c d)
  · obtain ⟨token, route⟩ := req
    obtain ⟨channelId, d, rfl⟩ := hroute
    cases hpost : (Input.request ⟨token, .messages (.create channelId d)⟩).post X env g with
    | none => exact (post_refused hpost).inserts rfl
    | some p =>
      simp only [Input.post, Option.ite_none_right_eq_some, Option.map_eq_some_iff] at hpost
      obtain ⟨hbody, user, hcaller, rfl⟩ := hpost
      have hvalid : (Route.messages (.create channelId d)).valid X = true := hbody
      have hserve : (serve X g.server (env, ⟨token, .messages (.create channelId d)⟩)).2.db =
          (MessagesService.create env d user (.value channelId)).final g.server.db := by
        exact (serve_db hcaller hvalid nofun).trans final_map
      rw [hserve]
      exact create_inserts.final
  · have hother : ∀ c d, req.route ≠ .messages (.create c d) := fun c d h => hroute ⟨c, d, h⟩
    have hnone : (Input.request req).post X env g = none := by
      unfold Input.post
      split
      · rename_i h
        obtain rfl := Input.request.inj h
        exact absurd rfl (hother _ _)
      · rename_i h
        exact Input.noConfusion h
      · rfl
    rw [hnone]
    exact (serve_noInsert hother g.server).inserts rfl

/-! ### Emissions -/

/-- The text that names the channel into whose room a message, a typing or a voice event goes, and
the user who sends it. -/
def GatewayEvent.written : GatewayEvent → Option (String × Uuid)
  | .messageNew m => some (m.channelId.text, m.author.id)
  | .typing channelId userId _ _ => some (channelId, userId)
  | .participantJoined channelId user => some (channelId, user.id)
  | .participantLeft channelId userId => some (channelId, userId)
  | _ => none

/-- What the emissions of a step write into rooms of channels. -/
def Output.written : Output → List (String × Uuid)
  | .response _ => []
  | .emitted es => es.filterMap (·.event.written)

/-- A typing or voice event: its sender and the text that names the channel. -/
def Input.signal (g : Gateway) : Input → Option (Profile × String)
  | .event client (.typingStart c) | .event client (.typingStop c)
  | .event client (.voiceJoined c) | .event client (.voiceLeft c) =>
    (WebsocketGateway.account client g).map fun user => (user, c)
  | _ => none

/-- The emissions write into rooms of channels what they wrote before and `ws`. -/
def Writes (ws : List (String × Uuid)) (g g' : Gateway) : Prop :=
  (Output.emitted g'.sent).written = (Output.emitted g.sent).written ++ ws

instance : IsPreorder Gateway (Writes []) where
  refl _ := (List.append_nil _).symm
  trans _ _ _ h h' := by
    rw [Writes, List.append_nil] at h h' ⊢
    exact h'.trans h

theorem writes_emit {p : Socket → Bool} {e : GatewayEvent} :
    Writes e.written.toList g ((emitTo p e).final g) := by
  show List.filterMap _ (_ ++ [_]) = _
  rw [List.filterMap_append]
  cases hw : e.written <;> simp [hw, Output.written]

theorem quiet_emit {p : Socket → Bool} {e : GatewayEvent} (he : e.written = none) :
    Keeps (Writes []) (emitTo p e) := by
  intro g
  have hwrites : Writes e.written.toList g ((emitTo p e).final g) := writes_emit
  rw [he] at hwrites
  exact hwrites

theorem quiet_onServer {α : Type} (m : Backend α) : Keeps (Writes []) (onServer m) := by
  have hany : Keeps (fun _ _ => True) m := fun s => .of_forall (fun _ _ => trivial)
    fun _ _ => trivial
  exact .within (fun g _ _ => refl_of (Writes []) g) hany

theorem quiet_sockets {w : Gateway → Gateway} (h : ∀ g, (w g).sent = g.sent) :
    Keeps (Writes []) (write w : Handler Unit) := by
  apply Keeps.write
  intro g
  rw [Writes, h, List.append_nil]

theorem quiet_asUser {client : String} {k : Profile → Handler Unit}
    (hk : ∀ user, Keeps (Writes []) (k user)) :
    Keeps (Writes []) (WebsocketGateway.asUser client k) := by
  apply Keeps.bind (.query _)
  intro user
  cases user with
  | some user => exact hk user
  | none => exact .pure _

/-- The events that write into rooms of channels. -/
def SocketEvent.writes : SocketEvent → Bool
  | .sendMessage _ | .typingStart _ | .typingStop _ | .voiceJoined _ | .voiceLeft _ => true
  | _ => false

theorem quiet_handleEvent {client : String} {e : SocketEvent} (he : e.writes = false) :
    Keeps (Writes []) (WebsocketGateway.handleEvent env client e) := by
  have sockets : ∀ f : Socket → Socket, Keeps (Writes []) (updateSocket client f) :=
    fun _ => quiet_sockets fun _ => rfl
  have disconnected : Keeps (Writes []) (disconnect client) := quiet_sockets fun _ => rfl
  cases e with
  | connection handshake =>
    refine .bind (quiet_sockets fun _ => rfl) fun _ => .recover ?_ fun _ => disconnected
    refine .bind (quiet_onServer _) fun user => .bind (sockets _) fun _ => ?_
    exact .bind (quiet_onServer _) fun _ => .bind (sockets _) fun _ => quiet_emit rfl
  | disconnection =>
    refine .bind (.query _) fun user => .bind disconnected fun _ => ?_
    cases user with
    | some user =>
      exact .bind (quiet_onServer _) fun _ => .bind (quiet_emit rfl) fun _ => quiet_onServer _
    | none => exact .pure _
  | joinChannel c =>
    refine quiet_asUser fun user => .recover ?_ fun _ => quiet_emit rfl
    refine .bind (quiet_onServer _) fun _ => .bind (sockets _) fun _ => ?_
    refine .bind (quiet_onServer _) fun _ => .bind (quiet_onServer _) fun _ => ?_
    exact .bind (quiet_onServer _) fun _ => .bind (quiet_emit rfl) fun _ => quiet_emit rfl
  | leaveChannel c =>
    refine quiet_asUser fun user => .bind (sockets _) fun _ => ?_
    exact .bind (quiet_onServer _) fun _ => quiet_emit rfl
  | guildJoin _ | guildLeave _ => exact quiet_asUser fun _ => sockets _
  | sendMessage _ | typingStart _ | typingStop _ | voiceJoined _ | voiceLeft _ =>
    exact Bool.noConfusion he

/-- What the input writes into rooms of channels. -/
def Input.announced (X : Externals) (env : Env) (g : Gateway) : Input → List (String × Uuid)
  | .request _ => []
  | .event client e =>
    (((Input.event client e).post X env g).filter (·.stored g.server.db)).toList.map
        (fun p => (p.channelId.text, p.author.id)) ++
      ((Input.event client e).signal g).toList.map fun (user, channelId) => (channelId, user.id)

theorem final_asUser {client : String} {k : Profile → Handler Unit} :
    (WebsocketGateway.asUser client k).final g =
      ((WebsocketGateway.account client g).map fun user => (k user).final g).getD g := by
  unfold Prog.final
  cases haccount : WebsocketGateway.account client g with
  | none => rw [asUser_none haccount, Option.map_none, Option.getD_none]
  | some user => rw [asUser_at haccount, Option.map_some, Option.getD_some]

theorem wp_onServer {α : Type} {m : Backend α} {Q : α → Gateway → Prop}
    {E : Exception → Gateway → Prop} :
    wp (onServer m) Q E g ↔
      wp m (fun a server => Q a { g with server })
        (fun e server => E e { g with server }) g.server :=
  wp_within

theorem sendMessage_writes {client : String} {data : SendMessageData} :
    let g' := (WebsocketGateway.handleSendMessage env client data).final g
    Inserts g.server.db ((Input.event client (.sendMessage data)).post X env g) g'.server.db ∧
      Writes ((Input.event client (.sendMessage data)).announced X env g) g g' := by
  intro g'
  show Inserts _ _ g'.server.db ∧ _
  simp only [g', WebsocketGateway.handleSendMessage, final_asUser, Input.announced, Input.post,
    Input.signal]
  cases haccount : WebsocketGateway.account client g with
  | none => exact ⟨NoInsert.inserted_eq rfl, refl_of (Writes []) g⟩
  | some user =>
    simp only [Option.map_some, Option.getD_some, Option.toList_none, List.map_nil,
      List.append_nil]
    apply wp.final (P := fun g' => Inserts _ _ g'.server.db ∧ Writes _ g g')
    simp only [wp_recover, wp_bind, wp_onServer, wp_onDb]
    apply create_wp.mono
    · rintro created db' ⟨hstored, hposted, hdb⟩
      change Post.stored _ ⟨user, data.channelId, data.replyToId, data.body.storable⟩ = true
        at hstored
      subst hdb
      constructor
      · rw [Inserts, Option.filter_some, if_pos hstored]
        exact ⟨created.message, inserted_append, hposted.channel, hposted.author⟩
      · rw [Option.filter_some, if_pos hstored]
        exact writes_emit
    · rintro e db' ⟨hstored, hdb⟩
      change Post.stored _ ⟨user, data.channelId, data.replyToId, data.body.storable⟩ = false
        at hstored
      subst hdb
      constructor
      · rw [Inserts, Option.filter_some, hstored]
        exact NoInsert.inserted_eq rfl
      · rw [Option.filter_some, hstored]
        exact writes_emit

/-- A typing or voice event writes into the room that it names, and stores nothing. -/
theorem signal_writes {client c : String} {p : Socket → Bool} {f : Profile → GatewayEvent}
    (hf : ∀ user, (f user).written = some (c, user.id)) :
    let g' := (WebsocketGateway.asUser client fun user => emitTo p (f user)).final g
    inserted g.server.db g'.server.db = [] ∧
      Writes (((WebsocketGateway.account client g).map fun user => (user, c)).toList.map
        fun (user, channelId) => (channelId, user.id)) g g' := by
  intro g'
  simp only [g', final_asUser]
  cases haccount : WebsocketGateway.account client g with
  | none => exact ⟨NoInsert.inserted_eq rfl, refl_of (Writes []) g⟩
  | some user =>
    have hwrites : Writes (f user).written.toList g ((emitTo p (f user)).final g) := writes_emit
    rw [hf] at hwrites
    exact ⟨NoInsert.inserted_eq rfl, hwrites⟩

theorem event_writes {client : String} {e : SocketEvent} :
    let g' := (WebsocketGateway.handleEvent env client e).final g
    Inserts g.server.db ((Input.event client e).post X env g) g'.server.db ∧
      Writes ((Input.event client e).announced X env g) g g' := by
  intro g'
  cases hwrites : e.writes with
  | true =>
    cases e with
    | sendMessage data => exact sendMessage_writes
    | typingStart c | typingStop c | voiceJoined c | voiceLeft c => exact signal_writes fun _ => rfl
    | _ => exact Bool.noConfusion hwrites
  | false =>
    have hdb : Keeps (OnDb NoInsert) (WebsocketGateway.handleEvent env client e) := by
      apply keeps_handleEvent
      · exact fun _ _ => rfl
      · rintro data rfl
        exact Bool.noConfusion hwrites
    have hpost : (Input.event client e).post X env g = none := by
      cases e <;> first | rfl | contradiction
    have hsignal : (Input.event client e).signal g = none := by
      cases e <;> first | rfl | contradiction
    have hinsert : OnDb NoInsert g g' := (hdb g).final
    have hquiet : Writes [] g g' := (quiet_handleEvent hwrites g).final
    simp only [Input.announced, hpost, hsignal]
    exact ⟨hinsert.inserts rfl, hquiet⟩

/-! ### Writing with access -/

/-- The user who makes the request or sends the event. -/
def Input.actor (env : Env) (g : Gateway) : Input → Option Profile
  | .request req => callerOf env g.server req.token
  | .event client _ => WebsocketGateway.account client g

/-- The input comes from the user `u`, for whom `findOne` finds the channel. -/
def admitted (g : Gateway) (i : Env × Input) (channelId : String) (u : Uuid) : Bool :=
  (i.2.actor i.1 g).any fun user =>
    user.id = u ∧ (ChannelsService.findOne channelId user).passes g.server.db

/-- Every message that the step inserts and everything that it writes into the room of a channel
comes from a user whom `findOne` gives the channel. -/
def WritesWithAccess (X : Externals) (g : Gateway) (i : Env × Input) : Prop :=
  (∀ m ∈ inserted g.server.db (Gateway.step X g i).2.server.db,
    (m.channelId.any fun c => m.authorId.any (admitted g i c.toText)) = true) ∧
  ∀ w ∈ (Gateway.step X g i).1.written, admitted g i w.1 w.2 = true

instance (g : Gateway) (i : Env × Input) : Decidable (WritesWithAccess X g i) :=
  inferInstanceAs (Decidable (_ ∧ _))

/-- The input is a message that can be stored, or a typing or voice event, for no channel or one
that is not stored or is private and somebody else's. -/
def trespasses (X : Externals) (g : Gateway) (i : Env × Input) : Bool :=
  ((i.2.post X i.1 g).any fun p =>
    p.stored g.server.db && (visibleChannel g.server.db p.author p.channelId.text).isNone) ||
  (i.2.signal g).any fun (user, channelId) =>
    (visibleChannel g.server.db user channelId).isNone

/-- A service for a channel that was found passes if the user may see it and it passes from
there. -/
theorem accessible_passes {α : Type} {channel : Option Channel} {f : Channel → Service α} :
    Prog.passes (ChannelsService.accessible channel user >>= f) db =
      (channel.filter fun c => !(c.isPrivate && c.createdById ≠ some user.id)).any
        fun c => (f c).passes db := by
  apply Bool.eq_iff_iff.mpr
  simp only [passes_iff, ChannelsService.accessible, wp_bind, wp_orThrow, wp_throwIf, wp_pure]
  cases channel with
  | none => simp
  | some c =>
    simp only [Option.filter_some, Option.some.injEq, forall_eq', reduceCtorEq, false_implies,
      and_true]
    cases c.isPrivate && c.createdById ≠ some user.id <;> simp [passes_iff]

/-- A service that begins with a look for a channel passes if it finds one and passes from there. -/
theorem visible_passes {α : Type} {id : String} {f : Uuid → Channel → Service α} :
    Prog.passes (do
      let key ← uuidOf id
      let c ← ChannelsService.findChannel key user
      f key c) db = (visibleChannel db user id).any fun c => (f c.id c).passes db := by
  cases hkey : Uuid.parse id with
  | none =>
    rw [passes_bind_error_at (uuidOf_error_at hkey), visibleChannel, hkey]
    rfl
  | some key =>
    rw [passes_bind_at (uuidOf_at hkey), Prog.passes, uuidOf_at hkey, Bool.true_and]
    refine accessible_passes.trans ?_
    rw [visibleChannel, hkey, Option.bind_some]
    dsimp only
    cases hc : db.channelById key with
    | none => rfl
    | some c =>
      obtain rfl : c.id = key := by simpa using List.find?_some hc
      simp only [Option.filter_some]
      split <;> rfl

theorem findOne_passes {channelId : String} :
    (ChannelsService.findOne channelId user).passes db =
      (visibleChannel db user channelId).isSome := by
  rw [ChannelsService.findOne, visible_passes]
  cases visibleChannel db user channelId <;> rfl

/-- The texts of one uuid name one channel. -/
theorem visibleChannel_toText {channelId : String} {c : Uuid} (h : Uuid.parse channelId = some c) :
    visibleChannel db user c.toText = visibleChannel db user channelId := by
  rw [visibleChannel, visibleChannel, h, Uuid.parse_toText]

theorem parse_of_visible {channelId : String}
    (h : (visibleChannel db user channelId).isSome = true) :
    ∃ c, Uuid.parse channelId = some c := by
  obtain ⟨_, hc⟩ := Option.isSome_iff_exists.mp h
  obtain ⟨c, hparse, -⟩ := visibleChannel_eq_some.mp hc
  exact ⟨c, hparse⟩

/-- The text of a missing id is no uuid. -/
theorem parse_text (id : BodyField String) : Uuid.parse id.text = id.get?.bind Uuid.parse := by
  cases id with
  | absent => decide +kernel
  | null => decide +kernel
  | value s => rfl

theorem post_actor {input : Input} {p : Post} (h : input.post X env g = some p) :
    input.actor env g = some p.author := by
  unfold Input.post at h
  split at h
  · simp only [Option.ite_none_right_eq_some, Option.map_eq_some_iff] at h
    obtain ⟨-, user, hcaller, rfl⟩ := h
    exact hcaller
  · obtain ⟨user, haccount, rfl⟩ := Option.map_eq_some_iff.mp h
    exact haccount
  · exact nomatch h

theorem signal_actor {input : Input} {c : String} (h : input.signal g = some (user, c)) :
    input.actor env g = some user := by
  unfold Input.signal at h
  split at h
  case h_5 => exact nomatch h
  all_goals
    obtain ⟨sender, haccount, hsender⟩ := Option.map_eq_some_iff.mp h
    obtain rfl := (Prod.mk.inj hsender).1
    exact haccount

/-- What a step stores and what it writes into rooms. -/
theorem step_writes {i : Env × Input} :
    Inserts g.server.db (i.2.post X i.1 g) (Gateway.step X g i).2.server.db ∧
      (Gateway.step X g i).1.written = i.2.announced X i.1 g := by
  obtain ⟨env, input⟩ := i
  cases input with
  | request req => exact ⟨request_inserts, rfl⟩
  | event client e =>
    exact event_writes (X := X) (g := { g with sent := [] })

theorem admitted_iff {i : Env × Input} {channelId : String}
    (hactor : i.2.actor i.1 g = some user) :
    admitted g i channelId user.id = true ↔
      (visibleChannel g.server.db user channelId).isSome = true := by
  simp [admitted, hactor, findOne_passes]

theorem mem_announced {input : Input} {w : String × Uuid} (h : w ∈ input.announced X env g) :
    (∃ p, input.post X env g = some p ∧ p.stored g.server.db = true ∧
        w = (p.channelId.text, p.author.id)) ∨
      ∃ user channelId, input.signal g = some (user, channelId) ∧ w = (channelId, user.id) := by
  cases input with
  | request req => exact nomatch h
  | event client e =>
    rcases List.mem_append.mp h with h | h
    · obtain ⟨p, hp, rfl⟩ := List.mem_map.mp h
      obtain ⟨hpost, hstored⟩ := Option.filter_eq_some_iff.mp (Option.mem_toList.mp hp)
      exact .inl ⟨p, hpost, hstored, rfl⟩
    · obtain ⟨s, hs, rfl⟩ := List.mem_map.mp h
      exact .inr ⟨s.1, s.2, Option.mem_toList.mp hs, rfl⟩

theorem signal_announced {input : Input} {c : String} (h : input.signal g = some (user, c)) :
    (c, user.id) ∈ input.announced X env g := by
  cases input with
  | request req => exact nomatch h
  | event client e =>
    apply List.mem_append_right
    rw [h]
    exact List.mem_singleton.mpr rfl

theorem trespasses_eq_false {i : Env × Input} : trespasses X g i = false ↔
    (∀ p, i.2.post X i.1 g = some p → p.stored g.server.db = true →
      (visibleChannel g.server.db p.author p.channelId.text).isSome = true) ∧
    ∀ s, i.2.signal g = some s → (visibleChannel g.server.db s.1 s.2).isSome = true := by
  cases hpost : i.2.post X i.1 g <;> cases hsignal : i.2.signal g <;>
    simp [trespasses, hpost, hsignal, Option.isSome_iff_ne_none]

theorem writesWithAccess_iff {i : Env × Input} :
    WritesWithAccess X g i ↔ trespasses X g i = false := by
  obtain ⟨hinserts, hwritten⟩ := step_writes (X := X) (g := g) (i := i)
  rw [trespasses_eq_false]
  constructor
  · intro ⟨hrows, hrooms⟩
    constructor
    · intro p hpost hstored
      have hactor : i.2.actor i.1 g = some p.author := post_actor hpost
      simp only [Inserts, hpost, Option.filter_some, if_pos hstored] at hinserts
      obtain ⟨m, hm, hchannel, hauthor⟩ := hinserts
      have hadmitted := hrows m (by rw [hm]; exact List.mem_singleton.mpr rfl)
      rw [hchannel, ← parse_text, hauthor] at hadmitted
      obtain ⟨c, hc, hadmitted⟩ := (Option.any_eq_true _ _).mp hadmitted
      rw [← visibleChannel_toText hc]
      exact (admitted_iff hactor).mp hadmitted
    · intro (user, c) hsignal
      have hadmitted := hrooms (c, user.id) (by rw [hwritten]; exact signal_announced hsignal)
      exact (admitted_iff (signal_actor hsignal)).mp hadmitted
  · intro ⟨hposts, hsignals⟩
    constructor
    · intro m hm
      unfold Inserts at hinserts
      split at hinserts
      · rw [hinserts] at hm
        exact nomatch hm
      · rename_i p hp
        obtain ⟨hpost, hstored⟩ := Option.filter_eq_some_iff.mp hp
        obtain ⟨m', hm', hchannel, hauthor⟩ := hinserts
        rw [hm'] at hm
        obtain rfl := List.mem_singleton.mp hm
        have hvisible := hposts p hpost hstored
        obtain ⟨c, hc⟩ := parse_of_visible hvisible
        rw [hchannel, ← parse_text, hauthor, hc, Option.any_some, Option.any_some,
          admitted_iff (post_actor hpost), visibleChannel_toText hc]
        exact hvisible
    · intro w hw
      rw [hwritten] at hw
      rcases mem_announced hw with ⟨p, hpost, hstored, rfl⟩ | ⟨user, c, hsignal, rfl⟩
      · exact (admitted_iff (post_actor hpost)).mpr (hposts p hpost hstored)
      · exact (admitted_iff (signal_actor hsignal)).mpr (hsignals (user, c) hsignal)

/-- Every step of a run writes with access if and only if no step of it trespasses. -/
theorem run_writesWithAccess_iff (X : Externals) (g : Gateway) (is : List (Env × Input)) :
    Along (Gateway.step X) (WritesWithAccess X) g is ↔
      Along (Gateway.step X) (fun g i => trespasses X g i = false) g is := by
  constructor
  · exact .mono fun _ _ => writesWithAccess_iff.mp
  · exact .mono fun _ _ => writesWithAccess_iff.mpr

/-- Bob writes into Alice's private channel. -/
def intruderRun : List (Env × Input) :=
  [(sampleEnv 5, .event "socket" (.connection ⟨some (sampleToken 2 "bob"), none, none⟩)),
    (sampleEnv 6, .event "socket"
      (.sendMessage ⟨.value (sampleUuid 3 0).toText, .value "hello", .absent, .absent⟩))]

theorem intruderRun_not_writesWithAccess :
    ¬Along (Gateway.step sampleExternals) (WritesWithAccess sampleExternals) (privateChat "yes")
      intruderRun := by
  decide +kernel

end VoxLink
