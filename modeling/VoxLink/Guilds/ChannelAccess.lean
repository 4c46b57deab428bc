import VoxLink.Backend.Livekit
import VoxLink.Content.Writing

/-! Who uses the channels of a guild. The services of channels, messages and voice tokens have
checks of their own, which know nothing of the members of the guild. -/

namespace VoxLink

open ProofKit Prog

variable {X : Externals} {env : Env} {user : Profile} {db : Database} {g : Gateway}

/-- The user owns the guild of the channel, if it has one, or has an active membership in it, or is
an administrator. -/
def entitled (db : Database) (user : Uuid) (c : Channel) : Bool :=
  c.guildId.all fun guild =>
    (db.guildById guild).any (·.ownerId = some user) ||
      db.guildMembers.any (fun m => m.guildId = guild ∧ m.userId = user ∧ m.status = .active) ||
      (db.userById user).any (·.role = "admin")

/-- The channel with the text as its id. -/
def storedChannel (db : Database) (channelId : String) : Option Channel :=
  (Uuid.parse channelId).bind db.channelById

/-- The user of a call that operates on a channel, and the id that names the channel. -/
def Call.use (env : Env) (g : Gateway) : Call → Option (Profile × BodyField String)
  | .input (.request ⟨token, .channels (.update id _)⟩)
  | .input (.request ⟨token, .channels (.remove id)⟩)
  | .input (.request ⟨token, .messages (.create id _)⟩)
  | .input (.request ⟨token, .messages (.findAll id _ _)⟩) =>
    (callerOf env g.server token).map fun user => (user, .value id)
  | .getToken token id => (callerOf env g.server token).map fun user => (user, id)
  | .input (.event client (.joinChannel id)) =>
    (WebsocketGateway.account client g).map fun user => (user, id)
  | .input (.event client (.sendMessage data)) =>
    (WebsocketGateway.account client g).map fun user => (user, data.channelId)
  | _ => none

/-- The channels that a call of the user with the id operates on: the one with the id, or those
whose messages are shown to a socket that joins without one. -/
def Call.channels (env : Env) (db : Database) (user : Profile) :
    Call → BodyField String → List Channel
  | _, .value channelId => (storedChannel db channelId).toList
  | .input (.event _ (.joinChannel _)), id =>
    db.channels.filter fun c => (pageOf env db user 50 0 id).any (·.channelId = some c.id)
  | _, _ => []

/-- The event tells that a message was sent, or that a channel was joined. -/
def GatewayEvent.succeeds : GatewayEvent → Bool
  | .messageNew _ | .ready _ _ _ => true
  | _ => false

/-- The call was carried out. -/
def Reply.succeeds : Reply → Bool
  | .output (.response answer) => answer.isOk
  | .output (.emitted es) => es.any (·.event.succeeds)
  | .voiceToken answer => answer.isOk

/-- Whoever operates on a channel of a guild is entitled to it. -/
def UsedByEntitled (X : Externals) (g : Gateway) (i : Env × Call) : Prop :=
  ∀ user id, i.2.use i.1 g = some (user, id) → (g.call X i).1.succeeds = true →
    ∀ c ∈ i.2.channels i.1 g.server.db user id, entitled g.server.db user.id c = true

instance (g : Gateway) (i : Env × Call) : Decidable (UsedByEntitled X g i) :=
  decidable_of_iff (((i.2.use i.1 g).all fun (user, id) => !(g.call X i).1.succeeds ||
      (i.2.channels i.1 g.server.db user id).all (entitled g.server.db user.id)) = true) (by
    simp only [UsedByEntitled, Option.all_eq_true, Prod.forall, Bool.or_eq_true, Bool.not_eq_true',
      List.all_eq_true]
    constructor
    · intro h user id huse hsucceeds
      exact (h user id huse).resolve_left (by simp [hsucceeds])
    · intro h user id huse
      cases hsucceeds : (g.call X i).1.succeeds with
      | true => exact .inr (h user id huse hsucceeds)
      | false => exact .inl rfl)

/-- The call passes the checks of its own, as made for the user. -/
def Call.passes (X : Externals) (env : Env) (db : Database) (user : Profile) : Call → Bool
  | .input (.request ⟨_, .channels (.update id d)⟩) =>
    (visibleChannel db user id).any fun c => mayChange user c.createdById &&
      (ChannelsService.updateRow env c.id c d).passes db &&
        (d.isPrivate.required c.isPrivate = some false || c.createdById = some user.id)
  | .input (.request ⟨_, .channels (.remove id)⟩) =>
    (visibleChannel db user id).any fun c =>
      mayChange user c.createdById && !db.channelReferenced c.id
  | .input (.request ⟨_, .messages (.create id d)⟩) =>
    d.valid X && Post.stored db ⟨user, .value id, d.replyToId, d.storable⟩
  | .input (.request ⟨_, .messages (.findAll id _ _)⟩) => (visibleChannel db user id).isSome
  | .input (.event _ (.joinChannel id)) => (visibleChannelOf env db user id).isSome
  | .input (.event _ (.sendMessage data)) =>
    Post.stored db ⟨user, data.channelId, data.replyToId, data.body.storable⟩
  | .getToken _ id => (visibleChannelOf env db user id).any (·.type = .voice)
  | _ => false

/-- Somebody who is not entitled to a channel of a guild operates on it and passes the checks of the
operation. -/
def intrudes (X : Externals) (g : Gateway) (i : Env × Call) : Bool :=
  (i.2.use i.1 g).any fun (user, id) => i.2.passes X i.1 g.server.db user &&
    (i.2.channels i.1 g.server.db user id).any (!entitled g.server.db user.id ·)

/-! ### What the operations check -/

/-- The test of `findOne` is made a second time. -/
theorem list_passes {c : Channel} {limit offset : Nat} {selected : Database → List Message}
    (haccess : (c.isPrivate && c.createdById ≠ some user.id) = false) :
    (MessagesService.list c user limit offset selected).passes db = true := by
  rw [MessagesService.list, haccess]
  rfl

theorem findAll_passes {channelId : String} {limit offset : Nat} :
    (MessagesService.findAll channelId user limit offset).passes db =
      (visibleChannel db user channelId).isSome := by
  rw [MessagesService.findAll, visible_passes]
  cases hvisible : visibleChannel db user channelId with
  | none => rfl
  | some c =>
    obtain ⟨-, -, -, haccess⟩ := visibleChannel_eq_some.mp hvisible
    exact list_passes haccess

/-- A service that begins with `findOne` passes if that finds a channel and it passes from there. -/
theorem findOneOf_bind_passes {α : Type} {id : BodyField String}
    {f : ChannelView User → Service α} :
    Prog.passes (ChannelsService.findOneOf env id user >>= f) db =
      (visibleChannelOf env db user id).any fun c =>
        (f ⟨c, db.related c.createdById⟩).passes db := by
  cases id with
  | value channelId =>
    simp only [ChannelsService.findOneOf, ChannelsService.findOne, bind_assoc, pure_bind]
    rw [visible_passes]
    rfl
  | absent | null =>
    simp only [ChannelsService.findOneOf, bind_assoc, pure_bind]
    exact accessible_passes

theorem findOneOf_passes {id : BodyField String} :
    (ChannelsService.findOneOf env id user).passes db =
      (visibleChannelOf env db user id).isSome := by
  rw [← bind_pure (ChannelsService.findOneOf env id user), findOneOf_bind_passes]
  cases visibleChannelOf env db user id <;> rfl

theorem findAllOf_passes {id : BodyField String} {limit offset : Nat} :
    (MessagesService.findAllOf env id user limit offset).passes db =
      (visibleChannelOf env db user id).isSome := by
  have hany : (do
      let channel ← ChannelsService.findAnyChannel env user
      MessagesService.list channel user limit offset MessagesService.newestOfAll).passes db =
        (visibleChannelOf env db user .absent).isSome := by
    refine accessible_passes.trans ?_
    show (visibleChannelOf env db user .absent).any _ = _
    cases hvisible : visibleChannelOf env db user .absent with
    | none => rfl
    | some c =>
      have haccess := (Option.filter_eq_some_iff.mp hvisible).2
      exact list_passes (Bool.not_eq_true' _ |>.mp haccess)
  cases id with
  | value channelId => exact findAll_passes
  | absent | null => exact hany

theorem getToken_passes {id : BodyField String} :
    (LivekitController.getToken env user id).passes db =
      (visibleChannelOf env db user id).any (·.type = .voice) := by
  rw [LivekitController.getToken, findOneOf_bind_passes]
  congr 1
  funext c
  show Prog.passes (throwIf (decide (c.type ≠ .voice)) _ >>= _) db = _
  cases c.type <;> rfl

theorem deleteRow_passes {id : Uuid} :
    (ChannelsService.deleteRow id).passes db = !db.channelReferenced id := by
  show Prog.passes (throwIf (db.channelReferenced id) _ >>= _) db = _
  cases db.channelReferenced id <;> rfl

theorem remove_passes {id : String} :
    (ChannelsService.remove id user).passes db =
      (visibleChannel db user id).any fun c =>
        mayChange user c.createdById && !db.channelReferenced c.id := by
  rw [ChannelsService.remove, visible_passes]
  congr 1
  funext c
  rw [← deleteRow_passes, mayChange]
  cases c.createdById ≠ some user.id && user.role ≠ "admin" <;> rfl

/-- After an update of a visible channel its caller sees it, unless it is private and somebody
else's by then. -/
theorem visible_after {id : String} {c : Channel} {f : Channel → Channel}
    (hc : visibleChannel db user id = some c)
    (hf : ∀ x, (f x).id = x.id ∧ (f x).createdById = x.createdById) :
    Option.isSome (visibleChannel
      { db with channels := Rows.modify (·.id = c.id) f db.channels } user id) =
        (!(f c).isPrivate || c.createdById = some user.id) := by
  obtain ⟨key, hkey, hfound, -⟩ := visibleChannel_eq_some.mp hc
  have hid : c.id = key := by simpa using List.find?_some hfound
  have hnow : Database.channelById
      { db with channels := Rows.modify (·.id = c.id) f db.channels } key = some (f c) := by
    show (Rows.modify (·.id = c.id) f db.channels).find? (·.id = key) = some (f c)
    rw [hid]
    exact Rows.find?_modify (fun x => (hf x).1) hfound
  simp only [visibleChannel, hkey, Option.bind_some, hnow, Option.filter_some, (hf c).2]
  cases (f c).isPrivate <;> by_cases hcreator : c.createdById = some user.id <;> simp [hcreator]

theorem update_passes {id : String} {d : UpdateChannelDto} :
    (ChannelsService.update env id d user).passes db =
      (visibleChannel db user id).any fun c => mayChange user c.createdById &&
        (ChannelsService.updateRow env c.id c d).passes db &&
          (d.isPrivate.required c.isPrivate = some false || c.createdById = some user.id) := by
  rw [ChannelsService.update, visible_passes]
  cases hvisible : visibleChannel db user id with
  | none => rfl
  | some c =>
    simp only [Option.any_some, mayChange]
    cases c.createdById ≠ some user.id && user.role ≠ "admin" with
    | true => rfl
    | false =>
      show Prog.passes (ChannelsService.updateRow env c.id c d >>= fun _ =>
        ChannelsService.findOne id user) db = _
      cases hrow : ChannelsService.updateRow env c.id c d db with
      | error e db' =>
        have hrefused : (ChannelsService.updateRow env c.id c d).passes db = false := by
          rw [Prog.passes, hrow]
        rw [passes_bind_error_at hrow, hrefused]
        rfl
      | ok a db' =>
        obtain ⟨f, hf, rfl⟩ := ChannelsService.updateRow_creator.of_ok hrow
        have hprivate := (hf c).2.2
        rw [passes_bind_at hrow, findOne_passes,
          visible_after hvisible fun x => ⟨(hf x).1, (hf x).2.1⟩, hprivate]
        cases (f c).isPrivate <;> simp

/-! ### Requests and events -/

/-- A request of a known caller is carried out if its body is valid and its route passes. -/
theorem serve_isOk {s : Server} {token : Option Jwt} {route : Route} (hroute : ∀ r, route ≠ .auth r)
    (hcaller : callerOf env s token = some user) :
    (serve X s (env, ⟨token, route⟩)).1.isOk =
      (route.valid X && (guarded X env user route).passes s.db) := by
  have hpasses : (handle X env ⟨token, route⟩).passes s =
      Prog.passes (do
        validate X route
        onDb (guarded X env user route)) s := by
    rw [Prog.passes, handle_eq hcaller hroute, Prog.passes]
  show ((handle X env ⟨token, route⟩).outcome s).isOk = _
  rw [← passes_eq_isOk, hpasses, validate]
  cases route.valid X with
  | true => exact passes_within
  | false => rfl

theorem attempt_wp {s : Server} {site : Nat} {command : Redis → Option Redis} :
    wp (WebsocketService.attempt env site command) (fun _ s' => s'.db = s.db) (fun _ _ => False)
      s := by
  simp only [WebsocketService.attempt, wp_bind, wp_query]
  split <;> rfl

/-- Whether one of the emissions tells of success. -/
def successes (es : List Emission) : Bool := es.any (·.event.succeeds)

theorem successes_append {es fs : List Emission} :
    successes (es ++ fs) = (successes es || successes fs) :=
  List.any_append

/-- Once `findOne` passes, nothing keeps a socket from joining the channel. -/
theorem join_ready {client : String} {id : BodyField String}
    (hvisible : (visibleChannelOf env g.server.db user id).isSome = true) :
    wp (do
        let _ ← onServer (onDb (ChannelsService.findOneOf env id user))
        join client (channelRoom id.text)
        onServer (WebsocketService.addChannelMember env 0 id.text user.id.toText)
        let members ← onServer (WebsocketService.getChannelMembers env 1 id.text)
        let messages ← onServer (onDb (MessagesService.findAllOf env id user 50 0))
        emitTo (channelRoom id.text ∈ ·.rooms) (.memberJoined id user.summary)
        emitTo (·.id = client) (.ready id messages.reverse members))
      (fun _ g' => successes g'.sent = true) (fun _ _ => False) g := by
  have hfind : (ChannelsService.findOneOf env id user).passes g.server.db = true :=
    findOneOf_passes.trans hvisible
  have hall : (MessagesService.findAllOf env id user 50 0).passes g.server.db = true :=
    findAllOf_passes.trans hvisible
  rw [wp_bind, wp_onServer, wp_onDb]
  apply (ChannelsService.findOneOf_wp.of_passes hfind).mono _ nofun
  intro _ db' hdb'
  rw [hdb', wp_bind]
  show wp (onServer _ >>= _) _ _ _
  rw [wp_bind, wp_onServer, WebsocketService.addChannelMember, wp_bind]
  apply attempt_wp.mono _ nofun
  intro _ s' hs'
  show wp (onServer _ >>= _) _ _ _
  have hdb : s'.db = g.server.db := hs'
  rw [wp_bind, wp_onServer, WebsocketService.getChannelMembers, wp_query, wp_bind, wp_onServer,
    wp_onDb]
  show wp _ _ _ s'.db
  rw [hdb]
  apply (passes_iff.mp hall).mono _ nofun
  intro messages db' _
  show successes ((_ ++ [_]) ++ [_]) = true
  rw [successes_append]
  exact Bool.or_true _

theorem request_succeeds {token : Option Jwt} {route : Route}
    (hcaller : callerOf env g.server token = some user) (hroute : ∀ r, route ≠ .auth r) :
    (g.call X (env, .input (.request ⟨token, route⟩))).1.succeeds =
      (route.valid X && (guarded X env user route).passes g.server.db) :=
  serve_isOk hroute hcaller

theorem livekitToken_isOk {s : Server} {token : Option Jwt} {id : BodyField String}
    (hcaller : callerOf env s token = some user) :
    ((livekitToken env token id).outcome s).isOk =
      (LivekitController.getToken env user id).passes s.db := by
  rw [← passes_eq_isOk, livekitToken, passes_bind_at (authenticate_at hcaller), Prog.passes,
    authenticate_at hcaller]
  exact passes_within

theorem join_succeeds {client : String} {id : BodyField String}
    (haccount : WebsocketGateway.account client g = some user) :
    successes ((WebsocketGateway.handleJoinChannel env client id).final
        { g with sent := [] }).sent = (visibleChannelOf env g.server.db user id).isSome := by
  have hstart : WebsocketGateway.account client { g with sent := [] } = some user := haccount
  rw [WebsocketGateway.handleJoinChannel, final_asUser, hstart, Option.map_some, Option.getD_some]
  apply wp.final (P := fun g' : Gateway =>
    successes g'.sent = (visibleChannelOf env g.server.db user id).isSome)
  rw [wp_recover]
  cases hvisible : (visibleChannelOf env g.server.db user id).isSome with
  | true =>
    exact (join_ready (g := { g with sent := [] }) hvisible).mono (fun _ _ h => h)
      fun _ _ => False.elim
  | false =>
    have hfind : (ChannelsService.findOneOf env id user).passes g.server.db = false :=
      findOneOf_passes.trans hvisible
    rw [wp_bind, wp_onServer, wp_onDb]
    apply (wp.of_refused hfind).mono
    · exact fun _ _ h => h.elim
    · exact fun _ _ _ => rfl

theorem sendMessage_succeeds {client : String} {data : SendMessageData}
    (haccount : WebsocketGateway.account client g = some user) :
    successes ((WebsocketGateway.handleSendMessage env client data).final
        { g with sent := [] }).sent =
      Post.stored g.server.db ⟨user, data.channelId, data.replyToId, data.body.storable⟩ := by
  have hstart : WebsocketGateway.account client { g with sent := [] } = some user := haccount
  rw [WebsocketGateway.handleSendMessage, final_asUser, hstart, Option.map_some, Option.getD_some]
  apply wp.final (P := fun g' : Gateway =>
    successes g'.sent =
      Post.stored g.server.db ⟨user, data.channelId, data.replyToId, data.body.storable⟩)
  rw [wp_recover, wp_bind, wp_onServer, wp_onDb]
  apply create_wp.mono
  · rintro created db' ⟨hstored, _⟩
    exact hstored.symm
  · rintro e db' ⟨hrefused, _⟩
    exact hrefused.symm

/-- A call on a channel succeeds exactly when it passes the checks of its own. -/
theorem succeeds_eq {call : Call} {id : BodyField String}
    (huse : call.use env g = some (user, id)) :
    (g.call X (env, call)).1.succeeds = call.passes X env g.server.db user := by
  unfold Call.use at huse
  split at huse
  case h_8 => exact nomatch huse
  all_goals
    obtain ⟨caller, hcaller, huser⟩ := Option.map_eq_some_iff.mp huse
    obtain rfl : caller = user := (Prod.mk.inj huser).1
  · refine Eq.trans (request_succeeds hcaller ?_) ?_
    · exact fun _ h => nomatch h
    exact passes_map.trans update_passes
  · refine Eq.trans (request_succeeds hcaller ?_) ?_
    · exact fun _ h => nomatch h
    exact passes_map.trans remove_passes
  · refine Eq.trans (request_succeeds hcaller ?_) ?_
    · exact fun _ h => nomatch h
    exact congrArg _ (passes_map.trans create_passes)
  · refine Eq.trans (request_succeeds hcaller ?_) ?_
    · exact fun _ h => nomatch h
    exact passes_map.trans findAll_passes
  · exact (livekitToken_isOk hcaller).trans getToken_passes
  · exact join_succeeds hcaller
  · exact sendMessage_succeeds hcaller

theorem usedByEntitled_iff {i : Env × Call} : UsedByEntitled X g i ↔ intrudes X g i = false := by
  obtain ⟨env, call⟩ := i
  constructor
  · intro hentitled
    by_contra hintrudes
    simp only [intrudes, Bool.not_eq_false, Option.any_eq_true, Bool.and_eq_true, List.any_eq_true,
      Bool.not_eq_true'] at hintrudes
    obtain ⟨⟨user, id⟩, huse, hpasses, c, hc, hstranger⟩ := hintrudes
    have hsucceeds : (g.call X (env, call)).1.succeeds = true := (succeeds_eq huse).trans hpasses
    rw [hentitled user id huse hsucceeds c hc] at hstranger
    cases hstranger
  · intro hintrudes user id huse hsucceeds c hc
    have hpasses : call.passes X env g.server.db user = true :=
      (succeeds_eq huse).symm.trans hsucceeds
    simp only [intrudes, huse, Option.any_some, hpasses, Bool.true_and,
      List.any_eq_false] at hintrudes
    simpa using hintrudes c hc

/-- In every step of a run, whoever operates on a channel of a guild is entitled to it, if and only
if in no step somebody who is not passes the checks of the operation. -/
theorem run_usedByEntitled_iff (X : Externals) (g : Gateway) (is : List (Env × Call)) :
    Along (Gateway.call X) (UsedByEntitled X) g is ↔
      Along (Gateway.call X) (fun g i => intrudes X g i = false) g is := by
  constructor
  · exact .mono fun _ _ => usedByEntitled_iff.mp
  · exact .mono fun _ _ => usedByEntitled_iff.mpr

/-- Bob joins Alice's guild, is kicked out of it, and lists the messages of one of its channels. -/
def kickedRun : List (Env × Call) :=
  (guildRun .absent ++
    [byBob 4 (.joinByInvite "code3"), byAlice 5 (.kickMember sampleGuild.toText bob.id.toText),
      (sampleEnv 6, ⟨some (sampleToken 2 "bob"),
        .messages (.findAll (sampleUuid 3 7).toText 50 0)⟩)]).map
    fun (env, req) => (env, .input (.request req))

theorem kickedRun_not_usedByEntitled :
    ¬Along (Gateway.call sampleExternals) (UsedByEntitled sampleExternals) ⟨Server.empty, [], []⟩
      kickedRun := by
  decide +kernel

end VoxLink
