import VoxLink.Content.Handlers
import VoxLink.Guilds.Changes
import VoxLink.Secrecy.PrivateChannels

/-! Runs of the requests and events of one user, from two states that differ in nothing but what is
written in a private channel of somebody else. -/

namespace VoxLink

open ProofKit Prog

variable {X : Externals} {env : Env} {c u : Uuid} {g g' : Gateway}

/-- The account on whose token or socket an input comes. -/
def Input.origin (g : Gateway) : Input → Option Uuid
  | .request req => req.token.map (·.sub)
  | .event _ (.connection handshake) => handshake.token.map (·.sub)
  | .event client _ => (WebsocketGateway.account client g).map (·.id)

/-- An event, or a request about channels or messages. -/
def Input.ofChat : Input → Bool
  | .request ⟨_, .channels _⟩ | .request ⟨_, .messages _⟩ | .event _ _ => true
  | .request _ => false

/-- The input comes from nobody but the user. -/
def ByUser (u : Uuid) (g : Gateway) (i : Env × Input) : Prop :=
  i.2.ofChat = true ∧ (i.2.origin g).all (· = u) = true

instance (u : Uuid) (g : Gateway) (i : Env × Input) : Decidable (ByUser u g i) :=
  inferInstanceAs (Decidable (_ ∧ _))

/-- What the input gives back depends on what is written in the channel. -/
def leaks (X : Externals) (c : Uuid) (g : Gateway) : Env × Input → Bool
  | (env, .request ⟨token, .messages r⟩) =>
    (Route.messages r).valid X && (callerOf env g.server token).any (r.leaks g.server.db · c)
  | (env, .event client (.joinChannel channelId)) =>
    (WebsocketGateway.account client g).any fun user =>
      (pageOf env g.server.db user 50 0 channelId).any (showsChannel g.server.db c)
  | _ => false

/-- The states differ in nothing but what is written in the channel. -/
abbrev SameButChannel (c : Uuid) : Gateway → Gateway → Prop :=
  SameUnder (Gateway.mapDb (Database.sealed c))

theorem services_outside : ServicesAgree env (Database.sealed c) where
  profile _ := .bind (.read fun _ => rfl) fun _ => .orThrow _ _
  updateStatus _ _ :=
    .bind (outside_write fun _ => rfl) fun _ => .bind (.read fun _ => rfl) fun _ => .orThrow _ _
  create d _ channelId := outside_create d channelId

theorem sealed_sealed (db : Database) : (db.sealed c).sealed c = db.sealed c := db.sealed_sealed

theorem authenticated_id {s : Server} {token : Option Jwt} {p : Profile}
    (h : Authenticated env s token p) : token.map (·.sub) = some p.id := by
  obtain ⟨j, rfl, -, hp⟩ := h
  obtain ⟨user, huser, rfl⟩ := Option.map_eq_some_iff.mp hp
  have hid : user.id = j.sub := by simpa using List.find?_some huser
  exact congrArg some hid.symm

theorem ByUser.id {req : Request} {user : Profile} (h : ByUser u g (env, .request req))
    (hauth : Authenticated env g.server req.token user) : user.id = u := by
  have horigin := h.2
  simpa [Input.origin, authenticated_id hauth] using horigin

/-! ### Requests -/

/-- A request behind the guard, on two states on which its route agrees. -/
theorem handle_same {s t : Server} {token : Option Jwt} {route : Route}
    (hroute : ∀ r, route ≠ .auth r) (hst : SameUnder (Server.mapDb (Database.sealed c)) s t)
    (hsame : ∀ user, Authenticated env s token user → route.valid X = true →
      SameResult (SameOutside c) id (guarded X env user route s.db)
        (guarded X env user route t.db)) :
    SameResult (SameUnder (Server.mapDb (Database.sealed c))) id
      (handle X env ⟨token, route⟩ s) (handle X env ⟨token, route⟩ t) := by
  have hguarded : SameResult (SameUnder (Server.mapDb (Database.sealed c))) id
      ((do
        let user ← AuthService.authenticate env token
        validate X route
        onDb (guarded X env user route)) s)
      ((do
        let user ← AuthService.authenticate env token
        validate X route
        onDb (guarded X env user route)) t) := by
    have services : ServicesAgree env (Database.sealed c) := services_outside
    refine (mapDb_authenticate sealed_sealed services.profile token s t hst).bind ?_
    intro user _ s₁ t₁ huser htoken hid hst₁
    obtain rfl : user = _ := hid
    obtain ⟨hs₁, hauth⟩ := authenticate_wp.of_ok huser
    have ht₁ := (authenticate_wp.of_ok htoken).1
    rw [hs₁, ht₁]
    cases hvalid : route.valid X with
    | false =>
      simp only [validate, hvalid]
      exact ⟨rfl, hst⟩
    | true =>
      simp only [validate, hvalid]
      exact mapDb_onDb_at hst (hsame user hauth hvalid)
  cases route with
  | auth r => exact absurd rfl (hroute r)
  | _ => exact hguarded

theorem request_same {req : Request} (hg : SameButChannel c g g')
    (hguarded : Guarded c u g.server.db) (hby : ByUser u g (env, .request req))
    (hleaks : leaks X c g (env, .request req) = false) :
    StepAgrees X (Database.sealed c) (env, .request req) g g' := by
  have hserver := sameUnder_server sealed_sealed hg
  have hdb := sameUnder_db sealed_sealed hserver
  have hsame : SameResult (SameUnder (Server.mapDb (Database.sealed c))) id
      (handle X env req g.server) (handle X env req g'.server) := by
    obtain ⟨token, route⟩ := req
    cases route with
    | channels r =>
      refine handle_same nofun hserver fun user _ _ => ?_
      exact outside_channelsController r _ _ hdb
    | messages r =>
      refine handle_same nofun hserver fun user hauth hvalid => ?_
      have hid : user.id = u := hby.id hauth
      have hnot : r.leaks g.server.db user c = false := by
        simpa [leaks, hvalid, authenticated_iff.mp hauth] using hleaks
      exact messagesController_same hdb (hid ▸ hguarded) hnot
    | _ => exact absurd hby.1 Bool.false_ne_true
  exact stepAgrees_request hg hsame.outcome_eq hsame.final

/-! ### Events -/

theorem asUser_at {client : String} {user : Profile} {k : Profile → Handler Unit}
    (haccount : WebsocketGateway.account client g = some user) :
    WebsocketGateway.asUser client k g = k user g := by
  rw [WebsocketGateway.asUser, bind_at (query_at haccount)]

theorem asUser_none {client : String} {k : Profile → Handler Unit}
    (haccount : WebsocketGateway.account client g = none) :
    WebsocketGateway.asUser client k g = .ok () g := by
  rw [WebsocketGateway.asUser, bind_at (query_at haccount)]
  rfl

theorem SameButChannel.server_db (hg : SameButChannel c g g') :
    SameOutside c g.server.db g'.server.db :=
  sameUnder_db sealed_sealed (sameUnder_server sealed_sealed hg)

theorem SameButChannel.account (hg : SameButChannel c g g') (client : String) :
    WebsocketGateway.account client g' = WebsocketGateway.account client g :=
  (hg.same (q := WebsocketGateway.account client) fun _ => rfl).symm

theorem join_none {client : String} {channelId : BodyField String} (hg : SameButChannel c g g')
    (haccount : WebsocketGateway.account client g = none) :
    SameResult (SameButChannel c) id (WebsocketGateway.handleJoinChannel env client channelId g)
      (WebsocketGateway.handleJoinChannel env client channelId g') := by
  rw [WebsocketGateway.handleJoinChannel, asUser_none haccount,
    asUser_none ((SameButChannel.account hg client).trans haccount)]
  exact ⟨rfl, hg⟩

theorem join_same {client : String} {channelId : BodyField String} {user : Profile}
    (hg : SameButChannel c g g') (hguarded : Guarded c user.id g.server.db)
    (haccount : WebsocketGateway.account client g = some user)
    (hshows : (pageOf env g.server.db user 50 0 channelId).any (showsChannel g.server.db c) =
      false) :
    SameResult (SameButChannel c) id (WebsocketGateway.handleJoinChannel env client channelId g)
      (WebsocketGateway.handleJoinChannel env client channelId g') := by
  rw [WebsocketGateway.handleJoinChannel, asUser_at haccount,
    asUser_at ((SameButChannel.account hg client).trans haccount)]
  refine SameResult.recover ?_ fun e => mapDb_emitTo sealed_sealed _ _
  have hfind : Agrees (SameButChannel c)
      (onServer (onDb (ChannelsService.findOneOf env channelId user))) :=
    mapDb_onServer sealed_sealed (mapDb_onDb sealed_sealed (outside_findOneOf channelId))
  refine (hfind g g' hg).bind ?_
  intro _ _ g₁ g₁' hok₁ _ _ hg₁
  have hdb₁ : g.server.db = g₁.server.db :=
    (keeps_onDb (R := Eq) (keeps_channels_findOneOf channelId) g).of_ok hok₁
  refine (mapDb_join sealed_sealed client _ g₁ g₁' hg₁).bind ?_
  intro _ _ g₂ g₂' hok₂ _ _ hg₂
  have hjoin : Keeps (OnDb Eq) (join client (channelRoom channelId.text)) :=
    keeps_sockets fun _ => rfl
  have hdb₂ : g₁.server.db = g₂.server.db := (hjoin g₁).of_ok hok₂
  have hadd : Agrees (SameButChannel c)
      (onServer (WebsocketService.addChannelMember env 0 channelId.text user.id.toText)) :=
    mapDb_onServer sealed_sealed (.bind (mapDb_attempt sealed_sealed _ _) fun _ => .pure _)
  refine (hadd g₂ g₂' hg₂).bind ?_
  intro _ _ g₃ g₃' hok₃ _ _ hg₃
  have hdb₃ : g₂.server.db = g₃.server.db :=
    (keeps_onServer (R := Eq) (.bind (keeps_attempt _ _) fun _ => .pure _) g₂).of_ok hok₃
  have hmembers : Agrees (SameButChannel c)
      (onServer (WebsocketService.getChannelMembers env 1 channelId.text)) :=
    mapDb_onServer sealed_sealed (.read fun _ => rfl)
  refine (hmembers g₃ g₃' hg₃).bind ?_
  intro members _ g₄ g₄' hok₄ _ hsame hg₄
  obtain rfl : members = _ := hsame
  have hdb₄ : g₃.server.db = g₄.server.db :=
    (keeps_onServer (R := Eq) (.query _) g₃).of_ok hok₄
  have hdb : g.server.db = g₄.server.db := hdb₁.trans (hdb₂.trans (hdb₃.trans hdb₄))
  rw [hdb] at hguarded hshows
  have hall : SameResult (SameButChannel c) id
      (onServer (onDb (MessagesService.findAllOf env channelId user 50 0)) g₄)
      (onServer (onDb (MessagesService.findAllOf env channelId user 50 0)) g₄') :=
    mapDb_onServer_at hg₄ (mapDb_onDb_at (sameUnder_server sealed_sealed hg₄)
      (findAllOf_same (SameButChannel.server_db hg₄) hguarded hshows))
  refine hall.bind ?_
  intro messages _ g₅ g₅' _ _ hsame hg₅
  obtain rfl : messages = _ := hsame
  have hemit : Agrees (SameButChannel c) (do
      emitTo (channelRoom channelId.text ∈ ·.rooms) (.memberJoined channelId user.summary)
      emitTo (·.id = client) (.ready channelId messages.reverse members)) :=
    .bind (mapDb_emitTo sealed_sealed _ _) fun _ => mapDb_emitTo sealed_sealed _ _
  exact hemit g₅ g₅' hg₅

theorem event_same {client : String} {e : SocketEvent} (hg : SameButChannel c g g')
    (hguarded : Guarded c u g.server.db) (hby : ByUser u g (env, .event client e))
    (hleaks : leaks X c g (env, .event client e) = false) :
    StepAgrees X (Database.sealed c) (env, .event client e) g g' := by
  have hstart := sameUnder_start sealed_sealed hg
  by_cases hjoin : ∃ channelId, e = .joinChannel channelId
  · obtain ⟨channelId, rfl⟩ := hjoin
    cases haccount : WebsocketGateway.account client g with
    | none =>
      exact stepAgrees_event (join_none hstart haccount).final
    | some user =>
      have hid : user.id = u := by simpa [Input.origin, haccount] using hby.2
      refine stepAgrees_event (SameResult.final (v := id) ?_)
      refine join_same hstart (hid ▸ hguarded) haccount ?_
      simpa [leaks, haccount] using hleaks
  · have hagrees : Agrees (SameButChannel c) (WebsocketGateway.handleEvent env client e) :=
      mapDb_handleEvent sealed_sealed services_outside fun channelId h => hjoin ⟨channelId, h⟩
    exact stepAgrees_event (hagrees.final hstart)

/-! ### The channel stays private -/

theorem Guarded.of_channels {db db' : Database} (h : Guarded c u db)
    (hsame : db'.channels = db.channels) : Guarded c u db' := by
  unfold Guarded Database.channelById at h ⊢
  rw [hsame]
  exact h

theorem Guarded.modify {db : Database} (h : Guarded c u db) {key : Uuid} {f : Channel → Channel}
    (hf : ∀ ch, (f ch).id = ch.id) (hkey : key ≠ c) :
    Guarded c u { db with channels := Rows.modify (·.id = key) f db.channels } := by
  obtain ⟨ch, hch, hprivate, hcreator⟩ := h
  have hid : ch.id = c := by simpa using List.find?_some hch
  have hother : decide (ch.id = key) = false := by simpa [hid] using hkey.symm
  refine ⟨ch, ?_, hprivate, hcreator⟩
  show (Rows.modify (·.id = key) f db.channels).find? (·.id = c) = some ch
  rw [Rows.find?_modify_map (c := Channel.id) hf,
    show db.channels.find? (·.id = c) = some ch from hch, Option.map_some, hother]
  rfl

theorem Guarded.remove {db : Database} (h : Guarded c u db) {key : Uuid} (hkey : key ≠ c) :
    Guarded c u (db.deleteChannel key) := by
  obtain ⟨ch, hch, hprivate, hcreator⟩ := h
  refine ⟨ch, ?_, hprivate, hcreator⟩
  show (Rows.remove (·.id = key) db.channels).find? (·.id = c) = some ch
  rw [Rows.remove, List.find?_filter]
  refine Eq.trans ?_ hch
  unfold Database.channelById
  congr 1
  funext x
  by_cases hx : x.id = c
  · simp [hx, hkey.symm]
  · simp [hx]

theorem Guarded.append {db : Database} (h : Guarded c u db) {ch : Channel} :
    Guarded c u { db with channels := db.channels ++ [ch] } := by
  obtain ⟨ch', hch', hprivate, hcreator⟩ := h
  refine ⟨ch', ?_, hprivate, hcreator⟩
  show (db.channels ++ [ch]).find? (·.id = c) = some ch'
  rw [List.find?_append, show db.channels.find? (·.id = c) = some ch' from hch']
  rfl

theorem channelsController_guarded {user : Profile} {db : Database} {r : ChannelRoute}
    (h : Guarded c user.id db) :
    wp (channelsController X env user r) (fun _ db' => Guarded c user.id db')
      (fun _ db' => Guarded c user.id db') db := by
  have same : ∀ {db' : Database}, db' = db → Guarded c user.id db' := fun hdb => hdb ▸ h
  cases r with
  | create d =>
    simp only [channelsController, ChannelsService.create, wp_map, wp_bind, wp_texts, wp_column,
      wp_query, wp_references, wp_write, wp_pure]
    exact ⟨fun _ => ⟨fun _ _ => ⟨fun _ => h.append, fun _ => h⟩, fun _ => h⟩, fun _ => h⟩
  | findAll => exact h
  | search q =>
    refine wp_map.mpr (wp_bind.mpr (wp_texts.mpr ?_))
    exact ⟨fun _ => h, fun _ => h⟩
  | findOne id =>
    exact wp_map.mpr (ChannelsService.findOne_wp.mono (fun _ _ => same) fun _ _ => same)
  | update id d =>
    simp only [channelsController, ChannelsService.update, wp_map, wp_bind, wp_uuidOf]
    refine ⟨fun key _ => ?_, fun _ => h⟩
    refine ChannelsService.findChannel_wp.mono ?_ fun _ _ => same
    rintro ch db' ⟨hdb, hfound, haccess⟩
    rw [hdb, wp_throwIf]
    refine ⟨fun _ => ?_, fun _ => h⟩
    refine ChannelsService.updateRow_wp.mono ?_ fun _ _ => same
    rintro _ db' ⟨f, hf, hdb'⟩
    have hkept : Guarded c user.id db' := hdb' ▸ h.modify (fun ch => (hf ch).1)
      (h.ne hfound haccess)
    refine ChannelsService.findOne_wp.mono ?_ ?_
    · exact fun _ _ hdb => hdb ▸ hkept
    · exact fun _ _ hdb => hdb ▸ hkept
  | remove id =>
    simp only [channelsController, ChannelsService.remove, ChannelsService.deleteRow, wp_map,
      wp_bind, wp_uuidOf]
    refine ⟨fun key _ => ?_, fun _ => h⟩
    refine ChannelsService.findChannel_wp.mono ?_ fun _ _ => same
    rintro ch db' ⟨hdb, hfound, haccess⟩
    simp only [hdb, wp_throwIf, wp_query, wp_write]
    exact ⟨fun _ => ⟨fun _ => h.remove (h.ne hfound haccess), fun _ => h⟩, fun _ => h⟩

theorem step_guarded {i : Env × Input} (hguarded : Guarded c u g.server.db) (hby : ByUser u g i) :
    Guarded c u (Gateway.step X g i).2.server.db := by
  obtain ⟨env, input⟩ := i
  cases input with
  | request req =>
    refine wp.final (P := fun s : Server => Guarded c u s.db) (m := handle X env req) ?_
    refine wp_handle ?_ ?_ fun _ => hguarded
    · intro r hr
      obtain ⟨token, route⟩ := req
      obtain rfl : route = .auth r := hr
      exact absurd hby.1 Bool.false_ne_true
    · intro user hauth _
      have hid : user.id = u := hby.id hauth
      obtain ⟨token, route⟩ := req
      cases route with
      | channels r =>
        subst hid
        exact channelsController_guarded hguarded
      | messages r =>
        have hkeeps : Keeps SameGuilds (messagesController X env user r) :=
          keeps_messagesController (fun _ _ _ => ⟨rfl, rfl, rfl, rfl, rfl⟩)
            fun _ _ _ _ _ => ⟨rfl, rfl, rfl, rfl, rfl⟩
        exact (hkeeps g.server.db).mono (fun _ _ hsame => hguarded.of_channels hsame.channels)
          fun _ _ hsame => hguarded.of_channels hsame.channels
      | _ => exact absurd hby.1 Bool.false_ne_true
  | event client e =>
    have hkeeps : Keeps (OnDb SameGuilds) (WebsocketGateway.handleEvent env client e) :=
      keeps_handleEvent (fun _ _ => ⟨rfl, rfl, rfl, rfl, rfl⟩)
        fun _ _ _ _ => ⟨rfl, rfl, rfl, rfl, rfl⟩
    have hsame : OnDb SameGuilds { g with sent := [] }
        ((WebsocketGateway.handleEvent env client e).final { g with sent := [] }) :=
      (hkeeps { g with sent := [] }).final
    exact hguarded.of_channels hsame.channels

/-! ### Runs -/

/-- What a user receives in answer to his requests and events does not depend on what is written in
a private channel of somebody else, as long as he does not fetch or edit a message of the channel
or a reply to one, search the channel, list a channel that replies into it, or join without an id
while the newest messages show it. -/
theorem private_channel_confidential (X : Externals) (c u : Uuid) (g g' : Gateway)
    (is : List (Env × Input)) (hg : SameButChannel c g g') (hc : Guarded c u g.server.db)
    (his : Along (Gateway.step X) (fun g i => ByUser u g i ∧ leaks X c g i = false) g is) :
    outputs (Gateway.step X) g is = outputs (Gateway.step X) g' is := by
  refine his.outputs_eq (R := fun g g' => SameButChannel c g g' ∧ Guarded c u g.server.db) ?_
    ⟨hg, hc⟩
  rintro g g' i ⟨hg, hc⟩ ⟨hby, hleaks⟩
  have hagrees : StepAgrees X (Database.sealed c) i g g' := by
    obtain ⟨env, input⟩ := i
    cases input with
    | request req => exact request_same hg hc hby hleaks
    | event client e => exact event_same hg hc hby hleaks
  exact ⟨hagrees.1, hagrees.2, step_guarded hc hby⟩

/-- Alice has opened a private channel and written the text in it. Bob has registered. -/
def privateChat (text : String) : Gateway :=
  let server := run (serve sampleExternals) Server.empty
    [(sampleEnv 1, ⟨none, .auth (.register ⟨"alice", "alice@mail", "secret"⟩)⟩),
      (sampleEnv 2, ⟨none, .auth (.register ⟨"bob", "bob@mail", "secret"⟩)⟩),
      (sampleEnv 3, ⟨some (sampleToken 1 "alice"), .channels (.create
        { name := "diary", type := .text, topic := .absent, description := .absent
          isPrivate := .value true, permissions := .absent })⟩),
      (sampleEnv 4, ⟨some (sampleToken 1 "alice"), .messages (.create (sampleUuid 3 0).toText
        { content := .value text, attachments := .absent, replyToId := .absent
          metadata := .absent })⟩)]
  ⟨server, [], []⟩

/-- Bob connects, writes to Alice's channel, tries to list and to join it, and lists the
channels. -/
def curiousRun : List (Env × Input) :=
  [(sampleEnv 5, .event "socket" (.connection ⟨some (sampleToken 2 "bob"), none, none⟩)),
    (sampleEnv 6, .event "socket"
      (.sendMessage ⟨.value (sampleUuid 3 0).toText, .value "hello", .absent, .absent⟩)),
    (sampleEnv 7, .request ⟨some (sampleToken 2 "bob"),
      .messages (.findAll (sampleUuid 3 0).toText 50 0)⟩),
    (sampleEnv 8, .event "socket" (.joinChannel (.value (sampleUuid 3 0).toText))),
    (sampleEnv 9, .request ⟨some (sampleToken 2 "bob"), .channels .findAll⟩)]

/-- Nothing that Bob gets tells what Alice wrote. -/
theorem curiousRun_confidential :
    outputs (Gateway.step sampleExternals) (privateChat "yes") curiousRun =
      outputs (Gateway.step sampleExternals) (privateChat "no") curiousRun :=
  private_channel_confidential sampleExternals (sampleUuid 3 0) bob.id _ _ curiousRun
    (by decide +kernel) (by decide +kernel) (by decide +kernel)

/-- Bob fetches Alice's message by its id. -/
def fetchRun : List (Env × Input) :=
  [(sampleEnv 5, .request ⟨some (sampleToken 2 "bob"),
    .messages (.findOne (sampleUuid 4 0).toText)⟩)]

theorem fetchRun_leaks :
    SameButChannel (sampleUuid 3 0) (privateChat "yes") (privateChat "no") ∧
      Guarded (sampleUuid 3 0) bob.id (privateChat "yes").server.db ∧ bob.role ≠ "admin" ∧
      Along (Gateway.step sampleExternals) (ByUser bob.id) (privateChat "yes") fetchRun ∧
      outputs (Gateway.step sampleExternals) (privateChat "yes") fetchRun ≠
        outputs (Gateway.step sampleExternals) (privateChat "no") fetchRun := by
  decide +kernel

end VoxLink
