import VoxLink.Accounts.Effects
import VoxLink.Content.Effects
import VoxLink.Guilds.Effects
import VoxLink.Secrecy.Steps

/-! Which requests are answered with a whole row of `users`, and that the runs without them depend
on no password. -/

namespace VoxLink

open ProofKit Prog

variable {X : Externals} {env : Env} {user : Profile} {db : Database}

/-! ### Requests that load a row of `users` -/

/-- A channel that `ChannelsService.findChannel` returns to the user. -/
def visibleChannel (db : Database) (user : Profile) (id : String) : Option Channel :=
  ((Uuid.parse id).bind db.channelById).filter fun c =>
    !(c.isPrivate && c.createdById ≠ some user.id)

def storedMessage (db : Database) (id : String) : Option Message :=
  ((Uuid.parse id).bind db.messageById).filter (!·.isDeleted)

def storedEvent (db : Database) (id : String) : Option Event := (Uuid.parse id).bind db.eventById

/-- Whether the user may change what `creator` created. -/
def mayChange (user : Profile) (creator : Option Uuid) : Bool :=
  !(creator ≠ some user.id && user.role ≠ "admin")

/-- The owner that `GuildsService.findGuild` loads. -/
def seenOwner (db : Database) (user : Profile) (g : Uuid) : Option User :=
  (db.guildById g).bind fun guild =>
    if db.guildMembers.any fun m => m.guildId = g ∧ m.userId = user.id ∧ m.status = .active
    then db.related guild.ownerId else none

/-- A user that is loaded as a whole, and goes into the answer, if the request passes its
checks. -/
def Route.loads (env : Env) (db : Database) (user : Profile) : Route → Option User
  | .channels (.findOne id) =>
    (visibleChannel db user id).bind fun c => db.related c.createdById
  | .channels (.update id d) =>
    (visibleChannel db user id).bind fun c =>
      if mayChange user c.createdById ∧ (ChannelsService.updateRow env c.id c d).passes db ∧
          (d.isPrivate.required c.isPrivate = some false ∨ c.createdById = some user.id)
      then db.related c.createdById else none
  | .messages (.findOne id) => (storedMessage db id).bind fun m => db.related m.authorId
  | .messages (.update id d) =>
    (storedMessage db id).bind fun m =>
      if mayChange user m.authorId ∧ d.storable = true ∧
          (MessagesService.replyTarget m.replyToId d.replyToId).passes db
      then db.related m.authorId else none
  | .events (.findOne id) => (storedEvent db id).bind fun e => db.related e.createdById
  | .events (.update id d) =>
    (storedEvent db id).bind fun e =>
      if mayChange user e.createdById ∧ d.storable = true ∧ d.title ≠ .null ∧ d.startsAt ≠ .null ∧
          d.isRecurring ≠ .null ∧ (channelTarget e.channelId d.channelId).passes db
      then db.related e.createdById else none
  | .events (.findUpcoming days) =>
    (EventsService.upcoming env days db).findSome? fun e => db.related e.createdById
  | .guilds (.findOne g) => (Uuid.parse g).bind (seenOwner db user)
  | .guilds (.update g d) =>
    (Uuid.parse g).bind fun g =>
      if (GuildsService.requirePermission env g user.id .manageGuild).passes db ∧
          (GuildsService.updateRow env g d).passes db
      then seenOwner db user g else none
  | .guilds (.create d) =>
    if d.storable = true ∧ d.isPublic ≠ .null ∧ d.requiresApproval ≠ .null ∧
        (GuildsService.uniqueCode (env.uuids 0) env.nanoid).passes db
    then db.userById user.id else none
  | _ => none

/-- The request of a caller is valid and loads a user as a whole. -/
def Exposes (X : Externals) (g : Gateway) : Env × Input → Prop
  | (env, .request req) =>
    req.route.valid X = true ∧
      ((callerOf env g.server req.token).bind (req.route.loads env g.server.db)).isSome
  | (_, .event _ _) => False

instance (g : Gateway) : (i : Env × Input) → Decidable (Exposes X g i)
  | (_, .request _) => inferInstanceAs (Decidable (_ ∧ _))
  | (_, .event _ _) => inferInstanceAs (Decidable False)

/-- A row of `users` in a body, loaded by the request. -/
def Body.loaded : Body → Option User
  | .channel c => c.createdBy
  | .message m => m.author
  | .event e => e.createdBy
  | .upcomingEvents es => es.findSome? (·.createdBy)
  | .guild g => g.owner
  | _ => Option.none

/-! ### What the answers load -/

theorem visibleChannel_eq_some {id : String} {c : Channel} :
    visibleChannel db user id = some c ↔ ∃ key, Uuid.parse id = some key ∧
      db.channelById key = some c ∧ (c.isPrivate && c.createdById ≠ some user.id) = false := by
  simp only [visibleChannel, Option.filter_eq_some_iff, Option.bind_eq_some_iff, Bool.not_eq_true',
    ← and_assoc, exists_and_right]

namespace ChannelsService

theorem findOne_creator {id : String} :
    wp (findOne id user)
      (fun v _ => visibleChannel db user id = some v.channel ∧
        v.createdBy = db.related v.channel.createdById)
      (fun _ _ => True) db := by
  simp only [findOne, wp_bind, wp_uuidOf, implies_true, and_true]
  intro key hkey
  refine findChannel_wp.mono ?_ fun _ _ _ => trivial
  rintro c _ ⟨hdb, hc, haccess⟩
  subst hdb
  exact ⟨visibleChannel_eq_some.mpr ⟨key, hkey, hc, haccess⟩, rfl⟩

theorem updateRow_creator {id : Uuid} {old : Channel} {d : UpdateChannelDto} :
    wp (updateRow env id old d)
      (fun _ db' => ∃ f : Channel → Channel, (∀ c, (f c).id = c.id ∧
        (f c).createdById = c.createdById ∧
        d.isPrivate.required old.isPrivate = some (f c).isPrivate) ∧
        db' = { db with channels := Rows.modify (·.id = id) f db.channels })
      (fun _ _ => True) db := by
  simp only [updateRow, wp_bind, wp_throwIf, wp_texts, wp_column, wp_write, implies_true, and_true]
  intro _ _ name _ type _ isPrivate hprivate
  refine ⟨_, ?_, rfl⟩
  exact fun c => ⟨rfl, rfl, hprivate⟩

theorem update_creator {id : String} {d : UpdateChannelDto}
    (h : (Route.channels (.update id d)).loads env db user = none) :
    wp (update env id d user) (fun v _ => v.createdBy = none) (fun _ _ => True) db := by
  simp only [update, wp_bind, wp_uuidOf, implies_true, and_true]
  intro key hkey
  refine findChannel_wp.mono ?_ fun _ _ _ => trivial
  rintro c _ ⟨hdb, hc, haccess⟩
  rw [hdb]
  have hid : c.id = key := by simpa using List.find?_some hc
  simp only [wp_throwIf, implies_true, and_true]
  intro hchange
  refine updateRow_creator.and_passes.mono ?_ fun _ _ _ => trivial
  rintro _ _ ⟨hpasses, f, hf, hdb⟩
  rw [hdb]
  refine findOne_creator.mono ?_ fun _ _ _ => trivial
  rintro v _ ⟨hvisible, hcreator⟩
  -- The channel that is read back is the updated one, and its creator is the old one.
  obtain ⟨key', hkey', hfound, hagain⟩ := visibleChannel_eq_some.mp hvisible
  rw [hkey, Option.some.injEq] at hkey'
  subst hkey'
  have hv : v.channel = f c :=
    Option.some.inj (hfound.symm.trans (Rows.find?_modify (fun a => (hf a).1) hc))
  rw [hv, (hf c).2.1] at hcreator hagain
  have hown : d.isPrivate.required c.isPrivate = some false ∨ c.createdById = some user.id := by
    rw [(hf c).2.2]
    revert hagain
    cases (f c).isPrivate <;> simp
  have hvisible : visibleChannel db user id = some c :=
    visibleChannel_eq_some.mpr ⟨key, hkey, hc, haccess⟩
  simp only [Route.loads, hvisible, Option.bind_some] at h
  rw [if_pos ⟨by rw [mayChange, hchange]; rfl, hid ▸ hpasses, hown⟩] at h
  rw [hcreator]
  exact h

end ChannelsService

namespace MessagesService

theorem storedMessage_eq_some {id : String} {m : Message} :
    storedMessage db id = some m ↔ ∃ key, Uuid.parse id = some key ∧
      (db.messageById key).filter (!·.isDeleted) = some m := by
  simp only [storedMessage, Option.filter_eq_some_iff, Option.bind_eq_some_iff, ← and_assoc,
    exists_and_right]

theorem findMessage_wp {id : Uuid} :
    wp (findMessage id)
      (fun m db' => db' = db ∧ (db.messageById id).filter (!·.isDeleted) = some m)
      (fun _ db' => db' = db) db := by
  simp only [findMessage, wp_bind, wp_query, wp_orThrow, implies_true, and_true, true_and]
  exact fun m hm => hm

theorem findOne_author {id : String} :
    wp (findOne id)
      (fun v _ => storedMessage db id = some v.message ∧
        v.author = db.related v.message.authorId)
      (fun _ _ => True) db := by
  simp only [findOne, wp_bind, wp_uuidOf, implies_true, and_true]
  intro key hkey
  refine findMessage_wp.mono ?_ fun _ _ _ => trivial
  rintro m _ ⟨hdb, hm⟩
  rw [hdb]
  exact ⟨storedMessage_eq_some.mpr ⟨key, hkey, hm⟩, rfl⟩

theorem update_author {id : String} {d : UpdateMessageDto}
    (h : (Route.messages (.update id d)).loads env db user = none) :
    wp (update env id d user) (fun v _ => v.author = none) (fun _ _ => True) db := by
  simp only [update, wp_bind, wp_uuidOf, implies_true, and_true]
  intro key hkey
  refine findMessage_wp.mono ?_ fun _ _ _ => trivial
  rintro m _ ⟨hdb, hm⟩
  rw [hdb]
  simp only [wp_throwIf, wp_texts, implies_true, and_true]
  intro hchange hstorable
  refine wp_nullableReference.and_passes.mono ?_ fun _ _ _ => trivial
  rintro replyToId _ ⟨hpasses, hdb⟩
  rw [hdb, wp_write]
  refine findOne_author.mono ?_ fun _ _ _ => trivial
  rintro v _ ⟨hstored, hauthor⟩
  obtain ⟨key', hkey', hfound⟩ := storedMessage_eq_some.mp hstored
  rw [hkey, Option.some.injEq] at hkey'
  subst hkey'
  have hauthorId : v.message.authorId = m.authorId := by
    have hread := (Option.filter_eq_some_iff.mp hfound).1
    have hold := (Option.filter_eq_some_iff.mp hm).1
    rw [Option.some.inj (hread.symm.trans (Rows.find?_modify (fun _ => rfl) hold))]
  have hbefore : storedMessage db id = some m := storedMessage_eq_some.mpr ⟨key, hkey, hm⟩
  simp only [Route.loads, hbefore, Option.bind_some] at h
  rw [if_pos ⟨by rw [mayChange, hchange]; rfl, hstorable, hpasses⟩] at h
  rw [hauthor, hauthorId]
  exact h

end MessagesService

namespace EventsService

theorem storedEvent_eq_some {id : String} {e : Event} :
    storedEvent db id = some e ↔ ∃ key, Uuid.parse id = some key ∧ db.eventById key = some e :=
  Option.bind_eq_some_iff

theorem findEvent_wp {id : Uuid} :
    wp (findEvent id) (fun e db' => db' = db ∧ db.eventById id = some e)
      (fun _ db' => db' = db) db := by
  simp only [findEvent, wp_bind, wp_query, wp_orThrow, implies_true, and_true, true_and]
  exact fun e he => he

theorem findOne_creator {id : String} :
    wp (findOne id)
      (fun v _ => storedEvent db id = some v.event ∧ v.createdBy = db.related v.event.createdById)
      (fun _ _ => True) db := by
  simp only [findOne, wp_bind, wp_uuidOf, implies_true, and_true]
  intro key hkey
  refine findEvent_wp.mono ?_ fun _ _ _ => trivial
  rintro e _ ⟨hdb, he⟩
  rw [hdb]
  exact ⟨storedEvent_eq_some.mpr ⟨key, hkey, he⟩, rfl⟩

theorem update_creator {id : String} {d : UpdateEventDto}
    (h : (Route.events (.update id d)).loads env db user = none) :
    wp (update X env id d user) (fun v _ => v.createdBy = none) (fun _ _ => True) db := by
  simp only [update, wp_bind, wp_uuidOf, implies_true, and_true]
  intro key hkey
  refine findEvent_wp.mono ?_ fun _ _ _ => trivial
  rintro e _ ⟨hdb, he⟩
  rw [hdb]
  simp only [wp_throwIf, wp_texts, wp_column, implies_true, and_true]
  intro hchange hstorable title htitle startsAt hstarts isRecurring hrecurring
  refine wp_nullableReference.and_passes.mono ?_ fun _ _ _ => trivial
  rintro channelId _ ⟨hpasses, hdb⟩
  rw [hdb, wp_write]
  refine findOne_creator.mono ?_ fun _ _ _ => trivial
  rintro v _ ⟨hstored, hcreator⟩
  obtain ⟨key', hkey', hfound⟩ := storedEvent_eq_some.mp hstored
  rw [hkey, Option.some.injEq] at hkey'
  subst hkey'
  have hcreatorId : v.event.createdById = e.createdById := by
    rw [Option.some.inj (hfound.symm.trans (Rows.find?_modify (fun _ => rfl) he))]
  have hstartsAt : d.startsAt ≠ .null := by
    intro hnull
    exact BodyField.ne_null_of_required hstarts (by rw [hnull]; rfl)
  have hbefore : storedEvent db id = some e := storedEvent_eq_some.mpr ⟨key, hkey, he⟩
  simp only [Route.loads, hbefore, Option.bind_some] at h
  rw [if_pos ⟨by rw [mayChange, hchange]; rfl, hstorable, BodyField.ne_null_of_required htitle,
    hstartsAt, BodyField.ne_null_of_required hrecurring, hpasses⟩] at h
  rw [hcreator, hcreatorId]
  exact h

theorem findUpcoming_creator {days : Nat}
    (h : (Route.events (.findUpcoming days)).loads env db user = none) :
    wp (findUpcoming env days) (fun vs _ => vs.findSome? (·.createdBy) = none)
      (fun _ _ => True) db := by
  simp only [Route.loads, List.findSome?_eq_none_iff] at h
  simp only [findUpcoming, wp_query, List.findSome?_eq_none_iff, List.mem_map]
  rintro v ⟨e, he, hv⟩
  rw [← hv]
  exact h e he

end EventsService

namespace GuildsService

theorem findGuild_owner {g : Uuid} :
    wp (findGuild env g user) (fun v _ => v.owner = seenOwner db user g)
      (fun _ _ => True) db := by
  simp only [findGuild, wp_bind, wp_query, wp_orThrow, implies_true, and_true]
  intro guild hguild
  refine getMemberOrThrow_wp.mono ?_ fun _ _ _ => trivial
  rintro m _ ⟨hdb, hm, hactive⟩
  have hany : (db.guildMembers.any fun m =>
      m.guildId = g ∧ m.userId = user.id ∧ m.status = .active) = true :=
    List.any_eq_true.mpr ⟨m, hm, by simpa using hactive⟩
  rw [hdb, seenOwner, hguild, Option.bind_some, if_pos hany]

theorem update_owner {guildId : String} {d : UpdateGuildDto}
    (h : (Route.guilds (.update guildId d)).loads env db user = none) :
    wp (update env guildId d user) (fun v _ => v.owner = none) (fun _ _ => True) db := by
  simp only [update, wp_bind, wp_uuidOf, implies_true, and_true]
  intro g hg
  refine requirePermission_wp.and_passes.mono ?_ fun _ _ _ => trivial
  rintro _ _ ⟨hpermitted, hdb, guild, hguild, _⟩
  rw [hdb]
  refine updateRow_wp.and_passes.mono ?_ fun _ _ _ => trivial
  rintro _ db' ⟨hupdated, hdb'⟩
  simp only [Route.loads, hg, Option.bind_some] at h
  rw [if_pos ⟨hpermitted, hupdated⟩] at h
  -- The update keeps the owner and the memberships.
  have hseen : seenOwner db' user g = none := by
    obtain ⟨-, rfl⟩ | ⟨f, hf, rfl⟩ := hdb'
    · exact h
    · rw [seenOwner, hguild, Option.bind_some] at h
      rw [seenOwner, Database.guildById, Rows.find?_modify (fun x => (hf x).1) hguild,
        Option.bind_some, (hf guild).2]
      exact h
  exact findGuild_owner.mono (fun v _ hv => hv.trans hseen) fun _ _ _ => trivial

theorem create_owner {d : CreateGuildDto}
    (h : (Route.guilds (.create d)).loads env db user = none) :
    wp (create env d user) (fun v _ => v.owner = none) (fun _ _ => True) db := by
  simp only [create, wp_bind, wp_texts, wp_column, wp_query, wp_references, implies_true, and_true]
  intro hstorable isPublic hpublic requiresApproval happroval hstored
  have huniqueCode : wp (uniqueCode (env.uuids 0) env.nanoid) (fun _ _ => True)
      (fun _ _ => True) db :=
    .of_forall (fun _ _ => trivial) fun _ _ => trivial
  refine huniqueCode.and_passes.mono ?_ fun _ _ _ => trivial
  rintro _ _ ⟨hpasses, _⟩
  simp only [Route.loads] at h
  rw [if_pos ⟨hstorable, BodyField.ne_null_of_required hpublic,
    BodyField.ne_null_of_required happroval, hpasses⟩] at h
  simp [h] at hstored

end GuildsService

/-! ### Answers without a loaded row -/

section Rules

variable {σ α : Type} {m : Prog Exception σ α} {s : σ}

theorem loaded_map {b : α → Body} (hb : ∀ a, (b a).loaded = none) :
    wp (b <$> m) (fun b _ => b.loaded = none) (fun _ _ => True) s :=
  wp_map.mpr (.of_forall (fun a _ => hb a) fun _ _ => trivial)

theorem loaded_bind {k : α → Prog Exception σ Body}
    (hk : ∀ a s, wp (k a) (fun b _ => b.loaded = none) (fun _ _ => True) s) :
    wp (m >>= k) (fun b _ => b.loaded = none) (fun _ _ => True) s :=
  wp_bind.mpr (.of_forall (fun a s => hk a s) fun _ _ => trivial)

end Rules

theorem channelsController_loaded {r : ChannelRoute}
    (h : (Route.channels r).loads env db user = none) :
    wp (channelsController X env user r) (fun b _ => b.loaded = none) (fun _ _ => True) db := by
  cases r with
  | findOne id =>
    refine wp_map.mpr (ChannelsService.findOne_creator.mono ?_ fun _ _ _ => trivial)
    intro v _ ⟨hvisible, hcreator⟩
    simp only [Route.loads, hvisible, Option.bind_some] at h
    exact hcreator.trans h
  | update id d => exact wp_map.mpr (ChannelsService.update_creator h)
  | _ => exact loaded_map fun _ => rfl

theorem messagesController_loaded {r : MessageRoute}
    (h : (Route.messages r).loads env db user = none) :
    wp (messagesController X env user r) (fun b _ => b.loaded = none) (fun _ _ => True) db := by
  cases r with
  | findOne id =>
    refine wp_map.mpr (MessagesService.findOne_author.mono ?_ fun _ _ _ => trivial)
    intro v _ ⟨hstored, hauthor⟩
    simp only [Route.loads, hstored, Option.bind_some] at h
    exact hauthor.trans h
  | update id d => exact wp_map.mpr (MessagesService.update_author h)
  | _ => exact loaded_map fun _ => rfl

theorem eventsController_loaded {r : EventRoute}
    (h : (Route.events r).loads env db user = none) :
    wp (eventsController X env user r) (fun b _ => b.loaded = none) (fun _ _ => True) db := by
  cases r with
  | findUpcoming days => exact wp_map.mpr (EventsService.findUpcoming_creator h)
  | findOne id =>
    refine wp_map.mpr (EventsService.findOne_creator.mono ?_ fun _ _ _ => trivial)
    intro v _ ⟨hstored, hcreator⟩
    simp only [Route.loads, hstored, Option.bind_some] at h
    exact hcreator.trans h
  | update id d => exact wp_map.mpr (EventsService.update_creator h)
  | _ => exact loaded_map fun _ => rfl

theorem guildsController_loaded {r : GuildRoute}
    (h : (Route.guilds r).loads env db user = none) :
    wp (guildsController env user r) (fun b _ => b.loaded = none) (fun _ _ => True) db := by
  cases r with
  | create d => exact wp_map.mpr (GuildsService.create_owner h)
  | findOne guildId =>
    simp only [guildsController, GuildsService.findOne, wp_map, wp_bind, wp_uuidOf, implies_true,
      and_true]
    intro g hg
    refine GuildsService.findGuild_owner.mono ?_ fun _ _ _ => trivial
    intro v _ hv
    simp only [Route.loads, hg, Option.bind_some] at h
    exact hv.trans h
  | update guildId d => exact wp_map.mpr (GuildsService.update_owner h)
  | _ => exact loaded_map fun _ => rfl

/-- A request that loads no row answers with none. -/
theorem guarded_loaded {r : Route} (h : r.loads env db user = none) :
    wp (guarded X env user r) (fun b _ => b.loaded = none) (fun _ _ => True) db := by
  cases r with
  | auth r => trivial
  | users r => cases r <;> exact loaded_map fun _ => rfl
  | channels r => exact channelsController_loaded h
  | messages r => exact messagesController_loaded h
  | events r => exact eventsController_loaded h
  | admin r => cases r <;> exact loaded_map fun _ => rfl
  | guilds r => exact guildsController_loaded h

theorem authController_loaded {token : Option Jwt} {r : AuthRoute} {s : Server} :
    wp (authController X env token r) (fun b _ => b.loaded = none) (fun _ _ => True) s := by
  cases r with
  | createInvite d => exact loaded_bind fun _ _ => loaded_bind fun _ _ => loaded_map fun _ => rfl
  | verifyMagicLink _ => exact loaded_map fun _ => rfl
  | getProfile => exact loaded_map fun _ => rfl
  | _ => exact loaded_bind fun _ _ => loaded_map fun _ => rfl

theorem handle_loaded {req : Request} {s : Server}
    (h : req.route.valid X = true →
      (callerOf env s req.token).bind (req.route.loads env s.db) = none) :
    wp (handle X env req) (fun b _ => b.loaded = none) (fun _ _ => True) s := by
  refine wp_handle ?_ ?_ fun _ => trivial
  · intro r _
    exact authController_loaded
  · intro user huser hvalid
    have hloads := h hvalid
    rw [authenticated_iff.mp huser, Option.bind_some] at hloads
    exact guarded_loaded hloads

/-! ### Runs -/

theorem EventView.hidden_of_none {e : EventView User} (h : e.createdBy = none) : e.hidden = e := by
  rw [hidden, h, Option.map_none, ← h]

namespace Body

theorem loaded_hidden (b : Body) : b.hidden.loaded = b.loaded.map User.hidden := by
  cases b with
  | upcomingEvents es =>
    simp only [hidden, loaded, List.findSome?_map]
    induction es with
    | nil => rfl
    | cons e es ih =>
      simp only [List.findSome?_cons, Function.comp_apply, ih, EventView.hidden]
      cases e.createdBy <;> rfl
  | _ => rfl

theorem hidden_of_loaded {b : Body} (h : b.loaded = Option.none) : b.hidden = b := by
  cases b with
  | channel c =>
    obtain ⟨channel, createdBy⟩ := c
    obtain rfl : createdBy = Option.none := h
    rfl
  | message m =>
    obtain ⟨message, author, channel, replyTo⟩ := m
    obtain rfl : author = Option.none := h
    rfl
  | event e => rw [hidden, EventView.hidden_of_none h]
  | upcomingEvents es =>
    have hes : ∀ e ∈ es, e.createdBy = Option.none := by simpa [loaded] using h
    rw [hidden, List.map_congr_left fun e he => EventView.hidden_of_none (hes e he), List.map_id']
  | guild g =>
    obtain ⟨guild, owner, roles, categories⟩ := g
    obtain rfl : owner = Option.none := h
    rfl
  | _ => rfl

/-- A body without a loaded row is known from its public part. -/
theorem eq_of_hidden {a b : Body} (h : a.hidden = b.hidden) (ha : a.loaded = Option.none) :
    a = b := by
  have hb : b.loaded = Option.none := by
    have hloaded := congrArg loaded h
    rw [loaded_hidden, loaded_hidden, ha, Option.map_none] at hloaded
    exact Option.map_eq_none_iff.mp hloaded.symm
  rw [← hidden_of_loaded ha, h, hidden_of_loaded hb]

end Body

/-- A step that exposes no row answers and emits the same in both states. -/
theorem step_agrees {g g' : Gateway} {i : Env × Input} (hg : SameUnder Gateway.hidden g g')
    (hi : ¬Exposes X g i) :
    (Gateway.step X g i).1 = (Gateway.step X g' i).1 ∧
      SameUnder Gateway.hidden (Gateway.step X g i).2 (Gateway.step X g' i).2 := by
  obtain ⟨env, input⟩ := i
  cases input with
  | request req =>
    have hserver : SameUnder Server.hidden g.server g'.server :=
      sameUnder_server Database.hidden_hidden hg
    have hloaded : wp (handle X env req) (fun b _ => b.loaded = none) (fun _ _ => True)
        g.server :=
      handle_loaded fun hvalid => Option.not_isSome_iff_eq_none.mp fun h => hi ⟨hvalid, h⟩
    refine stepAgrees_request hg ((handle_agrees req).outcome_eq hserver ?_)
      ((handle_agrees req).final hserver)
    intro a b ha hab
    exact Body.eq_of_hidden hab (hloaded.of_returned ha)
  | event client e =>
    have hagrees : Agrees (SameUnder Gateway.hidden) (WebsocketGateway.handleEvent env client e) :=
      WebsocketGateway.handleEvent_agrees e
    exact stepAgrees_event (hagrees.final (sameUnder_start Database.hidden_hidden hg))

/-- Runs of requests and events from states that differ in nothing but passwords answer and emit
the same, when no step exposes a row of `users`. -/
theorem run_hides_passwords (X : Externals) (g g' : Gateway) (is : List (Env × Input))
    (hg : SameUnder Gateway.hidden g g')
    (his : Along (Gateway.step X) (fun g i => ¬Exposes X g i) g is) :
    outputs (Gateway.step X) g is = outputs (Gateway.step X) g' is :=
  his.outputs_eq (fun _ _ _ h hi => step_agrees h hi) hg

/-- Alice, with the given password, and Bob have registered, and Alice has opened a channel. -/
def channelOpened (password : String) : Gateway :=
  let server := run (serve sampleExternals) Server.empty
    [(sampleEnv 1, ⟨none, .auth (.register ⟨"alice", "alice@mail", password⟩)⟩),
      (sampleEnv 2, ⟨none, .auth (.register ⟨"bob", "bob@mail", "secret"⟩)⟩),
      (sampleEnv 3, ⟨some (sampleToken 1 "alice"),
        .channels (.create ⟨"general", .text, .absent, .absent, .absent, .absent⟩)⟩)]
  ⟨server, [], []⟩

def openedChannel : String := (sampleUuid 3 0).toText

/-- Bob connects, joins the channel, writes to it, and lists the channels and users. -/
def chatRun : List (Env × Input) :=
  [(sampleEnv 4, .event "socket" (.connection ⟨some (sampleToken 2 "bob"), none, none⟩)),
    (sampleEnv 5, .event "socket" (.joinChannel (.value openedChannel))),
    (sampleEnv 6, .event "socket"
      (.sendMessage ⟨.value openedChannel, .value "hello", .absent, .absent⟩)),
    (sampleEnv 7, .request ⟨some (sampleToken 2 "bob"), .channels .findAll⟩),
    (sampleEnv 8, .request ⟨some (sampleToken 2 "bob"), .users .findAll⟩)]

theorem chatRun_hides_passwords :
    outputs (Gateway.step sampleExternals) (channelOpened "secret") chatRun =
      outputs (Gateway.step sampleExternals) (channelOpened "hidden") chatRun :=
  run_hides_passwords sampleExternals _ _ chatRun (by decide +kernel) (by decide +kernel)

/-- Bob reads Alice's channel, and with it her password. -/
def readRun : List (Env × Input) :=
  [(sampleEnv 4, .request ⟨some (sampleToken 2 "bob"), .channels (.findOne openedChannel)⟩)]

theorem readRun_shows_password :
    SameUnder Gateway.hidden (channelOpened "secret") (channelOpened "hidden") ∧
      outputs (Gateway.step sampleExternals) (channelOpened "secret") readRun ≠
        outputs (Gateway.step sampleExternals) (channelOpened "hidden") readRun := by
  decide +kernel

end VoxLink
