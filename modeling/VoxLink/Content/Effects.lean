import VoxLink.Accounts.Effects

/-! What the services of channels, messages and events do. The last two write their own table and
no other, so they keep every relation that does not look at it. -/

namespace VoxLink

open ProofKit Prog

variable {X : Externals} {env : Env} {user : Profile} {db : Database}

/-! ### Channels -/

namespace ChannelsService

theorem accessible_wp {channel : Option Channel} :
    wp (accessible channel user)
      (fun c db' => db' = db ∧ channel = some c ∧
        (c.isPrivate && c.createdById ≠ some user.id) = false)
      (fun _ db' => db' = db) db := by
  simp only [accessible, wp_bind, wp_orThrow, wp_throwIf, wp_pure, implies_true, and_true, true_and]
  exact fun c hc haccess => ⟨hc, haccess⟩

theorem findChannel_wp {id : Uuid} :
    wp (findChannel id user)
      (fun c db' => db' = db ∧ db.channelById id = some c ∧
        (c.isPrivate && c.createdById ≠ some user.id) = false)
      (fun _ db' => db' = db) db := by
  rw [findChannel, wp_bind, wp_query]
  exact accessible_wp

theorem findAnyChannel_wp :
    wp (findAnyChannel env user)
      (fun c db' => db' = db ∧ Rows.pick (env.pick 0) (fun _ => true) db.channels = some c ∧
        (c.isPrivate && c.createdById ≠ some user.id) = false)
      (fun _ db' => db' = db) db := by
  rw [findAnyChannel, wp_bind, wp_query]
  exact accessible_wp

theorem findOne_wp {id : String} :
    wp (findOne id user) (fun _ db' => db' = db) (fun _ db' => db' = db) db := by
  simp only [findOne, wp_bind, wp_uuidOf, implies_true, and_true]
  intro key _
  refine findChannel_wp.mono ?_ fun _ _ h => h
  rintro _ _ ⟨rfl, -, -⟩
  rfl

theorem findOneOf_wp {id : BodyField String} :
    wp (findOneOf env id user) (fun _ db' => db' = db) (fun _ db' => db' = db) db := by
  cases id with
  | value id => exact findOne_wp
  | absent | null =>
    rw [findOneOf, wp_bind]
    refine findAnyChannel_wp.mono ?_ fun _ _ h => h
    rintro _ _ ⟨rfl, -, -⟩
    rfl

/-- A change of a channel that keeps its identity and its place. -/
def KeepsPlace (f : Channel → Channel) : Prop :=
  ∀ c, (f c).id = c.id ∧ (f c).guildId = c.guildId ∧ (f c).categoryId = c.categoryId

theorem updateRow_wp {id : Uuid} {old : Channel} {d : UpdateChannelDto} :
    wp (updateRow env id old d)
      (fun _ db' => ∃ f, KeepsPlace f ∧
        db' = { db with channels := Rows.modify (·.id = id) f db.channels })
      (fun _ db' => db' = db) db := by
  simp only [updateRow, wp_bind, wp_throwIf, wp_texts, wp_column, wp_write, implies_true,
    and_true]
  intro _ _ name _ type _ isPrivate _
  refine ⟨_, ?_, rfl⟩
  exact fun _ => ⟨rfl, rfl, rfl⟩

end ChannelsService

variable {R : Database → Database → Prop} [IsPreorder Database R]

theorem keeps_accessible (channel : Option Channel) :
    Keeps R (ChannelsService.accessible channel user) :=
  .bind (.orThrow _ _) fun _ => .bind (.throwIf _ _) fun _ => .pure _

theorem keeps_findChannel (id : Uuid) : Keeps R (ChannelsService.findChannel id user) :=
  .bind (.query _) fun _ => keeps_accessible _

theorem keeps_findAnyChannel : Keeps R (ChannelsService.findAnyChannel env user) :=
  .bind (.query _) fun _ => keeps_accessible _

theorem keeps_channels_findOne (id : String) : Keeps R (ChannelsService.findOne id user) :=
  .bind (keeps_uuidOf _) fun id => .bind (keeps_findChannel id) fun _ =>
    .bind (.query _) fun _ => .pure _

theorem keeps_channels_findOneOf (id : BodyField String) :
    Keeps R (ChannelsService.findOneOf env id user) := by
  cases id with
  | value id => exact keeps_channels_findOne id
  | absent | null =>
    exact .bind keeps_findAnyChannel fun _ => .bind (.query _) fun _ => .pure _

theorem keeps_deleteRow (hR : ∀ db cs, R db { db with channels := cs }) (id : Uuid) :
    Keeps R (ChannelsService.deleteRow id) :=
  .bind (.query _) fun _ => .bind (.throwIf _ _) fun _ => .write fun _ => hR _ _

theorem keeps_channelsController (hR : ∀ db cs, R db { db with channels := cs })
    (r : ChannelRoute) : Keeps R (channelsController X env user r) := by
  cases r with
  | create d =>
    refine .map (.bind (keeps_texts _) fun _ => .bind (keeps_column _ _) fun _ => ?_)
    refine .bind (.query _) fun _ => .bind (keeps_references _ _) fun _ => ?_
    exact .bind (.write fun _ => hR _ _) fun _ => .pure _
  | findAll => exact .map (.query _)
  | search q => exact .map (.bind (keeps_texts _) fun _ => .query _)
  | findOne id => exact .map (keeps_channels_findOne id)
  | update id d =>
    refine .map (.bind (keeps_uuidOf _) fun key => .bind (keeps_findChannel key) fun _ => ?_)
    refine .bind (.throwIf _ _) fun _ => .bind ?_ fun _ => keeps_channels_findOne id
    refine .bind (.throwIf _ _) fun _ => .bind (keeps_texts _) fun _ => ?_
    refine .bind (keeps_column _ _) fun _ => .bind (keeps_column _ _) fun _ => ?_
    exact .bind (keeps_column _ _) fun _ => .write fun _ => hR _ _
  | remove id =>
    refine .map (.bind (keeps_uuidOf _) fun key => .bind (keeps_findChannel key) fun _ => ?_)
    exact .bind (.throwIf _ _) fun _ => keeps_deleteRow hR key

/-! ### Messages -/

theorem keeps_findMessage (id : Uuid) : Keeps R (MessagesService.findMessage id) :=
  .bind (.query _) fun _ => .orThrow _ _

theorem keeps_messages_findOne (id : String) : Keeps R (MessagesService.findOne id) :=
  .bind (keeps_uuidOf _) fun id => .bind (keeps_findMessage id) fun _ =>
    .bind (.query _) fun _ => .bind (.query _) fun _ => .bind (.query _) fun _ => .pure _

theorem keeps_messages_create (hinsert : ∀ db m, R db { db with messages := db.messages ++ [m] })
    (d : CreateMessageDto) (channelId : BodyField String) :
    Keeps R (MessagesService.create env d user channelId) := by
  refine .bind (keeps_texts _) fun _ => .bind (keeps_nullableReference _ _ _ _) fun _ => ?_
  refine .bind (.query _) fun _ => .bind (keeps_references _ _) fun _ => ?_
  refine .bind (keeps_nullableReference _ _ _ _) fun _ => ?_
  exact .bind (.write fun _ => hinsert _ _) fun _ => .pure _

theorem keeps_messages_findAll (channelId : String) (limit offset : Nat) :
    Keeps R (MessagesService.findAll channelId user limit offset) := by
  refine .bind (keeps_uuidOf _) fun id => .bind (keeps_findChannel id) fun _ => ?_
  exact .bind (.throwIf _ _) fun _ => .query _

theorem keeps_messages_findAllOf (channelId : BodyField String) (limit offset : Nat) :
    Keeps R (MessagesService.findAllOf env channelId user limit offset) := by
  cases channelId with
  | value channelId => exact keeps_messages_findAll channelId limit offset
  | absent | null =>
    exact .bind keeps_findAnyChannel fun _ => .bind (.throwIf _ _) fun _ => .query _

/-- A request about messages keeps every relation that allows updates of messages and, if it creates
one, its insertion. -/
theorem keeps_messagesController {r : MessageRoute}
    (hmodify : ∀ db p f, R db { db with messages := Rows.modify p f db.messages })
    (hinsert : ∀ channelId d, r = .create channelId d →
      ∀ db m, R db { db with messages := db.messages ++ [m] }) :
    Keeps R (messagesController X env user r) := by
  cases r with
  | create channelId d =>
    exact .map (keeps_messages_create (hinsert channelId d rfl) d (.value channelId))
  | findAll channelId limit offset => exact .map (keeps_messages_findAll channelId limit offset)
  | search channelId q =>
    exact .map (.bind (keeps_texts _) fun _ => .bind (keeps_uuidOf _) fun _ => .query _)
  | findOne id => exact .map (keeps_messages_findOne id)
  | update id d =>
    refine .map (.bind (keeps_uuidOf _) fun key => .bind (keeps_findMessage key) fun _ => ?_)
    refine .bind (.throwIf _ _) fun _ => .bind (keeps_texts _) fun _ => ?_
    refine .bind (keeps_nullableReference _ _ _ _) fun _ => ?_
    exact .bind (.write fun _ => hmodify _ _ _) fun _ => keeps_messages_findOne id
  | remove id =>
    refine .map (.bind (keeps_uuidOf _) fun key => .bind (keeps_findMessage key) fun _ => ?_)
    exact .bind (.throwIf _ _) fun _ => .write fun _ => hmodify _ _ _

/-! ### Events -/

theorem keeps_selection (channelId : Option String) :
    Keeps R (EventsService.selection channelId) := by
  cases channelId with
  | none => exact .pure _
  | some s =>
    dsimp only [EventsService.selection]
    split
    · exact .pure _
    · exact .map (keeps_uuidOf (R := R) s)

theorem keeps_findEvent (id : Uuid) : Keeps R (EventsService.findEvent id) :=
  .bind (.query _) fun _ => .orThrow _ _

theorem keeps_events_findOne (id : String) : Keeps R (EventsService.findOne id) :=
  .bind (keeps_uuidOf _) fun id => .bind (keeps_findEvent id) fun _ => .query _

theorem keeps_eventsController (hR : ∀ db es, R db { db with events := es }) (r : EventRoute) :
    Keeps R (eventsController X env user r) := by
  cases r with
  | create d =>
    refine .map (.bind (keeps_texts _) fun _ => .bind (keeps_column _ _) fun _ => ?_)
    refine .bind (.query _) fun _ => .bind (keeps_references _ _) fun _ => ?_
    refine .bind (keeps_nullableReference _ _ _ _) fun _ => ?_
    exact .bind (.write fun _ => hR _ _) fun _ => .pure _
  | findAll channelId => exact .map (.bind (keeps_selection channelId) fun _ => .query _)
  | findUpcoming days => exact .map (.query _)
  | findOne id => exact .map (keeps_events_findOne id)
  | update id d =>
    refine .map (.bind (keeps_uuidOf _) fun key => .bind (keeps_findEvent key) fun _ => ?_)
    refine .bind (.throwIf _ _) fun _ => .bind (keeps_texts _) fun _ => ?_
    refine .bind (keeps_column _ _) fun _ => .bind (keeps_column _ _) fun _ => ?_
    refine .bind (keeps_column _ _) fun _ => .bind (keeps_nullableReference _ _ _ _) fun _ => ?_
    exact .bind (.write fun _ => hR _ _) fun _ => keeps_events_findOne id
  | remove id =>
    refine .map (.bind (keeps_uuidOf _) fun key => .bind (keeps_findEvent key) fun _ => ?_)
    exact .bind (.throwIf _ _) fun _ => .write fun _ => hR _ _

/-! ### Administration -/

/-- A request of an administrator keeps every relation that allows updates of users under which
their credentials stay and of channels and, if it deletes a message, of messages. -/
theorem keeps_adminController
    (husers : ∀ db us, us.map User.credentials = db.users.map User.credentials →
      R db { db with users := us })
    (hchannels : ∀ db cs, R db { db with channels := cs }) {r : AdminRoute}
    (hmessages : ∀ id, r = .deleteMessage id →
      ∀ db p f, R db { db with messages := Rows.modify p f db.messages }) :
    Keeps R (adminController env user r) := by
  have admin : Keeps R (AdminService.requireAdmin user) := .throwIf _ _
  have setRole : ∀ key role metadata, Keeps R (AdminService.setRole env key role metadata) :=
    fun _ _ _ => .write fun _ => husers _ _ (Rows.map_modify fun _ _ => rfl)
  cases r with
  | getStats => exact .map (.bind admin fun _ => .query _)
  | banUser id reason =>
    refine .map (.bind admin fun _ => .bind (keeps_uuidOf _) fun _ => ?_)
    exact .bind (keeps_texts _) fun _ => setRole _ _ _
  | unbanUser id =>
    exact .map (.bind admin fun _ => .bind (keeps_uuidOf _) fun _ => setRole _ _ _)
  | deleteChannel id =>
    exact .map (.bind admin fun _ => .bind (keeps_uuidOf _) (keeps_deleteRow hchannels))
  | deleteMessage id =>
    refine .map (.bind admin fun _ => .bind (keeps_uuidOf _) fun _ => ?_)
    exact .write fun _ => hmessages id rfl _ _ _
  | getUserActivity id =>
    exact .map (.bind admin fun _ => .bind (keeps_uuidOf _) fun _ => .query _)

end VoxLink
