import VoxLink.Content.Deletion
import VoxLink.Guilds.ChannelAccess
import VoxLink.Guilds.Invariants

/-! Deletion of channels and guilds. Messages and events refer to channels by keys without a rule
for deletion, so a row that is referred to cannot be deleted. -/

namespace VoxLink

open ProofKit Prog

variable {X : Externals} {env : Env} {user : Profile} {db : Database} {g : Gateway} {c : Channel}
  {guild : Guild}

/-- The deletion succeeds, and then no message and no event refers to the channel. -/
def Clears (c : Channel) (m : Service Unit) (db : Database) : Prop :=
  m.passes db = true ∧ (m.final db).channelById c.id = none ∧
    (m.final db).channelReferenced c.id = false

/-- The creator and every administrator can delete the channel. -/
structure ChannelDeletable (db : Database) (c : Channel) : Prop where
  creator : ∀ user : Profile, c.createdById = some user.id →
    Clears c (ChannelsService.remove c.id.toText user) db
  admin : ∀ user : Profile, user.role = "admin" →
    Clears c (AdminService.deleteChannel c.id.toText user) db

/-- Nothing of the guild is left in `db'`. -/
structure Dissolved (db db' : Database) (h : Uuid) : Prop where
  guild : db'.guildById h = none
  members : ∀ m ∈ db'.guildMembers, m.guildId ≠ h
  roles : ∀ r ∈ db'.guildRoles, r.guildId ≠ h
  categories : ∀ k ∈ db'.channelCategories, k.guildId ≠ h
  channels : ∀ c ∈ db'.channels, c.guildId ≠ some h
  messages : ∀ c ∈ db.channels, c.guildId = some h → db'.channelReferenced c.id = false

/-- The owner can delete the guild. -/
def GuildDeletable (db : Database) (guild : Guild) : Prop :=
  ∀ user : Profile, guild.ownerId = some user.id →
    (GuildsService.delete guild.id.toText user).passes db = true ∧
      Dissolved db ((GuildsService.delete guild.id.toText user).final db) guild.id

/-- Every public channel and every guild can be deleted by those who may. -/
structure Deletable (db : Database) : Prop where
  channels : ∀ c ∈ db.channels, c.isPrivate = false → ChannelDeletable db c
  guilds : ∀ guild ∈ db.guilds, GuildDeletable db guild

/-- No message and no event refers to a public channel, or to a channel of a guild with an owner. -/
def Unreferenced (db : Database) : Prop :=
  (∀ c ∈ db.channels, c.isPrivate = false → db.channelReferenced c.id = false) ∧
    ∀ guild ∈ db.guilds, guild.ownerId ≠ none →
      ∀ c ∈ db.channels, c.guildId = some guild.id → db.channelReferenced c.id = false

instance : Decidable (Unreferenced db) := inferInstanceAs (Decidable (_ ∧ _))

/-! ### Channels -/

theorem deleteRow_eq (key : Uuid) : ChannelsService.deleteRow key db =
    if db.channelReferenced key then .error (.queryFailed (.foreignKey "channels")) db
    else .ok () (db.deleteChannel key) := by
  show ((throwIf (db.channelReferenced key) _ >>= fun _ => write _ : Service Unit)) db = _
  cases db.channelReferenced key <;> rfl

theorem clears_iff {m : Service Unit} (hm : m db = ChannelsService.deleteRow c.id db) :
    Clears c m db ↔ db.channelReferenced c.id = false := by
  rw [Clears, Prog.passes, Prog.final, hm, deleteRow_eq]
  cases hreferenced : db.channelReferenced c.id with
  | true => exact iff_of_false (fun h => by cases h.1) (fun h => by cases h)
  | false =>
    refine iff_of_true ⟨rfl, ?_, hreferenced⟩ rfl
    show (Rows.remove (·.id = c.id) db.channels).find? (·.id = c.id) = none
    simp [Rows.remove]

theorem remove_eq_deleteRow (hids : UniqueIds db) (hc : c ∈ db.channels)
    (hcreator : c.createdById = some user.id) :
    ChannelsService.remove c.id.toText user db = ChannelsService.deleteRow c.id db := by
  have hfound : db.channelById c.id = some c := Rows.find?_of_nodup hids.channels hc
  have haccess : (c.isPrivate && c.createdById ≠ some user.id) = false := by simp [hcreator]
  have hmay : (c.createdById ≠ some user.id && user.role ≠ "admin") = false := by simp [hcreator]
  have hvisible : ChannelsService.findChannel c.id user db = .ok c db := by
    have hquery : (query fun db => db.channelById c.id : Service _) db = .ok (some c) db :=
      query_at hfound
    rw [ChannelsService.findChannel, bind_at hquery]
    show (throwIf (c.isPrivate && c.createdById ≠ some user.id) _ >>= fun _ => pure c :
      Service Channel) db = _
    rw [haccess]
    rfl
  rw [ChannelsService.remove, bind_at (uuidOf_at c.id.parse_toText), bind_at hvisible, hmay]
  rfl

theorem deleteChannel_eq_deleteRow (hadmin : user.role = "admin") :
    AdminService.deleteChannel c.id.toText user db = ChannelsService.deleteRow c.id db := by
  simp only [AdminService.deleteChannel, AdminService.requireAdmin, hadmin, uuidOf,
    Uuid.parse_toText]
  rfl

theorem channelDeletable_iff (hids : UniqueIds db) (hc : c ∈ db.channels) :
    ChannelDeletable db c ↔ db.channelReferenced c.id = false := by
  constructor
  · intro h
    have hadmin : Clears c (AdminService.deleteChannel c.id.toText { alice with role := "admin" })
        db :=
      h.admin _ rfl
    exact (clears_iff (deleteChannel_eq_deleteRow rfl)).mp hadmin
  · intro hfree
    constructor
    · exact fun user hcreator => (clears_iff (remove_eq_deleteRow hids hc hcreator)).mpr hfree
    · exact fun user hadmin => (clears_iff (deleteChannel_eq_deleteRow hadmin)).mpr hfree

/-! ### Guilds -/

/-- A channel in a category of a guild belongs to the guild, so only messages and events refer to
the guild from outside. -/
theorem guildReferenced_eq (hcons : Consistent db) (guild : Uuid) :
    db.guildReferenced guild = db.channels.any fun c => c.guildId = some guild ∧
      db.channelReferenced c.id := by
  have hinside : (db.channels.any fun c => c.guildId ≠ some guild ∧
      db.channelCategories.any fun k => k.guildId = guild ∧ c.categoryId = some k.id) = false := by
    simp only [List.any_eq_false, decide_eq_true_eq, List.any_eq_true]
    rintro c hc ⟨houtside, k, hk, hguild, hcategory⟩
    obtain ⟨k', hk', hid, hplace⟩ := hcons.refs.place c hc k.id hcategory
    obtain rfl := Rows.eq_of_nodup hcons.ids.categories hk' hk hid
    exact houtside (hguild ▸ hplace)
  rw [Database.guildReferenced, hinside, Bool.or_false]

theorem dissolved_deleteGuild {h : Uuid}
    (hfree : ∀ c ∈ db.channels, c.guildId = some h → db.channelReferenced c.id = false) :
    Dissolved db (db.deleteGuild h) h where
  guild := by
    show (Rows.remove (·.id = h) db.guilds).find? (·.id = h) = none
    simp [Rows.remove]
  members := by
    intro m hm
    obtain ⟨m', hm', rfl⟩ := List.mem_map.mp hm
    exact of_decide_eq_false (Rows.mem_remove.mp hm').2
  roles := fun _ hr => of_decide_eq_false (Rows.mem_remove.mp hr).2
  categories := fun _ hk => of_decide_eq_false (Rows.mem_remove.mp hk).2
  channels := fun _ hc => of_decide_eq_false (Rows.mem_remove.mp hc).2
  messages := hfree

theorem delete_eq (hids : UniqueIds db) (hguild : guild ∈ db.guilds)
    (howner : guild.ownerId = some user.id) :
    GuildsService.delete guild.id.toText user db =
      if db.guildReferenced guild.id then .error (.queryFailed (.foreignKey "guilds")) db
      else .ok () (db.deleteGuild guild.id) := by
  have hfound : db.guildById guild.id = some guild := Rows.find?_of_nodup hids.guilds hguild
  have hmay : decide (guild.ownerId ≠ some user.id) = false := by simp [howner]
  have hquery : (query fun db => db.guildById guild.id : Service _) db = .ok (some guild) db :=
    query_at hfound
  rw [GuildsService.delete, bind_at (uuidOf_at guild.id.parse_toText), bind_at hquery]
  show (throwIf (decide (guild.ownerId ≠ some user.id)) _ >>= _ : Service Unit) db = _
  rw [hmay]
  show (throwIf (db.guildReferenced guild.id) _ >>= _ : Service Unit) db = _
  cases db.guildReferenced guild.id <;> rfl

theorem guildDeletable_iff (hcons : Consistent db) (hguild : guild ∈ db.guilds) :
    GuildDeletable db guild ↔ (guild.ownerId ≠ none →
      ∀ c ∈ db.channels, c.guildId = some guild.id → db.channelReferenced c.id = false) := by
  have hreferenced : db.guildReferenced guild.id = false ↔
      ∀ c ∈ db.channels, c.guildId = some guild.id → db.channelReferenced c.id = false := by
    simp [guildReferenced_eq hcons]
  rw [← hreferenced]
  constructor
  · intro h howned
    obtain ⟨owner, howner⟩ := Option.ne_none_iff_exists'.mp howned
    have hpasses := (h { alice with id := owner } howner).1
    rw [Prog.passes, delete_eq hcons.ids hguild howner] at hpasses
    by_contra hrefers
    rw [Bool.not_eq_false] at hrefers
    rw [hrefers] at hpasses
    cases hpasses
  · intro h user howner
    have hfree : db.guildReferenced guild.id = false := h (by simp [howner])
    rw [Prog.passes, Prog.final, delete_eq hcons.ids hguild howner, hfree]
    exact ⟨rfl, dissolved_deleteGuild (hreferenced.mp hfree)⟩

theorem deletable_iff (hcons : Consistent db) : Deletable db ↔ Unreferenced db := by
  constructor
  · intro h
    constructor
    · exact fun c hc hpublic => (channelDeletable_iff hcons.ids hc).mp (h.channels c hc hpublic)
    · exact fun guild hguild => (guildDeletable_iff hcons hguild).mp (h.guilds guild hguild)
  · rintro ⟨hchannels, hguilds⟩
    constructor
    · exact fun c hc hpublic => (channelDeletable_iff hcons.ids hc).mpr (hchannels c hc hpublic)
    · exact fun guild hguild => (guildDeletable_iff hcons hguild).mpr (hguilds guild hguild)

/-! ### Runs -/

theorem step_consistent {i : Env × Input} (hfresh : Fresh i.1 g.server.db)
    (h : Consistent g.server.db) : Consistent (Gateway.step X g i).2.server.db := by
  obtain ⟨env, input⟩ := i
  cases input with
  | request req =>
    rcases serve_handled (X := X) g.server (env, req) with hsame | ⟨user, -, hchange⟩
    · exact h.same hsame
    · exact h.kept hfresh hchange
  | event client e =>
    have hkeeps : Keeps (OnDb SameGuilds) (WebsocketGateway.handleEvent env client e) :=
      keeps_handleEvent (fun _ _ => ⟨rfl, rfl, rfl, rfl, rfl⟩)
        fun _ _ _ _ => ⟨rfl, rfl, rfl, rfl, rfl⟩
    have hsame : OnDb SameGuilds { g with sent := [] }
        ((WebsocketGateway.handleEvent env client e).final { g with sent := [] }) :=
      (hkeeps { g with sent := [] }).final
    exact h.same hsame

/-- In a run from the empty database with fresh ids, all authorised deletions go through in every
state if and only if in none a message or an event refers to a channel that may be deleted. -/
theorem run_deletable_iff (X : Externals) (is : List (Env × Input))
    (hfresh : Along (Gateway.step X) (fun g i => Fresh i.1 g.server.db) .empty is) :
    Along (Gateway.step X) (fun g _ => Deletable g.server.db) .empty is ↔
      Along (Gateway.step X) (fun g _ => Unreferenced g.server.db) .empty is := by
  apply hfresh.congr_invariant (I := fun g => Consistent g.server.db)
  · exact fun g i hcons _ => deletable_iff hcons
  · exact fun g i hcons hfresh _ => step_consistent hfresh hcons
  · exact consistent_empty

/-- Alice deletes her channel before anything is written in it. -/
theorem unusedChannel_deletable :
    Along (Gateway.step sampleExternals) (fun g _ => Deletable g.server.db) .empty
      (attachedRun.take 3 ++ [(sampleEnv 5, .request ⟨some (sampleToken 1 "alice"),
        .channels (.remove openedChannel)⟩)]) :=
  (run_deletable_iff sampleExternals _ (by decide +kernel)).mpr (by decide +kernel)

/-- She deletes it with a message in it. -/
theorem usedChannel_not_deletable :
    let is := deletionRun (.channels (.remove openedChannel))
    Along (Gateway.step sampleExternals) (fun g i => Fresh i.1 g.server.db) .empty is ∧
      ¬Along (Gateway.step sampleExternals) (fun g _ => Deletable g.server.db) .empty is := by
  intro is
  refine ⟨by decide +kernel, fun h => ?_⟩
  have hdeletable := h.2.2.2.2.1
  have hrefused : ∃ c ∈ (run (Gateway.step sampleExternals) .empty attachedRun).server.db.channels,
      c.isPrivate = false ∧ c.createdById = some alice.id ∧
        (ChannelsService.remove c.id.toText alice).passes
          (run (Gateway.step sampleExternals) .empty attachedRun).server.db = false := by
    decide +kernel
  obtain ⟨c, hc, hpublic, hcreator, hfails⟩ := hrefused
  have hpasses := ((hdeletable.channels c hc hpublic).creator alice hcreator).1
  exact absurd (hfails.symm.trans hpasses) nofun

end VoxLink
