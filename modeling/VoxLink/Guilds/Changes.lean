import VoxLink.Accounts.Sessions
import VoxLink.Content.Effects
import VoxLink.Guilds.Effects

/-! What a request can do to the tables of the guilds. `Change` lists every such change with the
conditions under which it is made, and `handle_change` shows that each request of the API either
leaves these tables alone or makes one of them for its authenticated caller. -/

namespace VoxLink

open ProofKit Prog GuildsService
open ChannelsService (KeepsPlace)

/-- The five tables of the guilds are the same. -/
structure SameGuilds (db db' : Database) : Prop where
  guilds : db'.guilds = db.guilds
  members : db'.guildMembers = db.guildMembers
  roles : db'.guildRoles = db.guildRoles
  categories : db'.channelCategories = db.channelCategories
  channels : db'.channels = db.channels

instance : IsPreorder Database SameGuilds where
  refl _ := ⟨rfl, rfl, rfl, rfl, rfl⟩
  trans _ _ _ h h' := ⟨h'.guilds.trans h.guilds, h'.members.trans h.members,
    h'.roles.trans h.roles, h'.categories.trans h.categories, h'.channels.trans h.channels⟩

/-- A new channel stands outside the guilds, or in a guild and one of its categories, if any. -/
def Placed (db : Database) (c : Channel) : Prop :=
  (c.guildId = none ∧ c.categoryId = none) ∨
    ∃ guild ∈ db.guilds, c.guildId = some guild.id ∧ CategoryIn db guild.id c.categoryId

/-- The routes of guilds and channels. -/
def Route.ofGuilds : Route → Bool
  | .guilds _ | .channels _ => true
  | _ => false

/-- What the route, called by `user`, can make of `db`. -/
inductive Change (env : Env) (user : Profile) (db : Database) : Route → Database → Prop
  | same {route : Route} : Change env user db route db
  | elsewhere {route : Route} {db' : Database} : route.ofGuilds = false → SameGuilds db db' →
      Change env user db route db'
  | createGuild {d : CreateGuildDto} {guild : Guild} : guild.id = env.uuids 0 →
      guild.ownerId = some user.id →
      Change env user db (.guilds (.create d)) (withGuild env db guild user.id)
  | updateGuild {route : Route} {g : Uuid} {f : Guild → Guild} : KeepsOwner f →
      Change env user db route { db with guilds := Rows.modify (·.id = g) f db.guilds }
  | deleteGuild {text : String} {g : Uuid} : Uuid.parse text = some g →
      db.guildReferenced g = false →
      Change env user db (.guilds (.delete text)) (db.deleteGuild g)
  | deleteUser {text : String} {u : Uuid} :
      Change env user db (.users (.remove text)) (db.deleteUser u)
  | join {code : String} {guild : Guild} {status : MemberStatus} :
      guildByCode code db = some guild → JoinAdmitted db guild.id user.id →
      (status = if guild.requiresApproval then .pending else .active) →
      Change env user db (.guilds (.joinByInvite code)) { db with
        guildMembers := db.guildMembers ++ [newMember env (env.uuids 0) guild.id user.id status
          ((lowestRole env guild.id db).map (·.id)).toList] }
  | kick {text target : String} {g t : Uuid} : Uuid.parse text = some g →
      Uuid.parse target = some t → Permitted db g user.id .kickMembers →
      NotOwnerText db g target →
      Change env user db (.guilds (.kickMember text target)) { db with
        guildMembers := Rows.remove (fun m => m.guildId = g ∧ m.userId = t) db.guildMembers }
  | ban {text target : String} {g t : Uuid} : Uuid.parse text = some g →
      Uuid.parse target = some t → Permitted db g user.id .banMembers →
      NotOwnerText db g target →
      Change env user db (.guilds (.banMember text target)) { db with
        guildMembers := Rows.modify (fun m => m.guildId = g ∧ m.userId = t)
          (fun m => { m with status := .banned, updatedAt := env.now }) db.guildMembers }
  | setRoles {route : Route} {m : GuildMember} {roles : List GuildRole} : m ∈ db.guildMembers →
      (∀ r ∈ roles, r ∈ db.guildRoles ∧ (r.id ∈ m.roles ∨ r.guildId = m.guildId)) →
      Change env user db route (withRoles db m roles)
  | createRole {text : String} {d : CreateRoleDto} {r : GuildRole} : r.id = env.uuids 0 →
      (∃ guild ∈ db.guilds, guild.id = r.guildId) → r.position = 0 → r.isManaged = false →
      newMask d DefaultPermissions.member = some r.permissions →
      Change env user db (.guilds (.createRole text d))
        { db with guildRoles := db.guildRoles ++ [r] }
  | updateRole {text id : String} {d : CreateRoleDto} {r : GuildRole} {mask : Int}
      {f : GuildRole → GuildRole} : r ∈ db.guildRoles → r.isManaged = false → KeepsStanding f →
      newMask d r.permissions = some mask → (∀ x, (f x).permissions = mask) →
      Change env user db (.guilds (.updateRole text id d))
        { db with guildRoles := Rows.modify (·.id = r.id) f db.guildRoles }
  | deleteRole {route : Route} {r : GuildRole} : r ∈ db.guildRoles → r.isManaged = false →
      Change env user db route (db.deleteRole r.id)
  | createCategory {route : Route} {c : ChannelCategory} : c.id = env.uuids 0 →
      (∃ guild ∈ db.guilds, guild.id = c.guildId) →
      Change env user db route { db with channelCategories := db.channelCategories ++ [c] }
  | deleteCategory {route : Route} {g c : Uuid} :
      Change env user db route (withoutCategory env db g c)
  | createChannel {route : Route} {c : Channel} : c.id = env.uuids 0 → Placed db c →
      Change env user db route { db with channels := db.channels ++ [c] }
  | updateChannel {route : Route} {id : Uuid} {f : Channel → Channel} : KeepsPlace f →
      Change env user db route { db with channels := Rows.modify (·.id = id) f db.channels }
  | deleteChannel {route : Route} {c : Uuid} : Change env user db route (db.deleteChannel c)

variable {X : Externals} {env : Env} {user : Profile} {db : Database} {route : Route}

/-- Both outcomes of a program are changes. -/
def Changes (env : Env) (user : Profile) (route : Route) {α : Type} (m : Service α) : Prop :=
  ∀ db, wp m (fun _ db' => Change env user db route db') (fun _ db' => Change env user db route db')
    db

theorem Changes.map {α β : Type} {m : Service α} {g : α → β} (h : Changes env user route m) :
    Changes env user route (g <$> m) :=
  fun db => wp_map.mpr (h db)

theorem Changes.of_keeps {α : Type} {m : Service α} (hroute : route.ofGuilds = false)
    (h : Keeps SameGuilds m) : Changes env user route m :=
  fun db => (h db).mono (fun _ _ h => .elsewhere hroute h) fun _ _ h => .elsewhere hroute h

theorem mem_rolesOf {m : GuildMember} {r : GuildRole} (h : r ∈ db.rolesOf m) :
    r ∈ db.guildRoles ∧ r.id ∈ m.roles := by
  obtain ⟨id, hid, hr⟩ := List.mem_filterMap.mp h
  have hp := List.find?_some hr
  simp only [decide_eq_true_eq] at hp
  exact ⟨List.mem_of_find?_eq_some hr, hp ▸ hid⟩

/-! ### Guilds -/

theorem guildsController_changes (r : GuildRoute) :
    Changes env user (.guilds r) (guildsController env user r) := by
  have unchanged : ∀ {db db' : Database}, db' = db → Change env user db (.guilds r) db' :=
    fun h => h ▸ .same
  cases r with
  | create d =>
    refine .map fun db => create_wp.mono ?_ fun _ _ => unchanged
    rintro _ _ ⟨guild, hid, howner, rfl⟩
    exact .createGuild hid howner
  | update g d =>
    refine .map fun db => update_wp.mono ?_ ?_
    · rintro _ _ ⟨g, f, -, -, hf, rfl⟩
      exact .updateGuild hf
    · rintro _ _ (h | ⟨g, f, -, -, hf, rfl, -⟩)
      · exact unchanged h
      · exact .updateGuild hf
  | delete g =>
    refine .map fun db => delete_wp.mono ?_ fun _ _ => unchanged
    rintro _ _ ⟨g, guild, hg, -, -, href, rfl⟩
    exact .deleteGuild hg href
  | joinByInvite code =>
    refine .map fun db => joinByInvite_wp.mono ?_ fun _ _ => unchanged
    rintro _ _ ⟨guild, hguild, hadm, rfl, rfl⟩
    exact .join hguild hadm rfl
  | regenerateInvite g =>
    refine .map fun db => regenerateInviteCode_wp.mono ?_ fun _ _ => unchanged
    rintro _ _ ⟨g, f, -, -, hf, rfl⟩
    exact .updateGuild hf
  | kickMember g u =>
    refine .map fun db => kickMember_wp.mono ?_ fun _ _ => unchanged
    rintro _ _ ⟨g, t, hg, hperm, ht, hown, rfl⟩
    exact .kick hg ht hperm hown
  | banMember g u =>
    refine .map fun db => banMember_wp.mono ?_ fun _ _ => unchanged
    rintro _ _ ⟨g, t, hg, hperm, ht, hown, rfl⟩
    exact .ban hg ht hperm hown
  | assignRole g u r =>
    refine .map fun db => assignRole_wp.mono ?_ fun _ _ => unchanged
    rintro _ _ ⟨g, t, role, m, -, -, -, hm, hrole, -, hguild, h | rfl⟩
    · exact unchanged h
    · refine .setRoles hm.1 fun x hx => ?_
      rcases List.mem_append.mp hx with hx | hx
      · exact ⟨(mem_rolesOf hx).1, .inl (mem_rolesOf hx).2⟩
      · obtain rfl := List.mem_singleton.mp hx
        exact ⟨hrole, .inr (hguild.trans hm.2.1.symm)⟩
  | removeRole g u r =>
    refine .map fun db => removeRole_wp.mono ?_ fun _ _ => unchanged
    rintro _ _ ⟨g, t, m, -, -, -, hm, rfl⟩
    refine .setRoles hm.1 fun x hx => ?_
    have hx := mem_rolesOf (List.mem_filter.mp hx).1
    exact ⟨hx.1, .inl hx.2⟩
  | createRole g d =>
    refine .map fun db => createRole_wp.mono ?_ fun _ _ => unchanged
    rintro _ _ ⟨g, -, hperm, hid, hguild, hpos, hmanaged, hmask, rfl⟩
    exact .createRole hid (hguild ▸ hperm.exists_guild) hpos hmanaged hmask
  | updateRole g r d =>
    refine .map fun db => updateRole_wp.mono ?_ fun _ _ => unchanged
    rintro _ _ ⟨g, role, mask, f, -, -, hrole, -, -, hmanaged, hmask, hf, hnew, rfl⟩
    exact .updateRole hrole hmanaged hf hmask hnew
  | deleteRole g r =>
    refine .map fun db => deleteRole_wp.mono ?_ fun _ _ => unchanged
    rintro _ _ ⟨g, role, -, -, hrole, -, -, hmanaged, rfl⟩
    exact .deleteRole hrole hmanaged
  | createCategory g d =>
    refine .map fun db => createCategory_wp.mono ?_ fun _ _ => unchanged
    rintro _ _ ⟨g, -, hperm, hid, hguild, rfl⟩
    exact .createCategory hid (hguild ▸ hperm.exists_guild)
  | deleteCategory g c =>
    refine .map fun db => deleteCategory_wp.mono ?_ fun _ _ => unchanged
    rintro _ _ ⟨g, c, -, -, -, rfl⟩
    exact .deleteCategory
  | createChannel g d =>
    refine .map fun db => createChannel_wp.mono ?_ fun _ _ => unchanged
    rintro _ _ ⟨g, -, hperm, hid, hguild, hcat, rfl⟩
    obtain ⟨guild, hmem, rfl⟩ := hperm.exists_guild
    exact .createChannel hid (.inr ⟨guild, hmem, hguild, hcat⟩)
  | findAll => exact .map fun db => .same
  | findOne g =>
    refine .map fun db => ?_
    simp only [findOne, wp_bind, wp_uuidOf]
    refine ⟨fun g _ => findGuild_wp.mono ?_ ?_, fun _ => .same⟩
    · exact fun _ _ h => unchanged h.1
    · exact fun _ _ h => unchanged h.1
  | previewByInvite code =>
    refine .map fun db => ?_
    simp only [getByInviteCode, wp_bind, wp_query, wp_orThrow]
    exact ⟨fun _ _ => .same, fun _ => .same⟩
  | getMembers g =>
    refine .map fun db => ?_
    simp only [getMembers, wp_bind, wp_uuidOf]
    refine ⟨fun g _ => getMemberOrThrow_wp.mono ?_ ?_, fun _ => .same⟩
    · exact fun _ _ h => unchanged h.1
    · exact fun _ _ h => unchanged h.1
  | getRoles g =>
    refine .map fun db => ?_
    simp only [getRoles, wp_bind, wp_uuidOf]
    refine ⟨fun g _ => getMemberOrThrow_wp.mono ?_ ?_, fun _ => .same⟩
    · exact fun _ _ h => unchanged h.1
    · exact fun _ _ h => unchanged h.1
  | getChannels g =>
    refine .map fun db => ?_
    simp only [getChannels, wp_bind, wp_uuidOf]
    refine ⟨fun g _ => getMemberOrThrow_wp.mono ?_ ?_, fun _ => .same⟩
    · rintro m _ ⟨rfl, -⟩
      simp only [wp_query, wp_orThrow]
      exact ⟨fun _ _ => .same, fun _ => .same⟩
    · exact fun _ _ h => unchanged h.1

/-! ### The other controllers -/

theorem usersController_changes (r : UserRoute) :
    Changes env user (.users r) (usersController X env r) := by
  have unchanged : ∀ {db db' : Database}, db' = db → Change env user db (.users r) db' :=
    fun h => h ▸ .same
  cases r with
  | create d =>
    refine .map fun db => UsersService.create_wp.mono ?_ fun _ _ h => unchanged h.1
    rintro _ _ ⟨-, rfl⟩
    exact .elsewhere rfl ⟨rfl, rfl, rfl, rfl, rfl⟩
  | findAll => exact .map fun db => .same
  | search q => exact .map fun db => wp_bind.mpr (wp_texts.mpr ⟨fun _ => .same, fun _ => .same⟩)
  | findOne id =>
    exact .map fun db =>
      UsersService.findById_wp.mono (fun _ _ => unchanged) fun _ _ => unchanged
  | update id d =>
    refine .map fun db => UsersService.update_wp.mono ?_ fun _ _ h => unchanged h.1
    rintro _ _ ⟨u, -, ⟨old, role, f, -, -, -, rfl⟩, -⟩
    exact .elsewhere rfl ⟨rfl, rfl, rfl, rfl, rfl⟩
  | remove id =>
    refine .map fun db => UsersService.remove_wp.mono ?_ fun _ _ => unchanged
    rintro _ _ ⟨u, -, rfl⟩
    exact .deleteUser

theorem changes_deleteRow (id : Uuid) : Changes env user route (ChannelsService.deleteRow id) := by
  intro db
  simp only [ChannelsService.deleteRow, wp_bind, wp_query, wp_throwIf, wp_write]
  exact ⟨fun _ => .deleteChannel, fun _ => .same⟩

theorem channelsController_changes (r : ChannelRoute) :
    Changes env user (.channels r) (channelsController X env user r) := by
  have unchanged : ∀ {db db' : Database}, db' = db → Change env user db (.channels r) db' :=
    fun h => h ▸ .same
  cases r with
  | create d =>
    refine .map fun db => ?_
    simp only [ChannelsService.create, wp_bind, wp_texts, wp_column, wp_query, wp_references,
      wp_write, wp_pure]
    refine ⟨fun _ => ⟨fun isPrivate _ => ⟨fun _ => ?_, fun _ => .same⟩, fun _ => .same⟩,
      fun _ => .same⟩
    exact .createChannel rfl (.inl ⟨rfl, rfl⟩)
  | findAll => exact .map fun db => .same
  | search q => exact .map fun db => wp_bind.mpr (wp_texts.mpr ⟨fun _ => .same, fun _ => .same⟩)
  | findOne id =>
    exact .map fun db =>
      ChannelsService.findOne_wp.mono (fun _ _ => unchanged) fun _ _ => unchanged
  | update id d =>
    refine .map fun db => ?_
    simp only [ChannelsService.update, wp_bind, wp_uuidOf]
    refine ⟨fun key _ => ?_, fun _ => .same⟩
    refine ChannelsService.findChannel_wp.mono ?_ fun _ _ => unchanged
    rintro channel _ ⟨rfl, -, -⟩
    rw [wp_throwIf]
    refine ⟨fun _ => ChannelsService.updateRow_wp.mono ?_ fun _ _ => unchanged, fun _ => .same⟩
    -- the channel is read again after the write, and this may throw
    rintro _ _ ⟨f, hf, rfl⟩
    refine ChannelsService.findOne_wp.mono ?_ ?_
    · rintro _ _ rfl
      exact .updateChannel hf
    · rintro _ _ rfl
      exact .updateChannel hf
  | remove id =>
    refine .map fun db => ?_
    simp only [ChannelsService.remove, wp_bind, wp_uuidOf]
    refine ⟨fun key _ => ?_, fun _ => .same⟩
    refine ChannelsService.findChannel_wp.mono ?_ fun _ _ => unchanged
    rintro channel _ ⟨rfl, -, -⟩
    rw [wp_throwIf]
    exact ⟨fun _ => changes_deleteRow key _, fun _ => .same⟩

theorem adminController_changes (r : AdminRoute) :
    Changes env user (.admin r) (adminController env user r) := by
  have admin : Keeps SameGuilds (AdminService.requireAdmin user) := .throwIf _ _
  have outside : ∀ {m : Service Body}, Keeps SameGuilds m → Changes env user (.admin r) m :=
    .of_keeps rfl
  cases r with
  | getStats => exact outside (.map (.bind admin fun _ => .query _))
  | banUser id reason =>
    refine outside (.map (.bind admin fun _ => .bind (keeps_uuidOf _) fun key => ?_))
    exact .bind (keeps_texts _) fun _ => .write fun _ => ⟨rfl, rfl, rfl, rfl, rfl⟩
  | unbanUser id =>
    refine outside (.map (.bind admin fun _ => .bind (keeps_uuidOf _) fun key => ?_))
    exact .write fun _ => ⟨rfl, rfl, rfl, rfl, rfl⟩
  | deleteChannel id =>
    refine .map fun db => ?_
    simp only [AdminService.deleteChannel, AdminService.requireAdmin, wp_bind, wp_throwIf,
      wp_uuidOf]
    exact ⟨fun _ => ⟨fun key _ => changes_deleteRow key db, fun _ => .same⟩, fun _ => .same⟩
  | deleteMessage id =>
    refine outside (.map (.bind admin fun _ => .bind (keeps_uuidOf _) fun key => ?_))
    exact .write fun _ => ⟨rfl, rfl, rfl, rfl, rfl⟩
  | getUserActivity id =>
    exact outside (.map (.bind admin fun _ => .bind (keeps_uuidOf _) fun _ => .query _))

/-! ### Every request -/

theorem guarded_changes (route : Route) : Changes env user route (guarded X env user route) := by
  cases route with
  | auth r => exact fun _ => .same
  | users r => exact usersController_changes r
  | channels r => exact channelsController_changes r
  | messages r =>
    refine .of_keeps rfl (keeps_messagesController (fun _ _ _ => ⟨rfl, rfl, rfl, rfl, rfl⟩) ?_)
    exact fun _ _ _ _ _ => ⟨rfl, rfl, rfl, rfl, rfl⟩
  | events r =>
    exact .of_keeps rfl (keeps_eventsController (fun _ _ => ⟨rfl, rfl, rfl, rfl, rfl⟩) r)
  | admin r => exact adminController_changes r
  | guilds r => exact guildsController_changes r

/-- A request leaves the tables of the guilds alone, or changes them for its authenticated
caller. -/
def Handled (env : Env) (s : Server) (req : Request) (s' : Server) : Prop :=
  SameGuilds s.db s'.db ∨
    ∃ user, Authenticated env s req.token user ∧ Change env user s.db req.route s'.db

theorem Enrolled.sameGuilds {db' : Database} (h : Enrolled env db db') : SameGuilds db db' := by
  rcases h with rfl | ⟨u, -, -, rfl⟩
  · exact refl_of SameGuilds _
  · exact ⟨rfl, rfl, rfl, rfl, rfl⟩

theorem serve_handled (s : Server) (i : Env × Request) :
    Handled i.1 s i.2 (serve X s i).2 := by
  have hwp : wp (handle X i.1 i.2) (fun _ s' => Handled i.1 s i.2 s')
      (fun _ s' => Handled i.1 s i.2 s') s := by
    refine wp_handle ?_ ?_ fun _ => .inl (refl_of SameGuilds _)
    · intro r _
      refine authController_enrolled.mono ?_ ?_
      · exact fun _ _ h => .inl h.sameGuilds
      · exact fun _ _ h => .inl h.sameGuilds
    · intro user huser _
      refine (guarded_changes i.2.route s.db).mono ?_ ?_
      · exact fun _ _ h => .inr ⟨user, huser, h⟩
      · exact fun _ _ h => .inr ⟨user, huser, h⟩
  exact hwp.final

/-- The routes of guilds and channels keep the messages. -/
theorem Change.messages_eq {db' : Database} (h : Change env user db route db')
    (hroute : route.ofGuilds = true) : db'.messages = db.messages := by
  cases h with
  | elsewhere hother _ => exact Bool.noConfusion (hother.symm.trans hroute)
  | _ => rfl

/-- The routes of guilds and channels keep the users. -/
theorem Change.users_eq {db' : Database} (h : Change env user db route db')
    (hroute : route.ofGuilds = true) : db'.users = db.users := by
  cases h with
  | elsewhere hother _ => exact Bool.noConfusion (hother.symm.trans hroute)
  | deleteUser => exact Bool.noConfusion hroute
  | _ => rfl

end VoxLink
