import VoxLink.Accounts.Bans
import VoxLink.Guilds.Revocations

/-! The spread of permissions. No operation but an assignment of a role and an edit of its mask
gives anybody more than he had, and neither compares what it gives with what its caller has. -/

namespace VoxLink

open ProofKit Prog GuildsService

variable {X : Externals} {env : Env} {user : Profile} {db db' : Database} {s : Server}
  {g u v : Uuid}
  {p : Permission}

/-- What anybody may do in the guild in `db'`, he or `u` might do in `db`. -/
def NoAmplification (db db' : Database) (g u : Uuid) : Prop :=
  ∀ v p, Permitted db' g v p → Permitted db g v p ∨ Permitted db g u p

/-- The routes by which a user enters a guild. -/
def GuildRoute.enters : GuildRoute → Bool
  | .create _ | .joinByInvite _ => true
  | _ => false

/-- The request assigns a role of the guild with a permission that neither the target nor the caller
has, or gives the role such a permission while a member without it has the role. -/
def Escalates (user : Profile) (db : Database) (g : Uuid) : GuildRoute → Prop
  | .assignRole text target roleId => Uuid.parse text = some g ∧
      ∃ t, Uuid.parse target = some t ∧
      ∃ role ∈ db.guildRoles, Uuid.parse roleId = some role.id ∧ role.guildId = g ∧
      ∃ p, role.hasPermission p = true ∧ ¬Permitted db g t p ∧ ¬Permitted db g user.id p
  | .updateRole text roleId d => Uuid.parse text = some g ∧
      ∃ role ∈ db.guildRoles, Uuid.parse roleId = some role.id ∧ role.guildId = g ∧
      ∃ mask, newMask d role.permissions = some mask ∧
      ∃ p, { role with permissions := mask }.hasPermission p = true ∧ ¬Permitted db g user.id p ∧
        ∃ v m, ActiveMember db g v m ∧ role.id ∈ m.roles ∧ ¬Permitted db g v p
  | _ => False

/-! ### Operations that give nothing -/

/-- The owner of a guild is as before, and a permission of a member in `db'` comes from one of a
member, or from `u`. -/
theorem noAmplification_of
    (hguild : ∀ guild', db'.guildById g = some guild' →
      ∃ guild, db.guildById g = some guild ∧ guild.ownerId = guild'.ownerId)
    (hmember : ∀ v m' p, ActiveMember db' g v m' → hasPermission db' m' p = true →
      (∃ m, ActiveMember db g v m ∧ hasPermission db m p = true) ∨
        Permitted db g v p ∨ Permitted db g u p) :
    NoAmplification db db' g u := by
  rintro v p ⟨guild', hguild', hallowed⟩
  obtain ⟨guild, hfound, howner⟩ := hguild guild' hguild'
  rcases hallowed with howns | ⟨m', hm', hp⟩
  · exact .inl ⟨guild, hfound, .inl (howner.trans howns)⟩
  · rcases hmember v m' p hm' hp with hold | hold
    · exact .inl ⟨guild, hfound, .inr hold⟩
    · exact hold

theorem noAmplification_refl : NoAmplification db db g u := fun _ _ => .inl

theorem Reduced.noAmplification (hred : Reduced db db') : NoAmplification db db' g u := by
  refine noAmplification_of (fun guild h => ⟨guild, hred.guild g guild h, rfl⟩) ?_
  rintro v m' p ⟨hm', hg, hu, hactive⟩ hp
  have hmem : m' ∈ db'.activeSeats g v := List.mem_filter.mpr ⟨hm', by simp [hg, hu, hactive]⟩
  rcases hred.seats g v with hnone | ⟨f, hsame, hroles⟩
  · simp [hnone] at hmem
  · rw [hsame] at hmem
    obtain ⟨m, hm, rfl⟩ := List.mem_map.mp hmem
    obtain ⟨hold, hseat⟩ := List.mem_filter.mp hm
    exact .inl ⟨m, ⟨hold, by simpa using hseat⟩, hred.hasPermission (hroles m hm) hp⟩

/-- A change outside the memberships and the roles of members. -/
theorem noAmplification_same (hmembers : db'.guildMembers = db.guildMembers)
    (hguild : ∀ guild', db'.guildById g = some guild' →
      ∃ guild, db.guildById g = some guild ∧ guild.ownerId = guild'.ownerId)
    (hroles : ∀ m ∈ db.guildMembers, ∀ id ∈ m.roles, db'.roleById id = db.roleById id) :
    NoAmplification db db' g u := by
  refine noAmplification_of hguild ?_
  rintro v m p ⟨hm, hseat⟩ hp
  rw [hmembers] at hm
  have hsame : db'.rolesOf m = db.rolesOf m := by
    unfold Database.rolesOf
    exact List.filterMap_congr (hroles m hm)
  rw [hasPermission, hsame] at hp
  exact .inl ⟨m, ⟨hm, hseat⟩, hp⟩

theorem noAmplification_updateGuild {h : Uuid} {f : Guild → Guild} (hf : KeepsOwner f) :
    NoAmplification db { db with guilds := Rows.modify (·.id = h) f db.guilds } g u := by
  refine noAmplification_same rfl ?_ fun _ _ _ _ => rfl
  intro guild' hfound
  simp only [Database.guildById, Rows.find?_modify_map fun x => (hf x).1,
    Option.map_eq_some_iff] at hfound
  obtain ⟨guild, hguild, rfl⟩ := hfound
  refine ⟨guild, hguild, ?_⟩
  split
  · exact (hf guild).2.symm
  · rfl

theorem noAmplification_createRole (hrefs : Scoped db) {r : GuildRole} :
    NoAmplification db { db with guildRoles := db.guildRoles ++ [r] } g u := by
  refine noAmplification_same rfl (fun guild h => ⟨guild, h, rfl⟩) fun m hm id hid => ?_
  -- the links lead to roles that were there
  obtain ⟨x, hx, hxid, -⟩ := hrefs.link m hm id hid
  have hfound : (db.guildRoles.find? (·.id = id)).isSome = true :=
    List.find?_isSome.mpr ⟨x, hx, by simpa using hxid⟩
  show (db.guildRoles ++ [r]).find? _ = db.guildRoles.find? _
  rw [List.find?_append]
  exact Option.or_of_isSome hfound

/-! ### Assignments -/

section Assignment

variable {t h : Uuid} {m : GuildMember} {role : GuildRole}

/-- The roles stored for a member are found again. -/
theorem mem_rolesOf_stored (hids : UniqueIds db) {roles : List GuildRole} {x : GuildMember}
    (hroles : ∀ r ∈ roles, r ∈ db.guildRoles) {r : GuildRole} :
    r ∈ db.rolesOf { x with roles := (roles.map (·.id)).eraseDups } ↔ r ∈ roles := by
  simp only [Database.rolesOf, List.mem_filterMap, List.mem_eraseDups, List.mem_map]
  constructor
  · rintro ⟨_, ⟨y, hy, rfl⟩, hfound⟩
    rw [roleById_of_mem hids (hroles y hy)] at hfound
    rw [← Option.some.inj hfound]
    exact hy
  · intro hr
    exact ⟨r.id, ⟨r, hr, rfl⟩, roleById_of_mem hids (hroles r hr)⟩

theorem mem_guildRoles_of_assigned (hrole : role ∈ db.guildRoles) :
    ∀ r ∈ db.rolesOf m ++ [role], r ∈ db.guildRoles := by
  intro r hr
  rcases List.mem_append.mp hr with hr | hr
  · exact (mem_rolesOf hr).1
  · exact List.mem_singleton.mp hr ▸ hrole

variable (hcons : Consistent db) (hm : ActiveMember db h t m) (hrole : role ∈ db.guildRoles)
include hcons hm hrole

/-- After an assignment a member has a permission from a role that he had, or from the new one. -/
theorem permission_after_assignment {m' : GuildMember}
    (hm' : ActiveMember (withRoles db m (db.rolesOf m ++ [role])) g v m')
    (hp : hasPermission (withRoles db m (db.rolesOf m ++ [role])) m' p = true) :
    (∃ m, ActiveMember db g v m ∧ hasPermission db m p = true) ∨
      (g = h ∧ v = t ∧ role.hasPermission p = true) := by
  obtain ⟨hmem, hg, hv, hactive⟩ := hm'
  obtain ⟨old, hold, rfl⟩ := Rows.mem_modify.mp hmem
  by_cases hid : old.id = m.id
  · obtain rfl : old = m := Rows.eq_of_nodup hcons.ids.members hold hm.1 hid
    simp only [decide_true, if_true] at hg hv hactive hp
    obtain ⟨r, hr, hmask⟩ := List.any_eq_true.mp hp
    rcases List.mem_append.mp ((mem_rolesOf_stored hcons.ids
      (mem_guildRoles_of_assigned hrole)).mp hr) with hr | hr
    · exact .inl ⟨old, ⟨hold, hg, hv, hactive⟩, List.any_eq_true.mpr ⟨r, hr, hmask⟩⟩
    · obtain rfl := List.mem_singleton.mp hr
      exact .inr ⟨hg.symm.trans hm.2.1, hv.symm.trans hm.2.2.1, hmask⟩
  · simp only [hid, decide_false, Bool.false_eq_true, if_false] at hg hv hactive hp
    exact .inl ⟨old, ⟨hold, hg, hv, hactive⟩, hp⟩

/-- After an assignment the target has the permissions of the role. -/
theorem permitted_after_assignment (hguild : (db.guildById h).isSome = true)
    (hp : role.hasPermission p = true) :
    Permitted (withRoles db m (db.rolesOf m ++ [role])) h t p := by
  obtain ⟨guild, hfound⟩ := Option.isSome_iff_exists.mp hguild
  refine ⟨guild, hfound, .inr ⟨_, ⟨Rows.mem_modify.mpr ⟨m, hm.1, rfl⟩, ?_⟩, ?_⟩⟩
  · simp [hm.2.1, hm.2.2.1, hm.2.2.2]
  · simp only [decide_true, if_true]
    refine List.any_eq_true.mpr ⟨role, ?_, hp⟩
    refine (mem_rolesOf_stored hcons.ids (mem_guildRoles_of_assigned hrole)).mpr ?_
    exact List.mem_append_right _ (List.mem_singleton.mpr rfl)

end Assignment

theorem GuildsService.Permitted.isSome (h : Permitted db g v p) :
    (db.guildById g).isSome = true := by
  obtain ⟨guild, hguild, -⟩ := h
  exact Option.isSome_of_eq_some hguild

theorem GuildsService.ActiveMember.permitted {m : GuildMember} (hm : ActiveMember db g v m)
    (hguild : (db.guildById g).isSome = true) (hp : hasPermission db m p = true) :
    Permitted db g v p := by
  obtain ⟨guild, hfound⟩ := Option.isSome_iff_exists.mp hguild
  exact ⟨guild, hfound, .inr ⟨m, hm, hp⟩⟩

/-- An assignment amplifies exactly when it escalates. -/
theorem assignRole_amplifies (hcons : Consistent db) {text target roleId : String} :
    wp (assignRole env text target roleId user)
      (fun _ db' => NoAmplification db db' g user.id ↔
        ¬Escalates user db g (.assignRole text target roleId))
      (fun _ db' => db' = db) db := by
  refine assignRole_links_wp.mono ?_ fun _ _ h => h
  rintro _ db' ⟨h, t, role, m, hh, hperm, ht, hm, hrole, hid, hguild, hdb⟩
  constructor
  · rintro hno ⟨hg, t', ht', role', hrole', hid', -, p, hp, htarget, hcaller⟩
    obtain rfl := Option.some.inj (hh.symm.trans hg)
    obtain rfl := Option.some.inj (ht.symm.trans ht')
    have hsame : role' = role :=
      Rows.eq_of_nodup hcons.ids.roles hrole' hrole (Option.some.inj (hid'.symm.trans hid))
    rw [hsame] at hp
    have hafter : Permitted db' h t p := by
      rcases hdb with ⟨rfl, r, hr, hrid⟩ | rfl
      · -- the target had the role
        have hrr : r = role := Rows.eq_of_nodup hcons.ids.roles (mem_rolesOf hr).1 hrole hrid
        exact hm.permitted hperm.isSome (List.any_eq_true.mpr ⟨role, hrr ▸ hr, hp⟩)
      · exact permitted_after_assignment hcons hm hrole hperm.isSome hp
    exact (hno t p hafter).elim htarget hcaller
  · intro hnot
    rcases hdb with ⟨rfl, -⟩ | rfl
    · exact noAmplification_refl
    · refine noAmplification_of (fun guild h => ⟨guild, h, rfl⟩) fun v m' p hm' hp => ?_
      rcases permission_after_assignment hcons hm hrole hm' hp with hold | ⟨rfl, rfl, hmask⟩
      · exact .inl hold
      · refine .inr ?_
        by_contra hneither
        rw [not_or] at hneither
        exact hnot ⟨hh, v, ht, role, hrole, hid, hguild, p, hmask, hneither⟩

/-! ### Edits of a mask -/

section Edit

variable {h : Uuid} {role : GuildRole} {mask : Int} {f : GuildRole → GuildRole}

/-- A role after the edit. -/
theorem roleById_edited (hf : KeepsStanding f) (id : Uuid) :
    ({ db with guildRoles := Rows.modify (·.id = role.id) f db.guildRoles }
      : Database).roleById id =
      (db.roleById id).map fun r => if r.id = role.id then f r else r := by
  show (Rows.modify _ f db.guildRoles).find? _ = _
  rw [Rows.find?_modify_map fun r => (hf r).1]
  simp only [decide_eq_true_eq]
  rfl

theorem hasPermission_edited (hmask : ∀ r, (f r).permissions = mask) (p : Permission) :
    (f role).hasPermission p = { role with permissions := mask }.hasPermission p := by
  simp only [GuildRole.hasPermission, hmask]

variable (hcons : Consistent db) (hrole : role ∈ db.guildRoles) (hf : KeepsStanding f)
  (hmask : ∀ r, (f r).permissions = mask)
include hcons hrole hf hmask

/-- After an edit a member has a permission from a role that was not edited, or from the new
mask. -/
theorem permission_after_edit {m : GuildMember}
    (hp : hasPermission { db with guildRoles := Rows.modify (·.id = role.id) f db.guildRoles } m p =
      true) :
    hasPermission db m p = true ∨
      (role.id ∈ m.roles ∧ { role with permissions := mask }.hasPermission p = true) := by
  obtain ⟨r', hr', hgives⟩ := List.any_eq_true.mp hp
  obtain ⟨id, hid, hfound⟩ := List.mem_filterMap.mp hr'
  rw [roleById_edited hf, Option.map_eq_some_iff] at hfound
  obtain ⟨r, hr, rfl⟩ := hfound
  obtain ⟨hmem, hlinked⟩ := mem_rolesOf (List.mem_filterMap.mpr ⟨id, hid, hr⟩ : r ∈ db.rolesOf m)
  split at hgives
  · rename_i hsame
    obtain rfl : r = role := Rows.eq_of_nodup hcons.ids.roles hmem hrole hsame
    exact .inr ⟨hlinked, hasPermission_edited hmask p ▸ hgives⟩
  · exact .inl (List.any_eq_true.mpr ⟨r, List.mem_filterMap.mpr ⟨id, hid, hr⟩, hgives⟩)

/-- After an edit every member with the role has the permissions of its new mask. -/
theorem hasPermission_after_edit {m : GuildMember} (hlinked : role.id ∈ m.roles)
    (hp : { role with permissions := mask }.hasPermission p = true) :
    hasPermission { db with guildRoles := Rows.modify (·.id = role.id) f db.guildRoles } m p =
      true := by
  refine List.any_eq_true.mpr ⟨f role, List.mem_filterMap.mpr ⟨role.id, hlinked, ?_⟩, ?_⟩
  · rw [roleById_edited hf, roleById_of_mem hcons.ids hrole, Option.map_some, if_pos rfl]
  · rw [hasPermission_edited hmask, hp]

end Edit

/-- An edit amplifies exactly when it escalates. -/
theorem updateRole_amplifies (hcons : Consistent db) {text roleId : String} {d : CreateRoleDto} :
    wp (updateRole env text roleId d user)
      (fun _ db' => NoAmplification db db' g user.id ↔
        ¬Escalates user db g (.updateRole text roleId d))
      (fun _ db' => db' = db) db := by
  refine updateRole_wp.mono ?_ fun _ _ h => h
  rintro _ db' ⟨h, role, mask, f, hh, hperm, hrole, hid, hguild, -, hmask, hf, hnew, rfl⟩
  constructor
  · rintro hno ⟨hg, role', hrole', hid', -, mask', hmask', p, hp, hcaller, v, m, hm, hlinked, hv⟩
    obtain rfl := Option.some.inj (hh.symm.trans hg)
    obtain rfl : role' = role :=
      Rows.eq_of_nodup hcons.ids.roles hrole' hrole (Option.some.inj (hid'.symm.trans hid))
    obtain rfl := Option.some.inj (hmask.symm.trans hmask')
    have hgives := hasPermission_after_edit hcons hrole hf hnew hlinked hp
    obtain ⟨guild, hfound, -⟩ := hperm
    exact (hno v p ⟨guild, hfound, .inr ⟨m, hm, hgives⟩⟩).elim hv hcaller
  · intro hnot
    refine noAmplification_of (fun guild h => ⟨guild, h, rfl⟩) fun v m p hm hp => ?_
    rcases permission_after_edit hcons hrole hf hnew hp with hold | ⟨hlinked, hgives⟩
    · exact .inl ⟨m, hm, hold⟩
    · refine .inr ?_
      by_contra hneither
      rw [not_or] at hneither
      -- the role is one of the guild of its member
      obtain ⟨x, hx, hxid, hxguild⟩ := hcons.refs.link m hm.1 role.id hlinked
      obtain rfl : x = role := Rows.eq_of_nodup hcons.ids.roles hx hrole hxid
      have hgh : h = g := hguild.symm.trans (hxguild.trans hm.2.1)
      exact hnot ⟨hgh ▸ hh, x, hrole, hid, hgh ▸ hguild, mask, hmask, p, hgives, hneither.2, v, m,
        hm, hlinked, hneither.1⟩

/-! ### Every operation -/

theorem guildsController_amplifies (X : Externals) (hcons : Consistent db) {r : GuildRoute}
    (hr : r.enters = false) :
    wp (guildsController env user r)
      (fun _ db' => NoAmplification db db' g user.id ↔ ¬Escalates user db g r)
      (fun _ db' => NoAmplification db db' g user.id) db := by
  -- every operation but two amplifies nothing
  have gentle : ∀ {db' : Database}, (∀ g, ¬Escalates user db g r) →
      NoAmplification db db' g user.id →
      (NoAmplification db db' g user.id ↔ ¬Escalates user db g r) :=
    fun hnot hno => ⟨fun _ => hnot _, fun _ => hno⟩
  have unchanged : ∀ {db' : Database}, db' = db → NoAmplification db db' g user.id :=
    fun h => h ▸ noAmplification_refl
  have reads : (Route.guilds r).writes = false → (∀ g, ¬Escalates user db g r) →
      wp (guildsController env user r)
        (fun _ db' => NoAmplification db db' g user.id ↔ ¬Escalates user db g r)
        (fun _ db' => NoAmplification db db' g user.id) db := by
    intro hreads hnot
    refine (reads_guarded (X := X) hreads db).mono ?_ ?_
    · exact fun _ _ h => gentle hnot (unchanged h.symm)
    · exact fun _ _ h => unchanged h.symm
  cases r with
  | assignRole text target roleId =>
    exact wp_map.mpr ((assignRole_amplifies hcons).mono (fun _ _ h => h) fun _ _ => unchanged)
  | updateRole text roleId d =>
    exact wp_map.mpr ((updateRole_amplifies hcons).mono (fun _ _ h => h) fun _ _ => unchanged)
  | update text d =>
    refine wp_map.mpr (update_wp.mono ?_ ?_)
    · rintro _ _ ⟨_, f, -, -, hf, rfl⟩
      exact gentle (fun _ => not_false) (noAmplification_updateGuild hf)
    · rintro _ _ (h | ⟨_, f, -, -, hf, rfl, -⟩)
      · exact unchanged h
      · exact noAmplification_updateGuild hf
  | regenerateInvite text =>
    refine wp_map.mpr (regenerateInviteCode_wp.mono ?_ fun _ _ => unchanged)
    rintro _ _ ⟨_, f, -, -, hf, rfl⟩
    exact gentle (fun _ => not_false) (noAmplification_updateGuild hf)
  | createRole text d =>
    refine wp_map.mpr (createRole_wp.mono ?_ fun _ _ => unchanged)
    rintro role _ ⟨_, -, -, -, -, -, -, -, rfl⟩
    exact gentle (fun _ => not_false) (noAmplification_createRole hcons.refs)
  | createCategory text d =>
    refine wp_map.mpr (createCategory_wp.mono ?_ fun _ _ => unchanged)
    rintro _ _ ⟨_, -, -, -, -, rfl⟩
    exact gentle (fun _ => not_false) (noAmplification_same rfl (fun guild h => ⟨guild, h, rfl⟩)
      fun _ _ _ _ => rfl)
  | deleteCategory text c =>
    refine wp_map.mpr (deleteCategory_wp.mono ?_ fun _ _ => unchanged)
    rintro _ _ ⟨_, _, -, -, -, rfl⟩
    exact gentle (fun _ => not_false) (noAmplification_same rfl (fun guild h => ⟨guild, h, rfl⟩)
      fun _ _ _ _ => rfl)
  | createChannel text d =>
    refine wp_map.mpr (createChannel_wp.mono ?_ fun _ _ => unchanged)
    rintro _ _ ⟨_, -, -, -, -, -, rfl⟩
    exact gentle (fun _ => not_false) (noAmplification_same rfl (fun guild h => ⟨guild, h, rfl⟩)
      fun _ _ _ _ => rfl)
  | kickMember _ _ | banMember _ _ | removeRole _ _ _ | deleteRole _ _ | delete _ =>
    refine (guildsController_reduced hcons.ids rfl).mono ?_ fun _ _ => unchanged
    exact fun _ _ hred => gentle (fun _ => not_false) hred.noAmplification
  | findAll | findOne _ | previewByInvite _ | getMembers _ | getRoles _ | getChannels _ =>
    exact reads rfl fun _ => not_false
  | create _ | joinByInvite _ => exact Bool.noConfusion hr

/-! ### Runs -/

/-- A request to a guild, other than to enter one, by a user of `S` and without an escalation. -/
def GentleStep (S : Set Uuid) (g : Uuid) (s : Server) (i : Env × Request) : Prop :=
  FreshStep s i ∧ ∃ r, i.2.route = .guilds r ∧ r.enters = false ∧
    ∀ user, Authenticated i.1 s i.2.token user → user.id ∈ S ∧ ¬Escalates user s.db g r

theorem step_gentle {S : Set Uuid} {i : Env × Request} (hs : Reached X s)
    (hstep : GentleStep S g s i) (hp : Permitted (serve X s i).2.db g v p) :
    Permitted s.db g v p ∨ ∃ u ∈ S, Permitted s.db g u p := by
  obtain ⟨-, r, hroute, henters, hcallers⟩ := hstep
  have hwp : wp (handle X i.1 i.2)
      (fun _ s' => Permitted s'.db g v p → Permitted s.db g v p ∨ ∃ u ∈ S, Permitted s.db g u p)
      (fun _ s' => Permitted s'.db g v p → Permitted s.db g v p ∨ ∃ u ∈ S, Permitted s.db g u p)
      s := by
    refine wp_handle ?_ ?_ fun _ => .inl
    · intro r' hauth
      rw [hroute] at hauth
      exact Route.noConfusion hauth
    · intro user huser _
      obtain ⟨hS, hnot⟩ := hcallers user huser
      have spread : ∀ {db'}, NoAmplification s.db db' g user.id → Permitted db' g v p →
          Permitted s.db g v p ∨ ∃ u ∈ S, Permitted s.db g u p :=
        fun hno hp => (hno v p hp).imp_right fun hu => ⟨user.id, hS, hu⟩
      rw [hroute]
      refine (guildsController_amplifies (g := g) X hs.consistent henters).mono ?_ ?_
      · exact fun _ _ h => spread (h.mpr hnot)
      · exact fun _ _ h => spread h
  exact hwp.final hp

theorem run_gentle {S : Set Uuid} {is : List (Env × Request)} (hs : Reached X s)
    (hsteps : Along (serve X) (GentleStep S g) s is)
    (hp : Permitted (run (serve X) s is).db g v p) :
    Permitted s.db g v p ∨ ∃ u ∈ S, Permitted s.db g u p := by
  induction is generalizing s with
  | nil => exact .inl hp
  | cons i is ih =>
    obtain ⟨hfirst, hrest⟩ := hsteps
    have hnext : Reached X (serve X s i).2 := hs.next hfirst.1
    rcases ih hnext hrest hp with hv | ⟨u, hu, hp⟩
    · exact step_gentle hs hfirst hv
    · exact (step_gentle hs hfirst hp).elim (fun h => .inr ⟨u, hu, h⟩) .inr

/-- In every reachable state, an operation on guilds that succeeds, other than to enter one, gives
nobody a permission that its caller lacks exactly when it does not escalate; and on every stretch of
a run of such operations nobody gets a permission that none of the callers had before. -/
theorem no_amplification_iff (hs : Reached X s) :
    (∀ env user g (r : GuildRoute), r.enters = false →
      (guildsController env user r).passes s.db = true →
      (NoAmplification s.db ((guildsController env user r).final s.db) g user.id ↔
        ¬Escalates user s.db g r)) ∧
    ∀ g S is, Along (serve X) (GentleStep S g) s is → ∀ v p,
      Permitted (run (serve X) s is).db g v p →
      Permitted s.db g v p ∨ ∃ u ∈ S, Permitted s.db g u p := by
  constructor
  · intro env user g r henters hpasses
    exact (guildsController_amplifies X hs.consistent henters).final_of_passes hpasses
  · exact fun g S is hsteps v p => run_gentle hs hsteps

instance : Decidable (Permitted db g u p) :=
  decidable_of_iff ((db.guildById g).any (fun guild => guild.ownerId = some u ∨
    ∃ m ∈ db.guildMembers, m.guildId = g ∧ m.userId = u ∧ m.status = .active ∧
      hasPermission db m p = true) = true) (by
    simp [Option.any_eq_true, Permitted, ActiveMember, and_assoc])

/-- Alice makes Bob a deputy, who manages the roles of her guild. -/
def bobDeputy : Server :=
  run (serve sampleExternals) Server.empty (guildRun .absent ++
    [byBob 4 (.joinByInvite "code3"),
      byAlice 5 (.createRole sampleGuild.toText ⟨"deputy", .absent, .value 8, .absent⟩),
      byAlice 6 (.assignRole sampleGuild.toText bob.id.toText (sampleUuid 5 0).toText)])

theorem bobDeputy_reached : Reached sampleExternals bobDeputy := ⟨_, by decide +kernel, rfl⟩

/-- Bob makes a role for administrators, which nobody has yet. -/
theorem createRole_gentle :
    NoAmplification bobDeputy.db
      ((guildsController (sampleEnv 7) bob (.createRole sampleGuild.toText
      ⟨"admins", .absent, .value (2 ^ 30), .absent⟩)).final bobDeputy.db) sampleGuild bob.id :=
  ((no_amplification_iff bobDeputy_reached).1 _ _ _ _ rfl (by decide +kernel)).mpr not_false

/-- Bob gives himself the role of an owner. -/
theorem deputy_becomes_administrator :
    let op := guildsController (sampleEnv 7) bob
      (.assignRole sampleGuild.toText bob.id.toText (sampleUuid 3 1).toText)
    Reached sampleExternals bobDeputy ∧ ownerOf bobDeputy.db sampleGuild ≠ some bob.id ∧
      op.passes bobDeputy.db = true ∧
      ¬NoAmplification bobDeputy.db (op.final bobDeputy.db) sampleGuild bob.id := by
  intro op
  refine ⟨bobDeputy_reached, by decide +kernel, by decide +kernel, fun hno => ?_⟩
  have hafter : Permitted (op.final bobDeputy.db) sampleGuild bob.id .administrator := by
    decide +kernel
  have hbefore : ¬Permitted bobDeputy.db sampleGuild bob.id .administrator := by decide +kernel
  exact (hno bob.id .administrator hafter).elim hbefore hbefore

end VoxLink
