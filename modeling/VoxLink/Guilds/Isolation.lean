import VoxLink.Guilds.Invariants

/-! An operation on one guild and the rows of another. Only `deleteCategory` reaches beyond its
guild: it takes every channel out of the category, whatever guild they belong to. -/

namespace VoxLink

open ProofKit Prog GuildsService

variable {X : Externals} {env : Env} {user : Profile} {db db' : Database} {g h : Uuid}

/-- The rows of one guild: its own, its memberships with their links, roles, categories and
channels. -/
structure GuildRows where
  guild : List Guild
  members : List GuildMember
  roles : List GuildRole
  categories : List ChannelCategory
  channels : List Channel
deriving DecidableEq, Repr

def Database.rowsOf (db : Database) (h : Uuid) : GuildRows :=
  { guild := db.guilds.filter (·.id = h)
    members := db.guildMembers.filter (·.guildId = h)
    roles := db.guildRoles.filter (·.guildId = h)
    categories := db.channelCategories.filter (·.guildId = h)
    channels := db.channels.filter (·.guildId = some h) }

/-- The guild that an operation changes. -/
def GuildRoute.target (env : Env) (db : Database) : GuildRoute → Option Uuid
  | .create _ => some (env.uuids 0)
  | .joinByInvite code => (guildByCode code db).map (·.id)
  | .update g _ | .delete g | .regenerateInvite g | .kickMember g _ | .banMember g _
  | .assignRole g _ _ | .removeRole g _ _ | .createRole g _ | .updateRole g _ _ | .deleteRole g _
  | .createCategory g _ | .deleteCategory g _ | .createChannel g _ => Uuid.parse g
  | .findAll | .findOne _ | .previewByInvite _ | .getMembers _ | .getRoles _
  | .getChannels _ => none

/-- The operation deletes a category that a channel of `h` is in. -/
def emptiesCategoryOf (h : Uuid) (db : Database) : GuildRoute → Bool
  | .deleteCategory _ c => db.channels.any fun x =>
      x.guildId = some h ∧ x.categoryId ≠ none ∧ x.categoryId = Uuid.parse c
  | _ => false

/-! ### Statements about other guilds -/

/-- The member of another guild has no link to a role of `g`. -/
theorem Consistent.not_linked (hcons : Consistent db) (hgh : g ≠ h) {m : GuildMember}
    (hm : m ∈ db.guildMembers) (hmh : m.guildId = h) {r : GuildRole} (hr : r ∈ db.guildRoles)
    (hrg : r.guildId = g) : r.id ∉ m.roles := by
  intro hlink
  obtain ⟨x, hx, hxr, hxm⟩ := hcons.refs.link m hm r.id hlink
  obtain rfl := Rows.eq_of_nodup hcons.ids.roles hx hr hxr
  exact hgh (hrg.symm.trans (hxm.trans hmh))

theorem rowsOf_withGuild {guild : Guild} {owner : Uuid} (hgh : guild.id ≠ h) :
    (withGuild env db guild owner).rowsOf h = db.rowsOf h := by
  unfold Database.rowsOf
  congr 1
  · exact Rows.filter_append_of_not (by simpa using hgh)
  · exact Rows.filter_append_of_not (by simpa [newMember] using hgh)
  · exact Rows.filter_append_of_not
      (by simpa [ownerRole, officerRole, memberRole, newRole] using hgh)
  · exact Rows.filter_append_of_not (by simpa [textCategory, voiceCategory] using hgh)
  · exact Rows.filter_append_of_not (by simpa [defaultChannels, newChannel] using hgh)

theorem rowsOf_updateGuild {f : Guild → Guild} (hf : KeepsOwner f) (hgh : g ≠ h) :
    { db with guilds := Rows.modify (·.id = g) f db.guilds }.rowsOf h = db.rowsOf h := by
  unfold Database.rowsOf
  congr 1
  refine Rows.filter_modify_disjoint fun x _ hx => ?_
  simp only [decide_eq_true_eq] at hx
  rw [(hf x).1, hx]
  exact ⟨decide_eq_false hgh, decide_eq_false hgh⟩

theorem rowsOf_deleteGuild (hcons : Consistent db) (hgh : g ≠ h) :
    (db.deleteGuild g).rowsOf h = db.rowsOf h := by
  have other : ∀ {x : Uuid}, decide (x = g) = true → decide (x = h) = false := by
    intro x hx
    exact decide_eq_false fun hxh => hgh ((of_decide_eq_true hx).symm.trans hxh)
  unfold Database.rowsOf
  congr 1
  · exact Rows.filter_remove_disjoint fun _ _ => other
  · -- the links of other guilds are to roles that stay
    simp only [Database.deleteGuild]
    rw [Rows.filter_map_eq]
    · exact Rows.filter_remove_disjoint fun _ _ => other
    · exact fun _ _ => rfl
    · intro m hm hmh
      have hroles : m.roles.filter (· ∉ (db.guildRoles.filter (·.guildId = g)).map (·.id)) =
          m.roles := by
        rw [List.filter_eq_self]
        intro id hid
        simp only [decide_eq_true_eq]
        intro hgone
        obtain ⟨r, hr, rfl⟩ := List.mem_map.mp hgone
        obtain ⟨hr, hrg⟩ := List.mem_filter.mp hr
        exact hcons.not_linked hgh (Rows.mem_remove.mp hm).1 (of_decide_eq_true hmh) hr
          (of_decide_eq_true hrg) hid
      rw [hroles]
  · exact Rows.filter_remove_disjoint fun _ _ => other
  · exact Rows.filter_remove_disjoint fun _ _ => other
  · refine Rows.filter_remove_disjoint fun c _ hc => ?_
    rw [of_decide_eq_true hc]
    simpa using hgh

theorem rowsOf_members {members : List GuildMember}
    (hmembers : members.filter (·.guildId = h) = db.guildMembers.filter (·.guildId = h)) :
    { db with guildMembers := members }.rowsOf h = db.rowsOf h := by
  unfold Database.rowsOf
  rw [hmembers]

theorem rowsOf_roles {roles : List GuildRole}
    (hroles : roles.filter (·.guildId = h) = db.guildRoles.filter (·.guildId = h)) :
    { db with guildRoles := roles }.rowsOf h = db.rowsOf h := by
  unfold Database.rowsOf
  rw [hroles]

theorem rowsOf_withRoles (hcons : Consistent db) {m : GuildMember} (hm : m ∈ db.guildMembers)
    (hmh : m.guildId ≠ h) {roles : List GuildRole} :
    (withRoles db m roles).rowsOf h = db.rowsOf h := by
  refine rowsOf_members (Rows.filter_modify_disjoint fun x hx hid => ?_)
  obtain rfl := Rows.eq_of_nodup hcons.ids.members hx hm (of_decide_eq_true hid)
  exact ⟨decide_eq_false hmh, decide_eq_false hmh⟩

theorem rowsOf_updateRole (hcons : Consistent db) {r : GuildRole} (hr : r ∈ db.guildRoles)
    (hrh : r.guildId ≠ h) {f : GuildRole → GuildRole} (hf : KeepsStanding f) :
    { db with guildRoles := Rows.modify (·.id = r.id) f db.guildRoles }.rowsOf h =
      db.rowsOf h := by
  refine rowsOf_roles (Rows.filter_modify_disjoint fun x hx hid => ?_)
  obtain rfl := Rows.eq_of_nodup hcons.ids.roles hx hr (of_decide_eq_true hid)
  rw [(hf x).2.1]
  exact ⟨decide_eq_false hrh, decide_eq_false hrh⟩

theorem rowsOf_deleteRole (hcons : Consistent db) {r : GuildRole} (hr : r ∈ db.guildRoles)
    (hrh : r.guildId ≠ h) : (db.deleteRole r.id).rowsOf h = db.rowsOf h := by
  unfold Database.rowsOf
  congr 1
  · refine Rows.filter_map_eq (fun _ _ => rfl) fun m hm hmh => ?_
    have hroles : m.roles.filter (· ≠ r.id) = m.roles := by
      rw [List.filter_eq_self]
      intro id hid
      simp only [decide_eq_true_eq]
      rintro rfl
      exact hcons.not_linked hrh hm (of_decide_eq_true hmh) hr rfl hid
    rw [hroles]
  · refine Rows.filter_remove_disjoint fun x hx hid => ?_
    obtain rfl := Rows.eq_of_nodup hcons.ids.roles hx hr (of_decide_eq_true hid)
    exact decide_eq_false hrh

/-- Deleting a category leaves another guild alone exactly when none of its channels is in it. -/
theorem rowsOf_withoutCategory_iff (hgh : g ≠ h) {c : Uuid} :
    (withoutCategory env db g c).rowsOf h = db.rowsOf h ↔
      ∀ x ∈ db.channels, x.guildId = some h → x.categoryId ≠ some c := by
  have hcategories : (withoutCategory env db g c).channelCategories.filter (·.guildId = h) =
      db.channelCategories.filter (·.guildId = h) := by
    refine Rows.filter_remove_disjoint fun k _ hk => ?_
    rw [(of_decide_eq_true hk).2]
    exact decide_eq_false hgh
  have hchannels : (withoutCategory env db g c).channels.filter (·.guildId = some h) =
      Rows.modify (·.categoryId = some c)
        (fun x => { x with categoryId := none, updatedAt := env.now })
        (db.channels.filter (·.guildId = some h)) :=
    Rows.filter_modify fun _ _ => rfl
  have hrows : (withoutCategory env db g c).rowsOf h = db.rowsOf h ↔
      (withoutCategory env db g c).channels.filter (·.guildId = some h) =
        db.channels.filter (·.guildId = some h) := by
    constructor
    · exact fun hrows => congrArg GuildRows.channels hrows
    · intro hsame
      unfold Database.rowsOf
      rw [hcategories, hsame]
      rfl
  rw [hrows, hchannels, Rows.modify_eq_self_iff]
  constructor
  · intro hkept x hx hguild hcat
    have heq := hkept x (List.mem_filter.mpr ⟨hx, by simpa using hguild⟩) (by simpa using hcat)
    have hnone : none = x.categoryId := congrArg Channel.categoryId heq
    rw [hcat] at hnone
    exact nomatch hnone
  · intro hfree x hx hcat
    obtain ⟨hx, hguild⟩ := List.mem_filter.mp hx
    exact absurd (of_decide_eq_true hcat) (hfree x hx (of_decide_eq_true hguild))

/-! ### Every operation -/

/-- What a successful operation on `g` does to the rows of `h`. -/
theorem guildsController_rowsOf (hcons : Consistent db) (hgh : g ≠ h) {r : GuildRoute}
    (htarget : r.target env db = some g) :
    wp (guildsController env user r)
      (fun _ db' => db'.rowsOf h = db.rowsOf h ↔ emptiesCategoryOf h db r = false)
      (fun _ _ => True) db := by
  -- every operation but `deleteCategory` has to keep the rows
  have kept : ∀ {db' : Database}, db'.rowsOf h = db.rowsOf h → emptiesCategoryOf h db r = false →
      (db'.rowsOf h = db.rowsOf h ↔ emptiesCategoryOf h db r = false) :=
    fun hrows hroute => ⟨fun _ => hroute, fun _ => hrows⟩
  cases r with
  | create d =>
    obtain rfl : env.uuids 0 = g := Option.some.inj htarget
    refine wp_map.mpr (create_wp.mono ?_ fun _ _ _ => trivial)
    intro _ db' ⟨guild, hid, _, hdb⟩
    rw [hdb]
    exact kept (rowsOf_withGuild (hid ▸ hgh)) rfl
  | update text d =>
    refine wp_map.mpr (update_wp.mono ?_ fun _ _ _ => trivial)
    intro _ db' ⟨g', f, hg', _, hf, hdb⟩
    obtain rfl := Option.some.inj (htarget.symm.trans hg')
    rw [hdb]
    exact kept (rowsOf_updateGuild hf hgh) rfl
  | delete text =>
    refine wp_map.mpr (delete_wp.mono ?_ fun _ _ _ => trivial)
    intro _ db' ⟨g', _, hg', _, _, _, hdb⟩
    obtain rfl := Option.some.inj (htarget.symm.trans hg')
    rw [hdb]
    exact kept (rowsOf_deleteGuild hcons hgh) rfl
  | joinByInvite code =>
    refine wp_map.mpr (joinByInvite_wp.mono ?_ fun _ _ _ => trivial)
    intro m db' ⟨guild, hguild, _, hm, hdb⟩
    have hid : guild.id = g := by simpa [GuildRoute.target, hguild] using htarget
    have hmh : m.guildId ≠ h := by rw [hm]; exact hid ▸ hgh
    rw [hdb]
    exact kept (rowsOf_members (Rows.filter_append_of_not (by simpa using hmh))) rfl
  | regenerateInvite text =>
    refine wp_map.mpr (regenerateInviteCode_wp.mono ?_ fun _ _ _ => trivial)
    intro _ db' ⟨g', f, hg', _, hf, hdb⟩
    obtain rfl := Option.some.inj (htarget.symm.trans hg')
    rw [hdb]
    exact kept (rowsOf_updateGuild hf hgh) rfl
  | kickMember text _ =>
    refine wp_map.mpr (kickMember_wp.mono ?_ fun _ _ _ => trivial)
    intro _ db' ⟨g', t, hg', _, _, _, hdb⟩
    obtain rfl := Option.some.inj (htarget.symm.trans hg')
    rw [hdb]
    refine kept (rowsOf_members (Rows.filter_remove_disjoint fun m _ hm => ?_)) rfl
    rw [(of_decide_eq_true hm).1]
    exact decide_eq_false hgh
  | banMember text _ =>
    refine wp_map.mpr (banMember_wp.mono ?_ fun _ _ _ => trivial)
    intro _ db' ⟨g', t, hg', _, _, _, hdb⟩
    obtain rfl := Option.some.inj (htarget.symm.trans hg')
    rw [hdb]
    refine kept (rowsOf_members (Rows.filter_modify_disjoint fun m _ hm => ?_)) rfl
    have hmh : m.guildId ≠ h := (of_decide_eq_true hm).1 ▸ hgh
    exact ⟨decide_eq_false hmh, decide_eq_false hmh⟩
  | assignRole text _ _ =>
    refine wp_map.mpr (assignRole_wp.mono ?_ fun _ _ _ => trivial)
    intro _ db' ⟨g', t, role, m, hg', _, _, hm, _, _, _, hdb⟩
    obtain rfl := Option.some.inj (htarget.symm.trans hg')
    rcases hdb with hdb | hdb
    · rw [hdb]
      exact kept rfl rfl
    · rw [hdb]
      exact kept (rowsOf_withRoles hcons hm.1 (hm.2.1 ▸ hgh)) rfl
  | removeRole text _ _ =>
    refine wp_map.mpr (removeRole_wp.mono ?_ fun _ _ _ => trivial)
    intro _ db' ⟨g', t, m, hg', _, _, hm, hdb⟩
    obtain rfl := Option.some.inj (htarget.symm.trans hg')
    rw [hdb]
    exact kept (rowsOf_withRoles hcons hm.1 (hm.2.1 ▸ hgh)) rfl
  | createRole text _ =>
    refine wp_map.mpr (createRole_wp.mono ?_ fun _ _ _ => trivial)
    intro role db' ⟨g', hg', _, _, hguild, _, _, _, hdb⟩
    obtain rfl := Option.some.inj (htarget.symm.trans hg')
    rw [hdb]
    exact kept (rowsOf_roles (Rows.filter_append_of_not (by simpa [hguild] using hgh))) rfl
  | updateRole text _ _ =>
    refine wp_map.mpr (updateRole_wp.mono ?_ fun _ _ _ => trivial)
    intro _ db' ⟨g', role, _, f, hg', _, hrole, _, hguild, _, _, hf, _, hdb⟩
    obtain rfl := Option.some.inj (htarget.symm.trans hg')
    rw [hdb]
    exact kept (rowsOf_updateRole hcons hrole (hguild ▸ hgh) hf) rfl
  | deleteRole text _ =>
    refine wp_map.mpr (deleteRole_wp.mono ?_ fun _ _ _ => trivial)
    intro _ db' ⟨g', role, hg', _, hrole, _, hguild, _, hdb⟩
    obtain rfl := Option.some.inj (htarget.symm.trans hg')
    rw [hdb]
    exact kept (rowsOf_deleteRole hcons hrole (hguild ▸ hgh)) rfl
  | createCategory text _ =>
    refine wp_map.mpr (createCategory_wp.mono ?_ fun _ _ _ => trivial)
    intro c db' ⟨g', hg', _, _, hguild, hdb⟩
    obtain rfl := Option.some.inj (htarget.symm.trans hg')
    rw [hdb]
    refine kept ?_ rfl
    unfold Database.rowsOf
    congr 1
    exact Rows.filter_append_of_not (by simpa [hguild] using hgh)
  | deleteCategory text ctext =>
    refine wp_map.mpr (deleteCategory_wp.mono ?_ fun _ _ _ => trivial)
    intro _ db' ⟨g', c, hg', _, hc, hdb⟩
    obtain rfl := Option.some.inj (htarget.symm.trans hg')
    rw [hdb, rowsOf_withoutCategory_iff hgh]
    simp only [emptiesCategoryOf, hc, List.any_eq_false, decide_eq_true_eq]
    refine forall₂_congr fun x _ => ⟨?_, ?_⟩
    · exact fun hfree hx => hfree hx.1 hx.2.2
    · exact fun hfree hguild hcat => hfree ⟨hguild, by simp [hcat], hcat⟩
  | createChannel text _ =>
    refine wp_map.mpr (createChannel_wp.mono ?_ fun _ _ _ => trivial)
    intro c db' ⟨g', hg', _, _, hguild, _, hdb⟩
    obtain rfl := Option.some.inj (htarget.symm.trans hg')
    rw [hdb]
    refine kept ?_ rfl
    unfold Database.rowsOf
    congr 1
    exact Rows.filter_append_of_not (by simpa [hguild] using hgh)
  | _ => exact nomatch htarget

/-- In every reachable state, an operation on `g` that succeeds leaves every row of another guild
as it was exactly when it does not delete the category of one of its channels. -/
theorem other_guild_unchanged_iff {s : Server} (hs : Reached X s) (hgh : g ≠ h) {r : GuildRoute}
    (htarget : r.target env s.db = some g) {b : Body}
    (hout : (guildsController env user r).outcome s.db = .ok b) :
    ((guildsController env user r).final s.db).rowsOf h = s.db.rowsOf h ↔
      emptiesCategoryOf h s.db r = false :=
  (guildsController_rowsOf hs.consistent hgh htarget).of_returned hout

/-- Alice and Bob have a guild each. -/
def twoGuilds : Server :=
  run (serve sampleExternals) Server.empty
    (guildRun .absent ++ [byBob 4 (.create ⟨"other", .absent, .absent, .absent⟩)])

theorem twoGuilds_reached : Reached sampleExternals twoGuilds := ⟨_, by decide +kernel, rfl⟩

/-- Alice deletes a category of her guild, and Bob's stays as it is. -/
theorem twoGuilds_own_category :
    ((guildsController (sampleEnv 5) alice (.deleteCategory sampleGuild.toText
      (sampleUuid 3 5).toText)).final twoGuilds.db).rowsOf (sampleUuid 4 0) =
        twoGuilds.db.rowsOf (sampleUuid 4 0) := by
  have hout : (guildsController (sampleEnv 5) alice (.deleteCategory sampleGuild.toText
      (sampleUuid 3 5).toText)).outcome twoGuilds.db = .ok .none := by decide +kernel
  have htarget : (GuildRoute.deleteCategory sampleGuild.toText (sampleUuid 3 5).toText).target
      (sampleEnv 5) twoGuilds.db = some sampleGuild := Uuid.parse_toText sampleGuild
  exact (other_guild_unchanged_iff twoGuilds_reached (by decide) htarget hout).mpr
    (by decide +kernel)

/-- Alice deletes a category of Bob's guild in her own, and his channels lose it. -/
theorem twoGuilds_foreign_category :
    Reached sampleExternals twoGuilds ∧ sampleGuild ≠ sampleUuid 4 0 ∧
      (GuildRoute.deleteCategory sampleGuild.toText (sampleUuid 4 5).toText).target
        (sampleEnv 5) twoGuilds.db = some sampleGuild ∧
      (guildsController (sampleEnv 5) alice (.deleteCategory sampleGuild.toText
        (sampleUuid 4 5).toText)).outcome twoGuilds.db = .ok .none ∧
      ((guildsController (sampleEnv 5) alice (.deleteCategory sampleGuild.toText
        (sampleUuid 4 5).toText)).final twoGuilds.db).rowsOf (sampleUuid 4 0) ≠
          twoGuilds.db.rowsOf (sampleUuid 4 0) := by
  refine ⟨twoGuilds_reached, by decide, Uuid.parse_toText sampleGuild, ?_, ?_⟩
  · decide +kernel
  · decide +kernel

end VoxLink
