import VoxLink.Guilds.Changes

/-! What holds of the tables of the guilds in every reachable state: ids name single rows, and the
rows of a guild refer to rows of the same guild. -/

namespace VoxLink

open ProofKit Prog GuildsService
open ChannelsService (KeepsPlace)

variable {X : Externals} {env : Env} {user : Profile} {db db' : Database} {route : Route}

/-! ### Fresh ids -/

theorem Fresh.ne_key (h : Fresh env db) {n : Nat} (hn : n < 11) {x : Uuid} (hx : x ∈ db.keys) :
    env.uuids n ≠ x :=
  fun heq => h.2 n hn (heq ▸ hx)

theorem Fresh.nodup_map (h : Fresh env db) {ns : List Nat} (hns : ns.Nodup)
    (hlt : ∀ n ∈ ns, n < 11) : (ns.map env.uuids).Nodup := by
  refine hns.map_on ?_
  intro a ha b hb hab
  have hinj := List.inj_on_of_nodup_map h.1
  exact hinj (List.mem_range.mpr (hlt a ha)) (List.mem_range.mpr (hlt b hb)) hab

theorem Fresh.ne_guild (h : Fresh env db) {n : Nat} (hn : n < 11) {g : Guild}
    (hg : g ∈ db.guilds) : g.id ≠ env.uuids n := by
  refine (h.ne_key hn ?_).symm
  simp only [Database.keys, List.mem_append, List.mem_map_of_mem hg, true_or, or_true]

theorem Fresh.ne_member (h : Fresh env db) {n : Nat} (hn : n < 11) {m : GuildMember}
    (hm : m ∈ db.guildMembers) : m.id ≠ env.uuids n := by
  refine (h.ne_key hn ?_).symm
  simp only [Database.keys, List.mem_append, List.mem_map_of_mem hm, true_or, or_true]

theorem Fresh.ne_role (h : Fresh env db) {n : Nat} (hn : n < 11) {r : GuildRole}
    (hr : r ∈ db.guildRoles) : r.id ≠ env.uuids n := by
  refine (h.ne_key hn ?_).symm
  simp only [Database.keys, List.mem_append, List.mem_map_of_mem hr, true_or, or_true]

theorem Fresh.ne_category (h : Fresh env db) {n : Nat} (hn : n < 11) {c : ChannelCategory}
    (hc : c ∈ db.channelCategories) : c.id ≠ env.uuids n := by
  refine (h.ne_key hn ?_).symm
  simp only [Database.keys, List.mem_append, List.mem_map_of_mem hc, true_or, or_true]

theorem Fresh.ne_channel (h : Fresh env db) {n : Nat} (hn : n < 11) {c : Channel}
    (hc : c ∈ db.channels) : c.id ≠ env.uuids n := by
  refine (h.ne_key hn ?_).symm
  simp only [Database.keys, List.mem_append, List.mem_map_of_mem hc, true_or, or_true]

/-- Rows with fresh ids keep a column of ids without duplicates. -/
theorem Fresh.nodup_append {α : Type} (h : Fresh env db) (ns : List Nat) {c : α → Uuid}
    {rows new : List α} (hrows : (rows.map c).Nodup)
    (hne : ∀ a ∈ rows, ∀ n < 11, c a ≠ env.uuids n) (hns : ns.Nodup) (hlt : ∀ n ∈ ns, n < 11)
    (hnew : new.map c = ns.map env.uuids) :
    ((rows ++ new).map c).Nodup := by
  refine Rows.nodup_append_of_fresh hrows (hnew ▸ h.nodup_map hns hlt) ?_
  intro a ha hmem
  obtain ⟨n, hn, hna⟩ := List.mem_map.mp (hnew ▸ List.mem_map_of_mem ha)
  obtain ⟨b, hb, hba⟩ := List.mem_map.mp hmem
  exact hne b hb n (hlt n hn) (hba.trans hna.symm)

/-! ### Ids name single rows -/

structure UniqueIds (db : Database) : Prop where
  guilds : (db.guilds.map (·.id)).Nodup
  members : (db.guildMembers.map (·.id)).Nodup
  roles : (db.guildRoles.map (·.id)).Nodup
  categories : (db.channelCategories.map (·.id)).Nodup
  channels : (db.channels.map (·.id)).Nodup

namespace UniqueIds

variable (h : UniqueIds db) (hfresh : Fresh env db) (hc : Change env user db route db')
include h hfresh hc

theorem guilds_kept : (db'.guilds.map (·.id)).Nodup := by
  cases hc with
  | elsewhere _ hsame => exact hsame.guilds ▸ h.guilds
  | createGuild hid _ =>
    exact hfresh.nodup_append [0] h.guilds (fun _ ha _ hn => hfresh.ne_guild hn ha)
      (by decide) (by simp) (by simp [hid])
  | updateGuild hf =>
    exact Rows.nodup_modify h.guilds fun g _ => (hf g).1
  | deleteGuild _ _ => exact Rows.nodup_remove h.guilds
  | deleteUser =>
    exact Rows.nodup_modify h.guilds fun _ _ => rfl
  | _ => exact h.guilds

theorem members_kept : (db'.guildMembers.map (·.id)).Nodup := by
  cases hc with
  | elsewhere _ hsame => exact hsame.members ▸ h.members
  | createGuild _ _ =>
    exact hfresh.nodup_append [4] h.members (fun _ ha _ hn => hfresh.ne_member hn ha)
      (by decide) (by simp) rfl
  | deleteGuild _ _ =>
    simp only [Database.deleteGuild, List.map_map]
    exact Rows.nodup_remove h.members
  | deleteUser => exact Rows.nodup_remove h.members
  | join _ _ _ =>
    exact hfresh.nodup_append [0] h.members (fun _ ha _ hn => hfresh.ne_member hn ha)
      (by decide) (by simp) rfl
  | kick _ _ _ _ => exact Rows.nodup_remove h.members
  | ban _ _ _ _ =>
    exact Rows.nodup_modify h.members fun _ _ => rfl
  | setRoles _ _ =>
    exact Rows.nodup_modify h.members fun _ _ => rfl
  | deleteRole _ _ =>
    simp only [Database.deleteRole, List.map_map]
    exact h.members
  | _ => exact h.members

theorem roles_kept : (db'.guildRoles.map (·.id)).Nodup := by
  cases hc with
  | elsewhere _ hsame => exact hsame.roles ▸ h.roles
  | createGuild _ _ =>
    exact hfresh.nodup_append [1, 2, 3] h.roles (fun _ ha _ hn => hfresh.ne_role hn ha)
      (by decide) (by simp) rfl
  | deleteGuild _ _ => exact Rows.nodup_remove h.roles
  | createRole hid _ _ _ _ =>
    exact hfresh.nodup_append [0] h.roles (fun _ ha _ hn => hfresh.ne_role hn ha)
      (by decide) (by simp) (by simp [hid])
  | updateRole _ _ hf _ _ =>
    exact Rows.nodup_modify h.roles fun r _ => (hf r).1
  | deleteRole _ _ => exact Rows.nodup_remove h.roles
  | _ => exact h.roles

theorem categories_kept : (db'.channelCategories.map (·.id)).Nodup := by
  cases hc with
  | elsewhere _ hsame => exact hsame.categories ▸ h.categories
  | createGuild _ _ =>
    exact hfresh.nodup_append [5, 6] h.categories (fun _ ha _ hn => hfresh.ne_category hn ha)
      (by decide) (by simp) rfl
  | deleteGuild _ _ => exact Rows.nodup_remove h.categories
  | createCategory hid _ =>
    exact hfresh.nodup_append [0] h.categories (fun _ ha _ hn => hfresh.ne_category hn ha)
      (by decide) (by simp) (by simp [hid])
  | deleteCategory => exact Rows.nodup_remove h.categories
  | _ => exact h.categories

theorem channels_kept : (db'.channels.map (·.id)).Nodup := by
  cases hc with
  | elsewhere _ hsame => exact hsame.channels ▸ h.channels
  | createGuild _ _ =>
    exact hfresh.nodup_append [7, 8, 9, 10] h.channels (fun _ ha _ hn => hfresh.ne_channel hn ha)
      (by decide) (by simp) rfl
  | deleteGuild _ _ => exact Rows.nodup_remove h.channels
  | deleteCategory =>
    exact Rows.nodup_modify h.channels fun _ _ => rfl
  | createChannel hid _ =>
    exact hfresh.nodup_append [0] h.channels (fun _ ha _ hn => hfresh.ne_channel hn ha)
      (by decide) (by simp) (by simp [hid])
  | updateChannel hf =>
    exact Rows.nodup_modify h.channels fun c _ => (hf c).1
  | deleteChannel => exact Rows.nodup_remove h.channels
  | _ => exact h.channels

theorem kept : UniqueIds db' :=
  ⟨h.guilds_kept hfresh hc, h.members_kept hfresh hc, h.roles_kept hfresh hc,
    h.categories_kept hfresh hc, h.channels_kept hfresh hc⟩

end UniqueIds

/-! ### Rows refer to rows of their guild -/

structure Scoped (db : Database) : Prop where
  member : ∀ m ∈ db.guildMembers, m.guildId ∈ db.guilds.map (·.id)
  role : ∀ r ∈ db.guildRoles, r.guildId ∈ db.guilds.map (·.id)
  link : ∀ m ∈ db.guildMembers, ∀ r ∈ m.roles,
    ∃ x ∈ db.guildRoles, x.id = r ∧ x.guildId = m.guildId
  place : ∀ c ∈ db.channels, ∀ k, c.categoryId = some k →
    ∃ x ∈ db.channelCategories, x.id = k ∧ c.guildId = some x.guildId

theorem guildIds_deleteUser (u : Uuid) :
    (db.deleteUser u).guilds.map (·.id) = db.guilds.map (·.id) :=
  Rows.map_modify fun _ _ => rfl

/-- A guild other than a deleted one is still there. -/
theorem mem_guildIds_deleteGuild {g h : Uuid} (hmem : h ∈ db.guilds.map (·.id)) (hne : h ≠ g) :
    h ∈ (db.deleteGuild g).guilds.map (·.id) := by
  obtain ⟨guild, hguild, rfl⟩ := List.mem_map.mp hmem
  exact List.mem_map.mpr ⟨guild, Rows.mem_remove.mpr ⟨hguild, by simpa using hne⟩, rfl⟩

namespace Scoped

variable (h : Scoped db) (hc : Change env user db route db')
include h hc

theorem member_kept : ∀ m ∈ db'.guildMembers, m.guildId ∈ db'.guilds.map (·.id) := by
  intro m hm
  cases hc with
  | elsewhere _ hsame =>
    rw [hsame.members] at hm
    rw [hsame.guilds]
    exact h.member m hm
  | createGuild _ _ =>
    simp only [withGuild, List.map_append]
    rcases List.mem_append.mp hm with hm | hm
    · exact List.mem_append_left _ (h.member m hm)
    · rw [List.mem_singleton.mp hm]
      exact List.mem_append_right _ (List.mem_singleton.mpr rfl)
  | updateGuild hf =>
    rw [Rows.map_modify fun g _ => (hf g).1]
    exact h.member m hm
  | @deleteGuild _ g _ _ =>
    obtain ⟨x, hx, rfl⟩ := List.mem_map.mp hm
    obtain ⟨hx, hne⟩ := Rows.mem_remove.mp hx
    exact mem_guildIds_deleteGuild (h.member x hx) (by simpa using hne)
  | deleteUser =>
    rw [guildIds_deleteUser]
    exact h.member m (Rows.mem_remove.mp hm).1
  | join hguild _ _ =>
    rcases List.mem_append.mp hm with hm | hm
    · exact h.member m hm
    · rw [List.mem_singleton.mp hm]
      exact List.mem_map.mpr ⟨_, (guildByCode_mem hguild).1, rfl⟩
  | kick _ _ _ _ => exact h.member m (Rows.mem_remove.mp hm).1
  | ban _ _ _ _ =>
    obtain ⟨x, hx, rfl⟩ := Rows.mem_modify.mp hm
    have := h.member x hx
    split <;> exact this
  | setRoles _ _ =>
    obtain ⟨x, hx, rfl⟩ := Rows.mem_modify.mp hm
    have := h.member x hx
    split <;> exact this
  | deleteRole _ _ =>
    obtain ⟨x, hx, rfl⟩ := List.mem_map.mp hm
    exact h.member x hx
  | _ => exact h.member m hm

theorem role_kept : ∀ r ∈ db'.guildRoles, r.guildId ∈ db'.guilds.map (·.id) := by
  intro r hr
  cases hc with
  | elsewhere _ hsame =>
    rw [hsame.roles] at hr
    rw [hsame.guilds]
    exact h.role r hr
  | createGuild _ _ =>
    simp only [withGuild, List.map_append]
    rcases List.mem_append.mp hr with hr | hr
    · exact List.mem_append_left _ (h.role r hr)
    · refine List.mem_append_right _ ?_
      simp only [List.mem_cons, List.not_mem_nil, or_false] at hr
      rcases hr with rfl | rfl | rfl
      · exact List.mem_singleton.mpr rfl
      · exact List.mem_singleton.mpr rfl
      · exact List.mem_singleton.mpr rfl
  | updateGuild hf =>
    rw [Rows.map_modify fun g _ => (hf g).1]
    exact h.role r hr
  | deleteGuild _ _ =>
    obtain ⟨hr, hne⟩ := Rows.mem_remove.mp hr
    exact mem_guildIds_deleteGuild (h.role r hr) (by simpa using hne)
  | deleteUser =>
    rw [guildIds_deleteUser]
    exact h.role r hr
  | createRole _ hguild _ _ _ =>
    rcases List.mem_append.mp hr with hr | hr
    · exact h.role r hr
    · rw [List.mem_singleton.mp hr]
      exact List.mem_map.mpr hguild
  | updateRole _ _ hf _ _ =>
    obtain ⟨x, hx, rfl⟩ := Rows.mem_modify.mp hr
    have hguild := h.role x hx
    split
    · rw [(hf x).2.1]
      exact hguild
    · exact hguild
  | deleteRole _ _ => exact h.role r (Rows.mem_remove.mp hr).1
  | _ => exact h.role r hr

theorem link_kept (hids : UniqueIds db) : ∀ m ∈ db'.guildMembers, ∀ r ∈ m.roles,
    ∃ x ∈ db'.guildRoles, x.id = r ∧ x.guildId = m.guildId := by
  intro m hm r hr
  cases hc with
  | elsewhere _ hsame =>
    rw [hsame.members] at hm
    rw [hsame.roles]
    exact h.link m hm r hr
  | createGuild _ _ =>
    rcases List.mem_append.mp hm with hm | hm
    · obtain ⟨x, hx, hxr⟩ := h.link m hm r hr
      exact ⟨x, List.mem_append_left _ hx, hxr⟩
    · obtain rfl := List.mem_singleton.mp hm
      obtain rfl := List.mem_singleton.mp hr
      exact ⟨_, List.mem_append_right _ List.mem_cons_self, rfl, rfl⟩
  | @deleteGuild _ g _ _ =>
    obtain ⟨a, ha, rfl⟩ := List.mem_map.mp hm
    obtain ⟨ha, hne⟩ := Rows.mem_remove.mp ha
    obtain ⟨x, hx, hxr, hxg⟩ := h.link a ha r (List.mem_filter.mp hr).1
    have hguild : x.guildId ≠ g := by
      rw [hxg]
      simpa using hne
    exact ⟨x, Rows.mem_remove.mpr ⟨hx, by simpa using hguild⟩, hxr, hxg⟩
  | deleteUser => exact h.link m (Rows.mem_remove.mp hm).1 r hr
  | @join _ guild _ _ _ _ =>
    rcases List.mem_append.mp hm with hm | hm
    · exact h.link m hm r hr
    · obtain rfl := List.mem_singleton.mp hm
      simp only [newMember, Option.mem_toList, Option.map_eq_some_iff] at hr
      obtain ⟨x, hx, hxr⟩ := hr
      obtain ⟨hxmem, hxp⟩ := Rows.pick_some hx
      simp only [decide_eq_true_eq] at hxp
      exact ⟨x, hxmem, hxr, hxp.1⟩
  | kick _ _ _ _ => exact h.link m (Rows.mem_remove.mp hm).1 r hr
  | ban _ _ _ _ =>
    obtain ⟨a, ha, rfl⟩ := Rows.mem_modify.mp hm
    have hlink := h.link a ha r
    split at hr <;> split <;> exact hlink hr
  | @setRoles _ m₀ roles hm₀ hroles =>
    obtain ⟨a, ha, rfl⟩ := Rows.mem_modify.mp hm
    by_cases hid : a.id = m₀.id
    · -- the row whose links were stored: its new roles are roles of its guild
      obtain rfl : a = m₀ := Rows.eq_of_nodup hids.members ha hm₀ hid
      simp only [decide_true, if_true, List.mem_eraseDups, List.mem_map] at hr ⊢
      obtain ⟨role, hrole, rfl⟩ := hr
      obtain ⟨hmem, hold | hguild⟩ := hroles role hrole
      · exact h.link a ha role.id hold
      · exact ⟨role, hmem, rfl, hguild⟩
    · simp only [hid, decide_false, Bool.false_eq_true, if_false] at hr ⊢
      exact h.link a ha r hr
  | createRole _ _ _ _ _ =>
    obtain ⟨x, hx, hxr⟩ := h.link m hm r hr
    exact ⟨x, List.mem_append_left _ hx, hxr⟩
  | updateRole _ _ hf _ _ =>
    obtain ⟨x, hx, hxr, hxg⟩ := h.link m hm r hr
    refine ⟨_, Rows.mem_modify.mpr ⟨x, hx, rfl⟩, ?_⟩
    split
    · exact ⟨(hf x).1.trans hxr, (hf x).2.1.trans hxg⟩
    · exact ⟨hxr, hxg⟩
  | deleteRole _ _ =>
    obtain ⟨a, ha, rfl⟩ := List.mem_map.mp hm
    obtain ⟨hr, hne⟩ := List.mem_filter.mp hr
    obtain ⟨x, hx, hxr, hxg⟩ := h.link a ha r hr
    refine ⟨x, Rows.mem_remove.mpr ⟨hx, ?_⟩, hxr, hxg⟩
    simpa [hxr] using hne
  | _ => exact h.link m hm r hr

theorem place_kept : ∀ c ∈ db'.channels, ∀ k, c.categoryId = some k →
    ∃ x ∈ db'.channelCategories, x.id = k ∧ c.guildId = some x.guildId := by
  intro c hmem k hk
  cases hc with
  | elsewhere _ hsame =>
    rw [hsame.channels] at hmem
    rw [hsame.categories]
    exact h.place c hmem k hk
  | @createGuild _ guild _ _ =>
    rcases List.mem_append.mp hmem with hmem | hmem
    · obtain ⟨x, hx, hxk⟩ := h.place c hmem k hk
      exact ⟨x, List.mem_append_left _ hx, hxk⟩
    · have htext : textCategory env guild.id ∈
          [textCategory env guild.id, voiceCategory env guild.id] := by simp
      have hvoice : voiceCategory env guild.id ∈
          [textCategory env guild.id, voiceCategory env guild.id] := by simp
      simp only [defaultChannels, List.mem_cons, List.not_mem_nil, or_false] at hmem
      rcases hmem with rfl | rfl | rfl | rfl
      · exact ⟨_, List.mem_append_right _ htext, Option.some.inj hk, rfl⟩
      · exact ⟨_, List.mem_append_right _ htext, Option.some.inj hk, rfl⟩
      · exact ⟨_, List.mem_append_right _ hvoice, Option.some.inj hk, rfl⟩
      · exact ⟨_, List.mem_append_right _ hvoice, Option.some.inj hk, rfl⟩
  | @deleteGuild _ g _ _ =>
    obtain ⟨hmem, hne⟩ := Rows.mem_remove.mp hmem
    obtain ⟨x, hx, hxk, hxg⟩ := h.place c hmem k hk
    refine ⟨x, Rows.mem_remove.mpr ⟨hx, ?_⟩, hxk, hxg⟩
    simpa [hxg] using hne
  | createCategory _ _ =>
    obtain ⟨x, hx, hxk⟩ := h.place c hmem k hk
    exact ⟨x, List.mem_append_left _ hx, hxk⟩
  | @deleteCategory _ _ gone =>
    obtain ⟨a, ha, rfl⟩ := Rows.mem_modify.mp hmem
    by_cases hgone : a.categoryId = some gone
    · simp [hgone] at hk
    · simp only [hgone, decide_false, Bool.false_eq_true, if_false] at hk ⊢
      obtain ⟨x, hx, hxk, hxg⟩ := h.place a ha k hk
      have hne : x.id ≠ gone := fun heq => hgone (by rw [hk, ← hxk, heq])
      exact ⟨x, Rows.mem_remove.mpr ⟨hx, by simp [hne]⟩, hxk, hxg⟩
  | createChannel _ hplaced =>
    rcases List.mem_append.mp hmem with hmem | hmem
    · exact h.place c hmem k hk
    · obtain rfl := List.mem_singleton.mp hmem
      rcases hplaced with ⟨_, hnone⟩ | ⟨guild, _, hguild, hcat⟩
      · rw [hnone] at hk
        exact nomatch hk
      · obtain ⟨x, hx, hxk, hxg⟩ := hcat k hk
        exact ⟨x, hx, hxk, hxg ▸ hguild⟩
  | updateChannel hf =>
    obtain ⟨a, ha, rfl⟩ := Rows.mem_modify.mp hmem
    have hplace := h.place a ha k
    split at hk
    · rw [if_pos ‹_›, (hf a).2.1]
      exact hplace ((hf a).2.2 ▸ hk)
    · rw [if_neg ‹_›]
      exact hplace hk
  | deleteChannel => exact h.place c (Rows.mem_remove.mp hmem).1 k hk
  | _ => exact h.place c hmem k hk

theorem kept (hids : UniqueIds db) : Scoped db' :=
  ⟨h.member_kept hc, h.role_kept hc, h.link_kept hc hids, h.place_kept hc⟩

end Scoped

/-! ### Reachable states -/

/-- The states that requests with fresh ids reach from an empty server. -/
def Reached (X : Externals) (s : Server) : Prop := Reachable (serve X) FreshStep Server.empty s

/-- An invariant of the guilds' tables that every change keeps holds in every reachable state. -/
theorem Reached.invariant {P : Database → Prop} (hempty : P Database.empty)
    (hsame : ∀ {db db'}, SameGuilds db db' → P db → P db')
    (hchange : ∀ {env user db route db'},
      Fresh env db → P db → Change env user db route db' → P db')
    {s : Server} (hs : Reached X s) : P s.db := by
  refine Reachable.invariant (I := fun s => P s.db) ?_ hempty hs
  intro s i hP hfresh
  rcases serve_handled (X := X) s i with h | ⟨user, _, h⟩
  · exact hsame h hP
  · exact hchange hfresh hP h

/-- What the ids and references of the tables always satisfy. -/
structure Consistent (db : Database) : Prop where
  ids : UniqueIds db
  refs : Scoped db

theorem Consistent.same (hsame : SameGuilds db db') (h : Consistent db) : Consistent db' := by
  obtain ⟨ids, refs⟩ := h
  refine ⟨⟨?_, ?_, ?_, ?_, ?_⟩, ⟨?_, ?_, ?_, ?_⟩⟩
  · exact hsame.guilds ▸ ids.guilds
  · exact hsame.members ▸ ids.members
  · exact hsame.roles ▸ ids.roles
  · exact hsame.categories ▸ ids.categories
  · exact hsame.channels ▸ ids.channels
  · rw [hsame.members, hsame.guilds]
    exact refs.member
  · rw [hsame.roles, hsame.guilds]
    exact refs.role
  · rw [hsame.members, hsame.roles]
    exact refs.link
  · rw [hsame.channels, hsame.categories]
    exact refs.place

theorem Consistent.kept (hfresh : Fresh env db) (h : Consistent db)
    (hc : Change env user db route db') : Consistent db' :=
  ⟨h.ids.kept hfresh hc, h.refs.kept hc h.ids⟩

theorem consistent_empty : Consistent Database.empty := by
  refine ⟨⟨?_, ?_, ?_, ?_, ?_⟩, ⟨?_, ?_, ?_, ?_⟩⟩ <;> simp [Database.empty]

theorem Reached.consistent {s : Server} (hs : Reached X s) : Consistent s.db :=
  hs.invariant consistent_empty Consistent.same Consistent.kept

/-! ### No reference leaves its guild -/

theorem roleById_of_mem (hids : UniqueIds db) {r : GuildRole} (hr : r ∈ db.guildRoles) :
    db.roleById r.id = some r :=
  Rows.find?_of_nodup hids.roles hr

theorem Consistent.permission (h : Consistent db) {m : GuildMember} (hm : m ∈ db.guildMembers)
    {p : Permission} (hp : hasPermission db m p = true) :
    ∃ r ∈ db.guildRoles, r.guildId = m.guildId ∧ r.hasPermission p = true := by
  obtain ⟨r, hr, hpermission⟩ := List.any_eq_true.mp hp
  obtain ⟨hmem, hlinked⟩ := mem_rolesOf hr
  obtain ⟨x, hx, hid, hguild⟩ := h.refs.link m hm r.id hlinked
  -- the linked row is the loaded one
  have hxr : x = r := Rows.eq_of_nodup h.ids.roles hx hmem hid
  exact ⟨r, hmem, hxr ▸ hguild, hpermission⟩

/-- In every reachable state the roles of a member are roles of his guild, the category of a channel
is one of its guild, and so a permission comes from a role of the guild in which it is used. -/
theorem references_scoped {s : Server} (hs : Reached X s) :
    (∀ m ∈ s.db.guildMembers, ∀ r ∈ m.roles,
        ∃ x ∈ s.db.guildRoles, x.id = r ∧ x.guildId = m.guildId) ∧
      (∀ c ∈ s.db.channels, ∀ k, c.categoryId = some k →
        ∃ x ∈ s.db.channelCategories, x.id = k ∧ c.guildId = some x.guildId) ∧
      ∀ m ∈ s.db.guildMembers, ∀ p, hasPermission s.db m p = true →
        ∃ r ∈ s.db.guildRoles, r.guildId = m.guildId ∧ r.hasPermission p = true :=
  ⟨hs.consistent.refs.link, hs.consistent.refs.place,
    fun _ hm _ hp => hs.consistent.permission hm hp⟩

/-- Alice may kick members of the guild that she opened by a role of that guild. -/
theorem guildRun_references_scoped :
    ∃ r ∈ (run (serve sampleExternals) Server.empty (guildRun .absent)).db.guildRoles,
      r.guildId = sampleGuild ∧ r.hasPermission .kickMembers = true := by
  have hscoped := (references_scoped (X := sampleExternals)
    ⟨guildRun .absent, by decide +kernel, rfl⟩).2.2
  have hseat : ∃ m ∈ (run (serve sampleExternals) Server.empty (guildRun .absent)).db.guildMembers,
      m.guildId = sampleGuild ∧ hasPermission (run (serve sampleExternals) Server.empty
        (guildRun .absent)).db m .kickMembers = true := by decide +kernel
  obtain ⟨m, hm, hguild, hpermission⟩ := hseat
  obtain ⟨r, hr, hrole, hrpermission⟩ := hscoped m hm .kickMembers hpermission
  exact ⟨r, hr, hrole.trans hguild, hrpermission⟩

end VoxLink
