import VoxLink.Guilds.Invariants

/-! The roles that are created with a guild. They are the managed ones, and no request changes them
while the guild is there. -/

namespace VoxLink

open ProofKit Prog GuildsService

variable {X : Externals} {env : Env} {user : Profile} {db db' : Database} {route : Route} {g : Uuid}

/-- The roles that `create` writes. -/
def systemRoles (env : Env) (g : Uuid) : List GuildRole :=
  [ownerRole env g, officerRole env g, memberRole env g]

def managedRoles (db : Database) (g : Uuid) : List GuildRole :=
  db.guildRoles.filter fun r => r.guildId = g ∧ r.isManaged

/-- A role that is not managed stays outside the managed roles, however its row is found. -/
theorem not_managed_of_id (hids : UniqueIds db) {r x : GuildRole} (hr : r ∈ db.guildRoles)
    (hcustom : r.isManaged = false) (hx : x ∈ db.guildRoles) (hid : x.id = r.id) :
    x.isManaged = false := by
  rw [Rows.eq_of_nodup hids.roles hx hr hid]
  exact hcustom

/-- Every change keeps the managed roles of a guild that is there before and after. -/
theorem managedRoles_kept (hcons : Consistent db) (hfresh : Fresh env db)
    (hc : Change env user db route db') (hg : g ∈ db.guilds.map (·.id))
    (hg' : g ∈ db'.guilds.map (·.id)) : managedRoles db' g = managedRoles db g := by
  cases hc with
  | elsewhere _ hsame => rw [managedRoles, hsame.roles, managedRoles]
  | @createGuild _ guild hid _ =>
    refine Rows.filter_append_of_not fun r hr => ?_
    -- the new roles are of the new guild
    obtain ⟨old, hold, holdId⟩ := List.mem_map.mp hg
    have hne : guild.id ≠ g := by
      rw [hid, ← holdId]
      exact (hfresh.ne_guild (by decide) hold).symm
    simp only [List.mem_cons, List.not_mem_nil, or_false] at hr
    rcases hr with rfl | rfl | rfl <;>
      simp [ownerRole, officerRole, memberRole, newRole, hne]
  | @deleteGuild _ gone _ _ =>
    have hne : g ≠ gone := by
      obtain ⟨x, hx, hxid⟩ := List.mem_map.mp hg'
      have hkept := (Rows.mem_remove.mp hx).2
      rw [← hxid]
      simpa using hkept
    refine Rows.filter_remove_disjoint fun r _ hr => ?_
    have hrg : r.guildId = gone := by simpa using hr
    simp [hrg, hne.symm]
  | createRole _ _ _ hmanaged _ =>
    refine Rows.filter_append_of_not fun x hx => ?_
    rw [List.mem_singleton.mp hx]
    simp [hmanaged]
  | updateRole hr hcustom hf _ _ =>
    refine Rows.filter_modify_disjoint fun x hx hid => ?_
    have hxid := not_managed_of_id hcons.ids hr hcustom hx (by simpa using hid)
    have hafter : (_ : GuildRole).isManaged = false := (hf x).2.2.2.trans hxid
    simp [hxid, hafter]
  | deleteRole hr hcustom =>
    refine Rows.filter_remove_disjoint fun x hx hid => ?_
    have hxid := not_managed_of_id hcons.ids hr hcustom hx (by simpa using hid)
    simp [hxid]
  | _ => rfl

/-- The managed roles of a new guild are the system roles. -/
theorem managedRoles_withGuild (hrefs : Scoped db) (hfresh : Fresh env db) {guild : Guild}
    (hid : guild.id = env.uuids 0) {owner : Uuid} :
    managedRoles (withGuild env db guild owner) guild.id = systemRoles env guild.id := by
  have hold : db.guildRoles.filter (fun r => r.guildId = guild.id ∧ r.isManaged) = [] := by
    refine List.filter_eq_nil_iff.mpr fun r hr hguild => ?_
    -- no role can be of a guild that was not there
    have hrg : r.guildId = guild.id := by
      simp only [decide_eq_true_eq] at hguild
      exact hguild.1
    obtain ⟨x, hx, hxid⟩ := List.mem_map.mp (hrefs.role r hr)
    exact hfresh.ne_guild (by decide) hx (hxid.trans (hrg.trans hid))
  have hnew : (systemRoles env guild.id).filter
      (fun r => r.guildId = guild.id ∧ r.isManaged) = systemRoles env guild.id := by
    simp [systemRoles, ownerRole, officerRole, memberRole, newRole]
  show (db.guildRoles ++ systemRoles env guild.id).filter _ = _
  rw [List.filter_append, hold, hnew, List.nil_append]

/-- Every guild has the managed roles that were created with it. -/
def HaveSystemRoles (db : Database) : Prop :=
  ∀ g ∈ db.guilds.map (·.id), ∃ env, managedRoles db g = systemRoles env g

theorem HaveSystemRoles.kept (hcons : Consistent db) (hfresh : Fresh env db)
    (h : HaveSystemRoles db) (hc : Change env user db route db') : HaveSystemRoles db' := by
  intro g hg
  by_cases hold : g ∈ db.guilds.map (·.id)
  · obtain ⟨created, hroles⟩ := h g hold
    exact ⟨created, (managedRoles_kept hcons hfresh hc hold hg).trans hroles⟩
  · -- a guild that was not there has just been created
    cases hc with
    | elsewhere _ hsame =>
      rw [hsame.guilds] at hg
      exact absurd hg hold
    | @createGuild _ guild hid _ =>
      simp only [withGuild, List.map_append, List.mem_append] at hg
      have hguild : g = guild.id := by simpa using hg.resolve_left hold
      rw [hguild]
      exact ⟨env, managedRoles_withGuild hcons.refs hfresh hid⟩
    | updateGuild hf =>
      rw [Rows.map_modify fun g _ => (hf g).1] at hg
      exact absurd hg hold
    | deleteGuild _ _ =>
      obtain ⟨x, hx, hxid⟩ := List.mem_map.mp hg
      exact absurd (List.mem_map.mpr ⟨x, (Rows.mem_remove.mp hx).1, hxid⟩) hold
    | deleteUser =>
      rw [guildIds_deleteUser] at hg
      exact absurd hg hold
    | _ => exact absurd hg hold

theorem Reached.haveSystemRoles {s : Server} (hs : Reached X s) : HaveSystemRoles s.db := by
  have hI : Consistent s.db ∧ HaveSystemRoles s.db := by
    refine hs.invariant (P := fun db => Consistent db ∧ HaveSystemRoles db) ⟨consistent_empty, ?_⟩
      ?_ ?_
    · exact fun g hg => nomatch hg
    · intro db db' hsame ⟨hcons, hroles⟩
      refine ⟨hcons.same hsame, fun g hg => ?_⟩
      rw [hsame.guilds] at hg
      rw [managedRoles, hsame.roles]
      exact hroles g hg
    · intro env user db route db' hfresh ⟨hcons, hroles⟩ hc
      exact ⟨hcons.kept hfresh hc, hroles.kept hcons hfresh hc⟩
  exact hI.2

/-- In every reachable state the managed roles of a guild are the three that `create` wrote, with
their masks and positions, and no request changes them while the guild is there. -/
theorem system_roles_frozen {s : Server} (hs : Reached X s) {guild : Guild}
    (hguild : guild ∈ s.db.guilds) :
    (∃ env, managedRoles s.db guild.id = systemRoles env guild.id) ∧
      (managedRoles s.db guild.id).map (fun r => (r.permissions, r.position)) =
        [(DefaultPermissions.owner, 100), (DefaultPermissions.officer, 50),
          (DefaultPermissions.member, 1)] ∧
      ∀ i, FreshStep s i → guild.id ∈ (serve X s i).2.db.guilds.map (·.id) →
        managedRoles (serve X s i).2.db guild.id = managedRoles s.db guild.id := by
  have hmem : guild.id ∈ s.db.guilds.map (·.id) := List.mem_map_of_mem hguild
  obtain ⟨env, hroles⟩ := hs.haveSystemRoles guild.id hmem
  refine ⟨⟨env, hroles⟩, ?_, ?_⟩
  · rw [hroles]
    rfl
  · intro i hfresh hafter
    rcases serve_handled (X := X) s i with hsame | ⟨user, _, hc⟩
    · rw [managedRoles, hsame.roles, managedRoles]
    · exact managedRoles_kept hs.consistent hfresh hc hmem hafter

/-- Alice has made a role in her guild, and tries to change a system role. -/
def frozenRun : List (Env × Request) :=
  guildRun .absent ++
    [byAlice 4 (.createRole sampleGuild.toText ⟨"raiders", .absent, .absent, .absent⟩),
      byAlice 5 (.updateRole sampleGuild.toText (sampleUuid 3 3).toText
        ⟨"raiders", .absent, .value (2 ^ 30), .absent⟩)]

theorem frozenRun_system_roles :
    (managedRoles (run (serve sampleExternals) Server.empty frozenRun).db sampleGuild).map
        (fun r => (r.permissions, r.position)) =
      [(DefaultPermissions.owner, 100), (DefaultPermissions.officer, 50),
        (DefaultPermissions.member, 1)] := by
  have hs : Reached sampleExternals (run (serve sampleExternals) Server.empty frozenRun) :=
    ⟨_, by decide +kernel, rfl⟩
  obtain ⟨guild, hguild, hid⟩ : ∃ guild ∈
      (run (serve sampleExternals) Server.empty frozenRun).db.guilds, guild.id = sampleGuild := by
    decide +kernel
  rw [← hid]
  exact (system_roles_frozen hs hguild).2.1

end VoxLink
