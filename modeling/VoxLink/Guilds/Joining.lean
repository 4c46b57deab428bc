import VoxLink.Guilds.Authorisation

/-! The role that a newcomer gets. It is not stored with the guild but found at each join, as the
role with the lowest position; the invariant says which positions the roles of a guild have. -/

namespace VoxLink

open ProofKit Prog GuildsService

variable {X : Externals} {env : Env} {user : Profile} {db db' : Database} {route : Route} {g : Uuid}

/-! ### The roles of a guild -/

/-- `basic` is the member role that was created with the guild `g`; the other roles of `g` are
system roles above it or custom roles below it. -/
structure BasicRole (db : Database) (g : Uuid) (basic : GuildRole) : Prop where
  mem : basic ∈ db.guildRoles
  guild : basic.guildId = g
  managed : basic.isManaged = true
  name : basic.name = "Участник"
  permissions : basic.permissions = DefaultPermissions.member
  position : basic.position = 1
  others : ∀ r ∈ db.guildRoles, r.guildId = g → r = basic ∨
    (r.isManaged = true ∧ 1 < r.position) ∨ (r.isManaged = false ∧ r.position = 0)

/-- Every guild has its member role. -/
def HaveBasicRoles (db : Database) : Prop :=
  ∀ g ∈ db.guilds.map (·.id), ∃ basic, BasicRole db g basic

/-- The member role of a new guild. -/
theorem basicRole_withGuild (hrefs : Scoped db) (hfresh : Fresh env db) {guild : Guild}
    (hid : guild.id = env.uuids 0) {owner : Uuid} :
    BasicRole (withGuild env db guild owner) guild.id (memberRole env guild.id) := by
  refine ⟨List.mem_append_right _ (by simp), rfl, rfl, rfl, rfl, rfl, ?_⟩
  intro r hr hg
  rcases List.mem_append.mp hr with hr | hr
  · -- no role can be of a guild that was not there
    obtain ⟨x, hx, hxid⟩ := List.mem_map.mp (hrefs.role r hr)
    exact absurd (hxid.trans (hg.trans hid)) (hfresh.ne_guild (by decide) hx)
  · simp only [List.mem_cons, List.not_mem_nil, or_false] at hr
    rcases hr with rfl | rfl | rfl
    · refine .inr (.inl ⟨rfl, ?_⟩)
      show (1 : Int) < 100
      decide
    · refine .inr (.inl ⟨rfl, ?_⟩)
      show (1 : Int) < 50
      decide
    · exact .inl rfl

/-- The member role survives when the roles of its guild do. -/
theorem BasicRole.of_subset {basic : GuildRole} (h : BasicRole db g basic)
    (hmem : basic ∈ db'.guildRoles)
    (hroles : ∀ r ∈ db'.guildRoles, r.guildId = g → r ∈ db.guildRoles) :
    BasicRole db' g basic :=
  ⟨hmem, h.guild, h.managed, h.name, h.permissions, h.position,
    fun r hr hg => h.others r (hroles r hr hg) hg⟩

/-- A custom role is not the member role. -/
theorem BasicRole.id_ne {basic r : GuildRole} (h : BasicRole db g basic) (hids : UniqueIds db)
    (hr : r ∈ db.guildRoles) (hcustom : r.isManaged = false) : basic.id ≠ r.id := by
  intro heq
  have := Rows.eq_of_nodup hids.roles h.mem hr heq
  rw [← this, h.managed] at hcustom
  exact nomatch hcustom

theorem BasicRole.updateRole {basic r : GuildRole} {f : GuildRole → GuildRole}
    (h : BasicRole db g basic) (hids : UniqueIds db) (hr : r ∈ db.guildRoles)
    (hcustom : r.isManaged = false) (hf : KeepsStanding f) :
    BasicRole { db with guildRoles := Rows.modify (·.id = r.id) f db.guildRoles } g basic := by
  have hne := h.id_ne hids hr hcustom
  refine ⟨Rows.mem_modify.mpr ⟨basic, h.mem, by simp [hne]⟩, h.guild, h.managed, h.name,
    h.permissions, h.position, ?_⟩
  intro r' hr' hg
  obtain ⟨x, hx, rfl⟩ := Rows.mem_modify.mp hr'
  by_cases hid : x.id = r.id
  · -- the updated role is custom, and stays below the member role
    obtain rfl := Rows.eq_of_nodup hids.roles hx hr hid
    simp only [decide_true, if_true] at hg ⊢
    obtain ⟨_, hguild, hposition, hmanaged⟩ := hf x
    rw [hguild] at hg
    rcases h.others x hx hg with rfl | ⟨hman, _⟩ | ⟨_, hpos⟩
    · exact absurd rfl hne
    · exact nomatch hcustom.symm.trans hman
    · exact .inr (.inr ⟨hmanaged.trans hcustom, hposition.trans hpos⟩)
  · simp only [hid, decide_false, Bool.false_eq_true, if_false] at hg ⊢
    exact h.others x hx hg

theorem HaveBasicRoles.kept (hcons : Consistent db) (hfresh : Fresh env db)
    (h : HaveBasicRoles db) (hc : Change env user db route db') : HaveBasicRoles db' := by
  intro g hg
  cases hc with
  | elsewhere _ hsame =>
    rw [hsame.guilds] at hg
    obtain ⟨basic, hbasic⟩ := h g hg
    refine ⟨basic, hbasic.of_subset ?_ ?_⟩
    · exact hsame.roles ▸ hbasic.mem
    · exact fun r hr _ => hsame.roles ▸ hr
  | @createGuild _ guild hid _ =>
    simp only [withGuild, List.map_append, List.mem_append] at hg
    rcases hg with hg | hg
    · obtain ⟨basic, hbasic⟩ := h g hg
      refine ⟨basic, hbasic.of_subset (List.mem_append_left _ hbasic.mem) ?_⟩
      intro r hr hrg
      rcases List.mem_append.mp hr with hr | hr
      · exact hr
      · -- the new roles are of the new guild
        obtain ⟨x, hx, hxid⟩ := List.mem_map.mp hg
        have hne := hfresh.ne_guild (n := 0) (by decide) hx
        rw [hxid, ← hrg] at hne
        simp only [List.mem_cons, List.not_mem_nil, or_false] at hr
        rcases hr with rfl | rfl | rfl <;> exact absurd hid hne
    · obtain rfl : g = guild.id := by simpa using hg
      exact ⟨_, basicRole_withGuild hcons.refs hfresh hid⟩
  | updateGuild hf =>
    rw [Rows.map_modify fun g _ => (hf g).1] at hg
    obtain ⟨basic, hbasic⟩ := h g hg
    exact ⟨basic, hbasic.of_subset hbasic.mem fun r hr _ => hr⟩
  | @deleteGuild _ gone _ _ =>
    obtain ⟨x, hx, rfl⟩ := List.mem_map.mp hg
    obtain ⟨hx, hne⟩ := Rows.mem_remove.mp hx
    obtain ⟨basic, hbasic⟩ := h x.id (List.mem_map.mpr ⟨x, hx, rfl⟩)
    refine ⟨basic, hbasic.of_subset (Rows.mem_remove.mpr ⟨hbasic.mem, ?_⟩) ?_⟩
    · rw [hbasic.guild]
      exact hne
    · exact fun r hr _ => (Rows.mem_remove.mp hr).1
  | deleteUser =>
    rw [guildIds_deleteUser] at hg
    obtain ⟨basic, hbasic⟩ := h g hg
    exact ⟨basic, hbasic.of_subset hbasic.mem fun r hr _ => hr⟩
  | createRole _ _ hposition hmanaged _ =>
    obtain ⟨basic, hbasic⟩ := h g hg
    refine ⟨basic, List.mem_append_left _ hbasic.mem, hbasic.guild, hbasic.managed, hbasic.name,
      hbasic.permissions, hbasic.position, ?_⟩
    intro r hr hrg
    rcases List.mem_append.mp hr with hr | hr
    · exact hbasic.others r hr hrg
    · obtain rfl := List.mem_singleton.mp hr
      exact .inr (.inr ⟨hmanaged, hposition⟩)
  | updateRole hr hcustom hf _ _ =>
    obtain ⟨basic, hbasic⟩ := h g hg
    exact ⟨basic, hbasic.updateRole hcons.ids hr hcustom hf⟩
  | deleteRole hr hcustom =>
    obtain ⟨basic, hbasic⟩ := h g hg
    have hne := hbasic.id_ne hcons.ids hr hcustom
    refine ⟨basic, hbasic.of_subset (Rows.mem_remove.mpr ⟨hbasic.mem, by simpa using hne⟩) ?_⟩
    exact fun x hx _ => (Rows.mem_remove.mp hx).1
  | _ =>
    obtain ⟨basic, hbasic⟩ := h g hg
    exact ⟨basic, hbasic.of_subset hbasic.mem fun r hr _ => hr⟩

theorem Reached.haveBasicRoles {s : Server} (hs : Reached X s) : HaveBasicRoles s.db := by
  have hI : Consistent s.db ∧ HaveBasicRoles s.db := by
    refine hs.invariant (P := fun db => Consistent db ∧ HaveBasicRoles db) ⟨consistent_empty, ?_⟩
      ?_ ?_
    · exact fun g hg => nomatch hg
    · intro db db' hsame ⟨hcons, hroles⟩
      refine ⟨hcons.same hsame, fun g hg => ?_⟩
      rw [hsame.guilds] at hg
      obtain ⟨basic, hbasic⟩ := hroles g hg
      refine ⟨basic, hbasic.of_subset ?_ ?_⟩
      · exact hsame.roles ▸ hbasic.mem
      · exact fun r hr _ => hsame.roles ▸ hr
    · intro env user db route db' hfresh ⟨hcons, hroles⟩ hc
      exact ⟨hcons.kept hfresh hc, hroles.kept hcons hfresh hc⟩
  exact hI.2

/-! ### The role of a newcomer -/

/-- No role of the guild was made by a member. -/
def NoCustomRoles (db : Database) (g : Uuid) : Prop :=
  ∀ r ∈ db.guildRoles, r.guildId = g → r.isManaged = true

instance (db : Database) (g : Uuid) : Decidable (NoCustomRoles db g) :=
  inferInstanceAs (Decidable (∀ r ∈ db.guildRoles, _))

theorem lowestRole_some {r : GuildRole} (h : lowestRole env g db = some r) :
    r ∈ db.guildRoles ∧ r.guildId = g ∧
      ∀ r' ∈ db.guildRoles, r'.guildId = g → r.position ≤ r'.position := by
  obtain ⟨hr, hp⟩ := Rows.pick_some h
  simp only [List.all_eq_true, decide_eq_true_eq] at hp
  exact ⟨hr, hp.1, hp.2⟩

/-- Without custom roles the lowest role is the member role. -/
theorem BasicRole.lowest {basic : GuildRole} (h : BasicRole db g basic)
    (hnone : NoCustomRoles db g) : lowestRole env g db = some basic := by
  have hlowest : ∀ r ∈ db.guildRoles, r.guildId = g → r = basic ∨ 1 < r.position := by
    intro r hr hg
    rcases h.others r hr hg with heq | ⟨_, hpos⟩ | ⟨hcustom, _⟩
    · exact .inl heq
    · exact .inr hpos
    · exact nomatch hcustom.symm.trans (hnone r hr hg)
  have hbasic : (decide (basic.guildId = g ∧
      db.guildRoles.all fun r' => r'.guildId = g → basic.position ≤ r'.position)) = true := by
    simp only [decide_eq_true_eq, List.all_eq_true]
    refine ⟨h.guild, fun r hr hg => ?_⟩
    rw [h.position]
    rcases hlowest r hr hg with rfl | hpos
    · rw [h.position]
    · omega
  obtain ⟨r, hlow⟩ : ∃ r, lowestRole env g db = some r := Rows.exists_pick h.mem hbasic
  obtain ⟨hmem, hg, hmin⟩ := lowestRole_some hlow
  rcases hlowest r hmem hg with rfl | hpos
  · exact hlow
  · have := hmin basic h.mem h.guild
    rw [h.position] at this
    omega

/-- With a custom role the lowest role is a custom one. -/
theorem BasicRole.lowest_custom {basic r : GuildRole} (h : BasicRole db g basic)
    (hlow : lowestRole env g db = some r) (hcustom : ¬NoCustomRoles db g) :
    r.isManaged = false := by
  obtain ⟨hr, hg, hmin⟩ := lowestRole_some hlow
  simp only [NoCustomRoles, not_forall, Bool.not_eq_true] at hcustom
  obtain ⟨c, hc, hcg, hcm⟩ := hcustom
  have hle := hmin c hc hcg
  have hzero : c.position = 0 := by
    rcases h.others c hc hcg with rfl | ⟨hman, _⟩ | ⟨_, hpos⟩
    · exact nomatch hcm.symm.trans h.managed
    · exact nomatch hcm.symm.trans hman
    · exact hpos
  rcases h.others r hr hg with rfl | ⟨_, hpos⟩ | ⟨hman, _⟩
  · have := h.position
    omega
  · omega
  · exact hman

/-- The membership has the member role created with its guild and no other, and gives no
permission beyond those of a member. -/
def BasicMembership (db : Database) (m : GuildMember) : Prop :=
  (∃ r ∈ db.guildRoles, r.guildId = m.guildId ∧ r.isManaged = true ∧ r.name = "Участник" ∧
    m.roles = [r.id]) ∧
  ∀ p, hasPermission db m p = true → DefaultPermissions.member.testBit p.bit = true

theorem BasicRole.basicMembership {basic : GuildRole} {m : GuildMember} (hids : UniqueIds db)
    (h : BasicRole db m.guildId basic) (hroles : m.roles = [basic.id]) : BasicMembership db m := by
  refine ⟨⟨basic, h.mem, h.guild, h.managed, h.name, hroles⟩, fun p hp => ?_⟩
  have hadmin : DefaultPermissions.member.testBit Permission.administrator.bit = false := by decide
  have hread : nearestDouble DefaultPermissions.member = DefaultPermissions.member :=
    nearestDouble_of_le (by decide)
  simpa [hasPermission, Database.rolesOf, hroles, roleById_of_mem hids h.mem,
    GuildRole.hasPermission, bitAnd_value, h.permissions, hread, hadmin] using hp

/-- In every reachable state, a join that succeeds gives the member role alone exactly when the
guild has no custom role. -/
theorem join_basicMembership_iff {s : Server} (hs : Reached X s) {code : String} {m : GuildMember}
    (hjoin : (joinByInvite env code user).outcome s.db = .ok m) :
    BasicMembership ((joinByInvite env code user).final s.db) m ↔
      NoCustomRoles s.db m.guildId := by
  obtain ⟨guild, hguild, _, hm, hdb⟩ := joinByInvite_wp.of_returned hjoin
  have hgid : m.guildId = guild.id := by rw [hm]; rfl
  have hmem : guild.id ∈ s.db.guilds.map (·.id) :=
    List.mem_map.mpr ⟨guild, (guildByCode_mem hguild).1, rfl⟩
  obtain ⟨basic, hbasic⟩ := hs.haveBasicRoles guild.id hmem
  have hids := hs.consistent.ids
  have hroles : m.roles = ((lowestRole env guild.id s.db).map (·.id)).toList := by rw [hm]; rfl
  rw [hgid]
  -- a join writes a membership only
  have hafter : BasicMembership ((joinByInvite env code user).final s.db) m ↔
      BasicMembership s.db m := by rw [hdb]; rfl
  rw [hafter]
  constructor
  · intro ⟨⟨r, hr, _, hmanaged, _, hlist⟩, _⟩
    by_contra hcustom
    cases hlow : lowestRole env guild.id s.db with
    | none =>
      rw [hroles, hlow] at hlist
      exact nomatch hlist
    | some low =>
      rw [hroles, hlow] at hlist
      have hid : low.id = r.id := by simpa using hlist
      have hlowMem := (lowestRole_some hlow).1
      obtain rfl := Rows.eq_of_nodup hids.roles hlowMem hr hid
      exact nomatch (hbasic.lowest_custom hlow hcustom).symm.trans hmanaged
  · intro hnone
    rw [hbasic.lowest hnone] at hroles
    exact (hgid ▸ hbasic).basicMembership hids hroles

/-- The membership that Bob gets by his request `n`. -/
def bobsMembership (n : Nat) (role : Uuid) : GuildMember :=
  newMember (sampleEnv n) (sampleUuid n 0) sampleGuild bob.id .active [role]

theorem bob_basicMembership :
    BasicMembership ((joinByInvite (sampleEnv 4) "code3" bob).final
      (run (serve sampleExternals) Server.empty (guildRun .absent)).db)
      (bobsMembership 4 (sampleUuid 3 3)) := by
  have hs : Reached sampleExternals (run (serve sampleExternals) Server.empty (guildRun .absent)) :=
    ⟨_, by decide +kernel, rfl⟩
  exact (join_basicMembership_iff hs (by decide +kernel)).mpr (by decide +kernel)

/-- Alice makes a role for administrators. -/
def customRoleServer : Server :=
  run (serve sampleExternals) Server.empty (guildRun .absent ++ [byAlice 4 (.createRole
    sampleGuild.toText ⟨"admins", .absent, .value (2 ^ 30), .absent⟩)])

/-- Bob, who joins after that, is an administrator of the guild. -/
theorem customRole_not_basicMembership :
    Reached sampleExternals customRoleServer ∧
      (joinByInvite (sampleEnv 5) "code3" bob).outcome customRoleServer.db =
        .ok (bobsMembership 5 (sampleUuid 4 0)) ∧
      ¬BasicMembership ((joinByInvite (sampleEnv 5) "code3" bob).final customRoleServer.db)
        (bobsMembership 5 (sampleUuid 4 0)) := by
  refine ⟨⟨_, by decide +kernel, rfl⟩, by decide +kernel, fun h => ?_⟩
  have hadmin := h.2 .administrator (by decide +kernel)
  exact absurd hadmin (by decide)

end VoxLink
