import VoxLink.Backend.Guilds

/-! What each operation of `GuildsService` does: under which conditions it succeeds, the tables it
leaves then, and that it leaves them alone when it throws. -/

namespace VoxLink.GuildsService

open ProofKit Prog

variable {env : Env} {db : Database} {user : Profile} {guildId targetUserId roleId : String}

/-! ### Permissions -/

/-- The user has an active membership in the guild. -/
def ActiveMember (db : Database) (g u : Uuid) (m : GuildMember) : Prop :=
  m ∈ db.guildMembers ∧ m.guildId = g ∧ m.userId = u ∧ m.status = .active

/-- The user may do in the guild what needs `p`. -/
def Permitted (db : Database) (g u : Uuid) (p : Permission) : Prop :=
  ∃ guild, db.guildById g = some guild ∧
    (guild.ownerId = some u ∨ ∃ m, ActiveMember db g u m ∧ hasPermission db m p = true)

theorem guildById_mem {g : Uuid} {guild : Guild} (h : db.guildById g = some guild) :
    guild ∈ db.guilds ∧ guild.id = g := by
  have hid := List.find?_some h
  exact ⟨List.mem_of_find?_eq_some h, by simpa using hid⟩

theorem Permitted.exists_guild {g u : Uuid} {p : Permission} (h : Permitted db g u p) :
    ∃ guild ∈ db.guilds, guild.id = g := by
  obtain ⟨guild, hguild, -⟩ := h
  exact ⟨guild, guildById_mem hguild⟩

theorem getMemberOrThrow_wp {site : Nat} {g u : Uuid} :
    wp (getMemberOrThrow env site g u) (fun m db' => db' = db ∧ ActiveMember db g u m)
      (fun _ db' => db' = db ∧ ∀ m, ¬ActiveMember db g u m) db := by
  simp only [getMemberOrThrow, wp_bind, wp_query, wp_orThrow, true_and]
  constructor
  · intro m hm
    obtain ⟨hmem, hp⟩ := Rows.pick_some hm
    exact ⟨hmem, by simpa using hp⟩
  · intro hnone m hm
    have := Rows.pick_eq_none.mp hnone m hm.1
    simp [hm.2.1, hm.2.2.1, hm.2.2.2] at this

theorem requirePermission_wp {g u : Uuid} {p : Permission} :
    wp (requirePermission env g u p) (fun _ db' => db' = db ∧ Permitted db g u p)
      (fun _ db' => db' = db) db := by
  simp only [requirePermission, wp_bind, wp_query, wp_orThrow, implies_true, and_true]
  intro guild hguild
  split
  · exact ⟨rfl, guild, hguild, .inl ‹_›⟩
  · rw [wp_bind]
    refine getMemberOrThrow_wp.mono ?_ fun _ _ h => h.1
    rintro m _ ⟨rfl, hm⟩
    simp only [wp_bind, wp_query, wp_throwIf, Bool.not_eq_false', implies_true, and_true, true_and]
    exact fun hp => ⟨guild, hguild, .inr ⟨m, hm, hp⟩⟩

/-- The prefix of every guarded operation: the rest runs on the same tables, and its caller is
permitted. -/
theorem authorised {α : Type} {p : Permission} {u : Uuid} {k : Uuid → Service α}
    {Q : α → Database → Prop} {E : Exception → Database → Prop} (hE : ∀ e, E e db)
    (hk : ∀ g, Uuid.parse guildId = some g → Permitted db g u p → wp (k g) Q E db) :
    wp (do let g ← uuidOf guildId; requirePermission env g u p; k g) Q E db := by
  rw [wp_bind, wp_uuidOf]
  refine ⟨fun g hg => ?_, fun _ => hE _⟩
  refine wp_bind.mpr (requirePermission_wp.mono ?_ ?_)
  · rintro _ _ ⟨rfl, hp⟩
    exact hk g hg hp
  · rintro e _ rfl
    exact hE e

/-! ### Members -/

/-- The owner check of `kickMember` and `banMember` lets the text through. -/
def NotOwnerText (db : Database) (g : Uuid) (text : String) : Prop :=
  decide (((db.guildById g).bind (·.ownerId)).map Uuid.toText = some text) = false

theorem kickMember_wp :
    wp (kickMember env guildId targetUserId user)
      (fun _ db' => ∃ g t, Uuid.parse guildId = some g ∧ Permitted db g user.id .kickMembers ∧
        Uuid.parse targetUserId = some t ∧ NotOwnerText db g targetUserId ∧
        db' = { db with
          guildMembers := Rows.remove (fun m => m.guildId = g ∧ m.userId = t) db.guildMembers })
      (fun _ db' => db' = db) db := by
  refine authorised (fun _ => rfl) fun g hg hperm => ?_
  simp only [wp_bind, wp_query, wp_throwIf, wp_uuidOf, wp_write, implies_true, and_true]
  intro hown t ht
  exact ⟨g, t, hg, hperm, ht, hown, rfl⟩

theorem banMember_wp :
    wp (banMember env guildId targetUserId user)
      (fun _ db' => ∃ g t, Uuid.parse guildId = some g ∧ Permitted db g user.id .banMembers ∧
        Uuid.parse targetUserId = some t ∧ NotOwnerText db g targetUserId ∧
        db' = { db with
          guildMembers := Rows.modify (fun m => m.guildId = g ∧ m.userId = t)
            (fun m => { m with status := .banned, updatedAt := env.now }) db.guildMembers })
      (fun _ db' => db' = db) db := by
  refine authorised (fun _ => rfl) fun g hg hperm => ?_
  simp only [wp_bind, wp_query, wp_throwIf, wp_uuidOf, wp_write, implies_true, and_true]
  intro hown t ht
  exact ⟨g, t, hg, hperm, ht, hown, rfl⟩

/-- A join is let in by the first row the database returns: there is none, or it is pending. -/
def JoinAdmitted (db : Database) (g u : Uuid) : Prop :=
  (∀ m ∈ db.guildMembers, ¬(m.guildId = g ∧ m.userId = u)) ∨
    ∃ m ∈ db.guildMembers, m.guildId = g ∧ m.userId = u ∧ m.status = .pending

theorem guildByCode_mem {code : String} {guild : Guild} (h : guildByCode code db = some guild) :
    guild ∈ db.guilds ∧ guild.inviteCode = some code := by
  have hcode := List.find?_some h
  exact ⟨List.mem_of_find?_eq_some h, by simpa using hcode⟩

theorem joinAdmitted_of_pick {k : Nat} {g u : Uuid} {existing : Option GuildMember}
    (h : Rows.pick k (fun m => m.guildId = g ∧ m.userId = u) db.guildMembers = existing)
    (hactive : decide (existing.map (·.status) = some .active) = false)
    (hbanned : decide (existing.map (·.status) = some .banned) = false) :
    JoinAdmitted db g u := by
  cases existing with
  | none =>
    refine .inl fun m hm hp => ?_
    have := Rows.pick_eq_none.mp h m hm
    simp [hp.1, hp.2] at this
  | some m =>
    obtain ⟨hm, hp⟩ := Rows.pick_some h
    simp only [decide_eq_true_eq] at hp
    refine .inr ⟨m, hm, hp.1, hp.2, ?_⟩
    cases hs : m.status <;> simp [hs] at hactive hbanned
    rfl

theorem joinByInvite_wp {code : String} :
    wp (joinByInvite env code user)
      (fun m db' => ∃ guild, guildByCode code db = some guild ∧
        JoinAdmitted db guild.id user.id ∧
        m = newMember env (env.uuids 0) guild.id user.id
          (if guild.requiresApproval then .pending else .active)
          ((lowestRole env guild.id db).map (·.id)).toList ∧
        db' = { db with guildMembers := db.guildMembers ++ [m] })
      (fun _ db' => db' = db) db := by
  simp only [joinByInvite, saveMember, wp_bind, wp_query, wp_orThrow, wp_throwIf, wp_references,
    wp_write, wp_pure, implies_true, and_true]
  intro guild hguild hactive hbanned _
  exact ⟨guild, hguild, joinAdmitted_of_pick rfl hactive hbanned, rfl⟩

theorem findRole_wp {g : Uuid} :
    wp (findRole roleId g) (fun r db' => db' = db ∧ r ∈ db.guildRoles ∧
      Uuid.parse roleId = some r.id ∧ r.guildId = g) (fun _ db' => db' = db) db := by
  simp only [findRole, wp_bind, wp_query, wp_uuidOf, wp_orThrow, implies_true, and_true, true_and]
  intro id hid r hr
  have hp := List.find?_some hr
  simp only [decide_eq_true_eq] at hp
  exact ⟨List.mem_of_find?_eq_some hr, by rw [hid, hp.1], hp.2⟩

/-- The tables after a member's links are stored. -/
def withRoles (db : Database) (m : GuildMember) (roles : List GuildRole) : Database :=
  { db with
    guildMembers := Rows.modify (·.id = m.id)
      (fun x => { x with roles := (roles.map (·.id)).eraseDups }) db.guildMembers }

/-- An assignment stores the links of the target with the role, unless it is loaded with him
already. -/
theorem assignRole_links_wp :
    wp (assignRole env guildId targetUserId roleId user)
      (fun _ db' => ∃ g t role m, Uuid.parse guildId = some g ∧
        Permitted db g user.id .manageRoles ∧ Uuid.parse targetUserId = some t ∧
        ActiveMember db g t m ∧ role ∈ db.guildRoles ∧ Uuid.parse roleId = some role.id ∧
        role.guildId = g ∧ (db' = db ∧ (∃ r ∈ db.rolesOf m, r.id = role.id) ∨
          db' = withRoles db m (db.rolesOf m ++ [role])))
      (fun _ db' => db' = db) db := by
  refine authorised (fun _ => rfl) fun g hg hperm => ?_
  refine findRole_wp.seq ?_
  rintro role _ ⟨rfl, hrole, hid, hguild⟩
  rw [wp_bind, wp_uuidOf]
  refine ⟨fun t ht => ?_, fun _ => rfl⟩
  refine (getMemberOrThrow_wp.mono (fun _ _ h => h) fun _ _ h => h.1).seq ?_
  rintro m _ ⟨rfl, hm⟩
  simp only [wp_bind, wp_query]
  split
  · rename_i hheld
    obtain ⟨r, hr, htext⟩ := List.any_eq_true.mp hheld
    simp only [decide_eq_true_eq] at htext
    rw [← htext, Uuid.parse_toText] at hid
    refine ⟨g, t, role, m, hg, hperm, ht, hm, hrole, ?_, hguild, .inl ⟨rfl, r, hr, ?_⟩⟩
    · rw [← htext, Uuid.parse_toText, hid]
    · exact Option.some.inj hid
  · exact ⟨g, t, role, m, hg, hperm, ht, hm, hrole, hid, hguild, .inr rfl⟩

theorem assignRole_wp :
    wp (assignRole env guildId targetUserId roleId user)
      (fun _ db' => ∃ g t role m, Uuid.parse guildId = some g ∧
        Permitted db g user.id .manageRoles ∧ Uuid.parse targetUserId = some t ∧
        ActiveMember db g t m ∧ role ∈ db.guildRoles ∧ Uuid.parse roleId = some role.id ∧
        role.guildId = g ∧ (db' = db ∨ db' = withRoles db m (db.rolesOf m ++ [role])))
      (fun _ db' => db' = db) db := by
  refine assignRole_links_wp.mono ?_ fun _ _ h => h
  rintro _ _ ⟨g, t, role, m, hg, hperm, ht, hm, hrole, hid, hguild, hdb⟩
  exact ⟨g, t, role, m, hg, hperm, ht, hm, hrole, hid, hguild, hdb.imp_left And.left⟩

theorem removeRole_wp :
    wp (removeRole env guildId targetUserId roleId user)
      (fun _ db' => ∃ g t m, Uuid.parse guildId = some g ∧
        Permitted db g user.id .manageRoles ∧ Uuid.parse targetUserId = some t ∧
        ActiveMember db g t m ∧
        db' = withRoles db m ((db.rolesOf m).filter fun r => r.id.toText ≠ roleId))
      (fun _ db' => db' = db) db := by
  refine authorised (fun _ => rfl) fun g hg hperm => ?_
  rw [wp_bind, wp_uuidOf]
  refine ⟨fun t ht => ?_, fun _ => rfl⟩
  refine (getMemberOrThrow_wp.mono (fun _ _ h => h) fun _ _ h => h.1).seq ?_
  rintro m _ ⟨rfl, hm⟩
  exact ⟨g, t, m, hg, hperm, ht, hm, rfl⟩

/-! ### Roles -/

/-- The mask of a role after the body, when it is one that the column takes. -/
def newMask (d : CreateRoleDto) (old : Int) : Option Int :=
  match d.permissions with
  | .absent => some old
  | .null => none
  | .value q => toInteger 64 q

theorem wp_permissions {d : CreateRoleDto} {old : Int} {Q : Int → Database → Prop}
    {E : Exception → Database → Prop} (hQ : ∀ n, newMask d old = some n → Q n db)
    (hE : ∀ e, E e db) : wp (integerColumn "permissions" 64 old d.permissions) Q E db := by
  unfold newMask at hQ
  cases hfield : d.permissions with
  | absent => exact hQ old (by rw [hfield])
  | null => exact hE _
  | value q =>
    rw [hfield] at hQ
    exact wp_orThrow.mpr ⟨hQ, fun _ => hE _⟩

theorem createRole_wp {d : CreateRoleDto} :
    wp (createRole env guildId d user)
      (fun r db' => ∃ g, Uuid.parse guildId = some g ∧ Permitted db g user.id .manageRoles ∧
        r.id = env.uuids 0 ∧ r.guildId = g ∧ r.position = 0 ∧ r.isManaged = false ∧
        newMask d DefaultPermissions.member = some r.permissions ∧
        db' = { db with guildRoles := db.guildRoles ++ [r] })
      (fun _ db' => db' = db) db := by
  refine authorised (fun _ => rfl) fun g hg hperm => ?_
  rw [wp_bind, wp_texts]
  refine ⟨fun _ => ?_, fun _ => rfl⟩
  rw [wp_bind, wp_column]
  refine ⟨fun color _ => ?_, fun _ => rfl⟩
  rw [wp_bind]
  refine wp_permissions (fun permissions hmask => ?_) fun _ => rfl
  rw [wp_bind, wp_column]
  refine ⟨fun isHoisted _ => ?_, fun _ => rfl⟩
  exact ⟨g, hg, hperm, rfl, rfl, rfl, rfl, hmask, rfl⟩

/-- A change of a role that keeps its identity, its guild and its standing. -/
def KeepsStanding (f : GuildRole → GuildRole) : Prop :=
  ∀ r, (f r).id = r.id ∧ (f r).guildId = r.guildId ∧ (f r).position = r.position ∧
    (f r).isManaged = r.isManaged

theorem updateRole_wp {d : CreateRoleDto} :
    wp (updateRole env guildId roleId d user)
      (fun _ db' => ∃ g role mask f, Uuid.parse guildId = some g ∧
        Permitted db g user.id .manageRoles ∧ role ∈ db.guildRoles ∧
        Uuid.parse roleId = some role.id ∧ role.guildId = g ∧ role.isManaged = false ∧
        newMask d role.permissions = some mask ∧ KeepsStanding f ∧
        (∀ r, (f r).permissions = mask) ∧
        db' = { db with guildRoles := Rows.modify (·.id = role.id) f db.guildRoles })
      (fun _ db' => db' = db) db := by
  refine authorised (fun _ => rfl) fun g hg hperm => ?_
  refine findRole_wp.seq ?_
  rintro role _ ⟨rfl, hrole, hid, hguild⟩
  rw [wp_bind, wp_throwIf]
  refine ⟨fun hmanaged => ?_, fun _ => rfl⟩
  rw [wp_bind, wp_texts]
  refine ⟨fun _ => ?_, fun _ => rfl⟩
  rw [wp_bind, wp_column]
  refine ⟨fun color _ => ?_, fun _ => rfl⟩
  rw [wp_bind]
  refine wp_permissions (fun mask hmask => ?_) fun _ => rfl
  rw [wp_bind, wp_column]
  refine ⟨fun isHoisted _ => ?_, fun _ => rfl⟩
  refine ⟨g, role, mask, _, hg, hperm, hrole, hid, hguild, hmanaged, hmask, ?_, ?_, rfl⟩
  · exact fun _ => ⟨rfl, rfl, rfl, rfl⟩
  · exact fun _ => rfl

theorem deleteRole_wp :
    wp (deleteRole env guildId roleId user)
      (fun _ db' => ∃ g role, Uuid.parse guildId = some g ∧
        Permitted db g user.id .manageRoles ∧ role ∈ db.guildRoles ∧
        Uuid.parse roleId = some role.id ∧ role.guildId = g ∧ role.isManaged = false ∧
        db' = db.deleteRole role.id)
      (fun _ db' => db' = db) db := by
  refine authorised (fun _ => rfl) fun g hg hperm => ?_
  refine findRole_wp.seq ?_
  rintro role _ ⟨rfl, hrole, hid, hguild⟩
  rw [wp_bind, wp_throwIf]
  exact ⟨fun hmanaged => ⟨g, role, hg, hperm, hrole, hid, hguild, hmanaged, rfl⟩, fun _ => rfl⟩

/-! ### Categories and channels -/

theorem createCategory_wp {d : CreateCategoryDto} :
    wp (createCategory env guildId d user)
      (fun c db' => ∃ g, Uuid.parse guildId = some g ∧ Permitted db g user.id .manageChannels ∧
        c.id = env.uuids 0 ∧ c.guildId = g ∧
        db' = { db with channelCategories := db.channelCategories ++ [c] })
      (fun _ db' => db' = db) db := by
  refine authorised (fun _ => rfl) fun g hg hperm => ?_
  rw [wp_bind, wp_texts]
  refine ⟨fun _ => ?_, fun _ => rfl⟩
  rw [wp_bind]
  refine wp_integerColumn (fun position => ?_) fun _ => rfl
  rw [wp_bind, wp_column]
  exact ⟨fun isPrivate _ => ⟨g, hg, hperm, rfl, rfl, rfl⟩, fun _ => rfl⟩

/-- The tables after a category of `g` is deleted and every channel is taken out of it. -/
def withoutCategory (env : Env) (db : Database) (g c : Uuid) : Database :=
  { db with
    channels := Rows.modify (·.categoryId = some c)
      (fun x => { x with categoryId := none, updatedAt := env.now }) db.channels
    channelCategories := Rows.remove (fun k => k.id = c ∧ k.guildId = g) db.channelCategories }

theorem deleteCategory_wp {categoryId : String} :
    wp (deleteCategory env guildId categoryId user)
      (fun _ db' => ∃ g c, Uuid.parse guildId = some g ∧ Permitted db g user.id .manageChannels ∧
        Uuid.parse categoryId = some c ∧ db' = withoutCategory env db g c)
      (fun _ db' => db' = db) db := by
  refine authorised (fun _ => rfl) fun g hg hperm => ?_
  rw [wp_bind, wp_uuidOf]
  exact ⟨fun c hc => ⟨g, c, hg, hperm, hc, rfl⟩, fun _ => rfl⟩

/-- A channel's category, if it has one, is a category of the guild. -/
def CategoryIn (db : Database) (g : Uuid) (category : Option Uuid) : Prop :=
  ∀ c, category = some c → ∃ k ∈ db.channelCategories, k.id = c ∧ k.guildId = g

theorem categoryTarget_wp {g : Uuid} {field : BodyField String} :
    wp (categoryTarget g field) (fun c db' => db' = db ∧ CategoryIn db g c)
      (fun _ db' => db' = db) db := by
  cases field with
  | absent => exact ⟨rfl, fun _ h => nomatch h⟩
  | null => exact ⟨rfl, fun _ h => nomatch h⟩
  | value s =>
    simp only [categoryTarget, wp_bind, wp_uuidOf, wp_query, wp_throwIf, wp_pure,
      Bool.not_eq_false', implies_true, and_true, true_and]
    rintro c _ hfound _ ⟨⟩
    simpa using hfound

theorem createChannel_wp {d : CreateGuildChannelDto} :
    wp (createChannel env guildId d user)
      (fun c db' => ∃ g, Uuid.parse guildId = some g ∧ Permitted db g user.id .manageChannels ∧
        c.id = env.uuids 0 ∧ c.guildId = some g ∧ CategoryIn db g c.categoryId ∧
        db' = { db with channels := db.channels ++ [c] })
      (fun _ db' => db' = db) db := by
  refine authorised (fun _ => rfl) fun g hg hperm => ?_
  refine categoryTarget_wp.seq ?_
  rintro categoryId _ ⟨rfl, hcat⟩
  simp only [wp_bind, wp_texts, wp_column, wp_query, wp_references, wp_write, wp_pure,
    implies_true, and_true, true_and]
  intro _ type _ isPrivate _ _
  exact ⟨g, hg, hperm, rfl, hcat⟩

/-! ### Guilds -/

theorem findGuild_wp {g : Uuid} :
    wp (findGuild env g user)
      (fun v db' => db' = db ∧ v.categories = db.structureOf g)
      (fun _ db' => db' = db ∧ ((db.guildById g = none) ∨ ∀ m, ¬ActiveMember db g user.id m))
      db := by
  simp only [findGuild, wp_bind, wp_query, wp_orThrow, true_and]
  refine ⟨fun guild hguild => ?_, fun hnone => .inl hnone⟩
  refine getMemberOrThrow_wp.mono ?_ fun _ _ h => ⟨h.1, .inr h.2⟩
  rintro m _ ⟨rfl, -⟩
  exact ⟨rfl, rfl⟩

theorem findOne_wp {g : Uuid} (hg : Uuid.parse guildId = some g) :
    wp (findOne env guildId user) (fun v db' => db' = db ∧ v.categories = db.structureOf g)
      (fun _ db' => db' = db) db := by
  simp only [findOne, wp_bind, wp_uuidOf, hg]
  refine ⟨fun g' hg' => ?_, fun h => by cases h⟩
  obtain rfl := Option.some.inj hg'
  exact findGuild_wp.mono (fun _ _ h => h) fun _ _ h => h.1

theorem getChannels_wp {g : Uuid} (hg : Uuid.parse guildId = some g) :
    wp (getChannels env guildId user) (fun v db' => db' = db ∧ v = db.structureOf g)
      (fun _ db' => db' = db) db := by
  simp only [getChannels, wp_bind, wp_uuidOf, hg]
  refine ⟨fun g' hg' => ?_, fun h => by cases h⟩
  obtain rfl := Option.some.inj hg'
  refine getMemberOrThrow_wp.mono ?_ fun _ _ h => h.1
  rintro m _ ⟨rfl, -⟩
  simp [wp_orThrow]

/-- The tables with a new guild: its system roles, the membership of its owner, and the default
categories and channels. -/
def withGuild (env : Env) (db : Database) (guild : Guild) (owner : Uuid) : Database :=
  { db with
    guilds := db.guilds ++ [guild]
    guildRoles := db.guildRoles ++
      [ownerRole env guild.id, officerRole env guild.id, memberRole env guild.id]
    guildMembers := db.guildMembers ++
      [newMember env (env.uuids 4) guild.id owner .active [env.uuids 1]]
    channelCategories := db.channelCategories ++
      [textCategory env guild.id, voiceCategory env guild.id]
    channels := db.channels ++ defaultChannels env guild.id }

theorem create_wp {d : CreateGuildDto} :
    wp (create env d user)
      (fun _ db' => ∃ guild, guild.id = env.uuids 0 ∧ guild.ownerId = some user.id ∧
        db' = withGuild env db guild user.id)
      (fun _ db' => db' = db) db := by
  simp only [create, uniqueCode, createDefaultStructure, saveRole, saveMember, saveCategory,
    wp_bind, wp_texts, wp_column, wp_query, wp_references, wp_throwIf, wp_write, implies_true,
    and_true]
  intro _ isPublic _ requiresApproval _ _ _
  simp only [List.append_assoc, List.cons_append, List.nil_append]
  refine findGuild_wp.mono ?_ ?_
  · rintro _ _ ⟨rfl, -⟩
    exact ⟨_, rfl, rfl, rfl⟩
  · -- the membership written above makes the last check pass
    rintro _ _ ⟨rfl, hguild | hmember⟩
    · simp [Database.guildById, List.find?_append] at hguild
    · exact absurd ⟨List.mem_append_right _ (List.mem_singleton.mpr rfl), rfl, rfl, rfl⟩
        (hmember (newMember env (env.uuids 4) (env.uuids 0) user.id .active [env.uuids 1]))

/-- A change of a guild that keeps its identity and its owner. -/
def KeepsOwner (f : Guild → Guild) : Prop := ∀ x, (f x).id = x.id ∧ (f x).ownerId = x.ownerId

theorem updateRow_wp {g : Uuid} {d : UpdateGuildDto} :
    wp (updateRow env g d)
      (fun _ db' => db.guildById g = none ∧ db' = db ∨ ∃ f, KeepsOwner f ∧
        db' = { db with guilds := Rows.modify (·.id = g) f db.guilds })
      (fun _ db' => db' = db) db := by
  simp only [updateRow, wp_bind, wp_texts, wp_query, implies_true, and_true]
  intro _
  split
  · rename_i hnone
    exact .inl ⟨hnone, rfl⟩
  · simp only [wp_bind, wp_column, wp_write, implies_true, and_true]
    intro name _ isPublic _ requiresApproval _
    refine .inr ⟨_, ?_, rfl⟩
    exact fun _ => ⟨rfl, rfl⟩

/-- `update` reads the guild back through the membership check, so it may throw after its
write. -/
theorem update_wp {d : UpdateGuildDto} :
    wp (update env guildId d user)
      (fun _ db' => ∃ g f, Uuid.parse guildId = some g ∧ Permitted db g user.id .manageGuild ∧
        KeepsOwner f ∧ db' = { db with guilds := Rows.modify (·.id = g) f db.guilds })
      (fun _ db' => db' = db ∨ ∃ g f, Uuid.parse guildId = some g ∧
        Permitted db g user.id .manageGuild ∧ KeepsOwner f ∧
        db' = { db with guilds := Rows.modify (·.id = g) f db.guilds } ∧
        ∀ m, ¬ActiveMember db g user.id m) db := by
  refine authorised (fun _ => .inl rfl) fun g hg hperm => ?_
  refine (updateRow_wp.mono (fun _ _ h => h) fun _ _ h => .inl h).seq ?_
  rintro _ db' (⟨hnone, rfl⟩ | ⟨f, hf, rfl⟩)
  · obtain ⟨guild, hguild, -⟩ := hperm
    rw [hguild] at hnone
    exact nomatch hnone
  · refine findGuild_wp.mono ?_ ?_
    · rintro _ _ ⟨rfl, -⟩
      exact ⟨g, f, hg, hperm, hf, rfl⟩
    · rintro _ _ ⟨rfl, hguild | hmember⟩
      · obtain ⟨guild, hguild', -⟩ := hperm
        obtain ⟨hmem, hid⟩ := guildById_mem hguild'
        have hin : f guild ∈ Rows.modify (·.id = g) f db.guilds :=
          Rows.mem_modify.mpr ⟨guild, hmem, by simp [hid]⟩
        have := List.find?_eq_none.mp hguild _ hin
        simp [(hf guild).1, hid] at this
      · exact .inr ⟨g, f, hg, hperm, hf, rfl, hmember⟩

theorem delete_wp :
    wp (delete guildId user)
      (fun _ db' => ∃ g guild, Uuid.parse guildId = some g ∧ db.guildById g = some guild ∧
        guild.ownerId = some user.id ∧ db.guildReferenced g = false ∧ db' = db.deleteGuild g)
      (fun _ db' => db' = db) db := by
  simp only [delete, wp_bind, wp_uuidOf, wp_query, wp_orThrow, wp_throwIf, wp_write, implies_true,
    and_true]
  intro g hg guild hguild howner href
  exact ⟨g, guild, hg, hguild, by simpa using howner, href, rfl⟩

theorem regenerateInviteCode_wp :
    wp (regenerateInviteCode env guildId user)
      (fun _ db' => ∃ g f, Uuid.parse guildId = some g ∧ Permitted db g user.id .createInvite ∧
        KeepsOwner f ∧ db' = { db with guilds := Rows.modify (·.id = g) f db.guilds })
      (fun _ db' => db' = db) db := by
  refine authorised (fun _ => rfl) fun g hg hperm => ?_
  simp only [uniqueCode, wp_bind, wp_query, wp_throwIf, wp_write, wp_pure, implies_true, and_true]
  intro _
  refine ⟨g, _, hg, hperm, ?_, rfl⟩
  exact fun _ => ⟨rfl, rfl⟩

end VoxLink.GuildsService
