import VoxLink.Guilds.Effects
import VoxLink.ProofKit.Writes
import VoxLink.Secrecy.Passwords

/-! Storage that fails in the middle of a request. `GuildsService.create` makes eight writes and
`deleteCategory` two, each its own statement, and no transaction stands around them. -/

namespace VoxLink

open ProofKit Prog

variable {env : Env} {db : Database} {e : Exception} {user : Profile}

namespace GuildsService

/-! ### The requests over storage that fails -/

section

variable (env : Env) (fails : Nat → Option Exception)

/-- The checks of `create` and the database before the first write, with the row to be written. -/
def newGuild (d : CreateGuildDto) (owner : Profile) : Service Guild := do
  texts d.storable
  let isPublic ← column "isPublic" (d.isPublic.required false)
  let requiresApproval ← column "requiresApproval" (d.requiresApproval.required false)
  let ownerFound ← query fun db => (db.userById owner.id).isSome
  references "ownerId" ownerFound
  uniqueCode (env.uuids 0) env.nanoid
  pure
    { id := env.uuids 0, name := d.name, description := d.description.nullable none, icon := none
      banner := none, inviteCode := some env.nanoid, isPublic, requiresApproval
      ownerId := some owner.id, createdAt := env.now, updatedAt := env.now }

def createDefaultStructureStored (g : Uuid) : Service Unit := do
  unlessFailing (fails 5) (saveCategory (textCategory env g))
  unlessFailing (fails 6) (saveCategory (voiceCategory env g))
  unlessFailing (fails 7)
    (write fun db => { db with channels := db.channels ++ defaultChannels env g })

/-- `create`, each of whose writes fails if `fails` gives an error for it. -/
def createStored (d : CreateGuildDto) (owner : Profile) : Service GuildView := do
  let guild ← newGuild env d owner
  unlessFailing (fails 0) (write fun db => { db with guilds := db.guilds ++ [guild] })
  unlessFailing (fails 1) (saveRole (ownerRole env guild.id))
  unlessFailing (fails 2) (saveRole (officerRole env guild.id))
  unlessFailing (fails 3) (saveRole (memberRole env guild.id))
  unlessFailing (fails 4)
    (saveMember
      (newMember env (env.uuids 4) guild.id owner.id .active [(ownerRole env guild.id).id]))
  createDefaultStructureStored env fails guild.id
  findGuild env guild.id owner

/-- The checks of `deleteCategory`, with the guild and the category it names. -/
def categoryNamed (guildId categoryId : String) (user : Profile) : Service (Uuid × Uuid) := do
  let g ← uuidOf guildId
  requirePermission env g user.id .manageChannels
  let c ← uuidOf categoryId
  pure (g, c)

/-- `deleteCategory`, each of whose writes fails if `fails` gives an error for it. -/
def deleteCategoryStored (guildId categoryId : String) (user : Profile) : Service Unit := do
  let (g, c) ← categoryNamed env guildId categoryId user
  unlessFailing (fails 0) (write fun db => { db with
    channels := Rows.modify (·.categoryId = some c)
      (fun x => { x with categoryId := none, updatedAt := env.now }) db.channels })
  unlessFailing (fails 1) (write fun db => { db with
    channelCategories := Rows.remove (fun k => k.id = c ∧ k.guildId = g) db.channelCategories })

/-- The writes of `create`, in their order. -/
def createWrites (owner : Profile) (guild : Guild) : List (Database → Database) :=
  [fun db => { db with guilds := db.guilds ++ [guild] },
    fun db => { db with guildRoles := db.guildRoles ++ [ownerRole env guild.id] },
    fun db => { db with guildRoles := db.guildRoles ++ [officerRole env guild.id] },
    fun db => { db with guildRoles := db.guildRoles ++ [memberRole env guild.id] },
    fun db => { db with guildMembers := db.guildMembers ++
      [newMember env (env.uuids 4) guild.id owner.id .active [(ownerRole env guild.id).id]] },
    fun db => { db with channelCategories := db.channelCategories ++ [textCategory env guild.id] },
    fun db => { db with channelCategories := db.channelCategories ++ [voiceCategory env guild.id] },
    fun db => { db with channels := db.channels ++ defaultChannels env guild.id }]

/-- The writes of `deleteCategory`, in their order. -/
def deleteCategoryWrites (named : Uuid × Uuid) : List (Database → Database) :=
  [fun db => { db with
      channels := Rows.modify (·.categoryId = some named.2)
        (fun x => { x with categoryId := none, updatedAt := env.now }) db.channels },
    fun db => { db with
      channelCategories :=
        Rows.remove (fun k => k.id = named.2 ∧ k.guildId = named.1) db.channelCategories }]

end

/-! ### What is left after a failure -/

theorem createStored_none (d : CreateGuildDto) (owner : Profile) :
    createStored env (fun _ => none) d owner = create env d owner := by
  simp only [createStored, newGuild, create, bind_assoc, pure_bind, unlessFailing,
    createDefaultStructureStored, createDefaultStructure]

theorem deleteCategoryStored_none (guildId categoryId : String) :
    deleteCategoryStored env (fun _ => none) guildId categoryId user =
      deleteCategory env guildId categoryId user := by
  simp only [deleteCategoryStored, categoryNamed, deleteCategory, bind_assoc, pure_bind,
    unlessFailing]

theorem createStored_eq (fails : Nat → Option Exception) (d : CreateGuildDto) (owner : Profile) :
    createStored env fails d owner = (newGuild env d owner >>= fun guild =>
      storeAll fails 0 (createWrites env owner guild) >>= fun _ =>
        findGuild env guild.id owner) := by
  simp only [createStored, createDefaultStructureStored, createWrites, storeAll, bind_assoc,
    pure_bind, saveRole, saveMember, saveCategory]

theorem deleteCategoryStored_eq (fails : Nat → Option Exception) (guildId categoryId : String) :
    deleteCategoryStored env fails guildId categoryId user =
      (categoryNamed env guildId categoryId user >>= fun named =>
        storeAll fails 0 (deleteCategoryWrites env named) >>= fun _ => pure ()) := by
  simp only [deleteCategoryStored, deleteCategoryWrites, storeAll, bind_assoc,
    bind_pure_unit, Nat.zero_add]

/-! ### Which failures undo the request -/

/-- The call throws and leaves all tables as they were. -/
def Undone {α : Type} (m : Service α) (db : Database) : Prop :=
  m.passes db = false ∧ m.final db = db

instance {α : Type} {m : Service α} : Decidable (Undone m db) := inferInstanceAs (Decidable (_ ∧ _))

theorem keeps_newGuild {d : CreateGuildDto} {owner : Profile} :
    Keeps (· = ·) (newGuild env d owner) := by
  intro db
  simp [newGuild, uniqueCode, wp_column, wp_references, wp_throwIf, wp_texts]

theorem keeps_categoryNamed {guildId categoryId : String} :
    Keeps (· = ·) (categoryNamed env guildId categoryId user) := by
  intro db
  simp only [categoryNamed, wp_bind, wp_uuidOf, implies_true, and_true]
  intro g _
  refine requirePermission_wp.mono ?_ ?_
  · rintro _ _ ⟨rfl, -⟩
    simp
  · rintro _ _ rfl
    rfl

/-- After the first write the new guild stands in the table, whatever of the others is made. -/
theorem createWrites_guilds {owner : Profile} {guild : Guild} (k : Nat) :
    (applyAll ((createWrites env owner guild).take (k + 1)) db).guilds = db.guilds ++ [guild] := by
  show (applyAll _ { db with guilds := db.guilds ++ [guild] }).guilds = _
  apply applyAll_keeps
  intro w hw db'
  have hw' := List.mem_of_mem_take hw
  simp only [List.mem_cons, List.not_mem_nil, or_false] at hw'
  rcases hw' with rfl | rfl | rfl | rfl | rfl | rfl | rfl <;> rfl

theorem create_stopped_iff {checks : Service Guild} {owner : Profile} {k : Nat} :
    stopped checks (createWrites env owner) k db = db ↔ k = 0 ∨ checks.passes db = false := by
  unfold stopped Prog.outcome Prog.passes
  cases hchecks : checks db with
  | error e db' => simp
  | ok guild db' =>
    cases k with
    | zero => exact iff_of_true rfl (.inl rfl)
    | succ k =>
      refine iff_of_false (fun hsame => ?_) nofun
      have hguilds : (applyAll ((createWrites env owner guild).take (k + 1)) db).guilds =
          db.guilds ++ [guild] := createWrites_guilds k
      have hlength := congrArg List.length (hguilds.symm.trans (congrArg Database.guilds hsame))
      simp at hlength

/-- The named category has no channels. -/
def Vacant (db : Database) (categoryId : String) : Prop :=
  ∀ x ∈ db.channels, ∀ c, Uuid.parse categoryId = some c → x.categoryId ≠ some c

/-- Taking the channels out of a category changes the tables unless it has none. -/
theorem emptied_iff {c : Uuid} :
    Rows.modify (·.categoryId = some c)
        (fun x => { x with categoryId := none, updatedAt := env.now }) db.channels = db.channels ↔
      ∀ x ∈ db.channels, x.categoryId ≠ some c := by
  rw [Rows.modify_eq_self_iff]
  constructor
  · intro h x hx hcategory
    have hsame := congrArg Channel.categoryId (h x hx (decide_eq_true hcategory))
    rw [hcategory] at hsame
    exact nomatch hsame
  · intro h x hx hcategory
    exact absurd (of_decide_eq_true hcategory) (h x hx)

theorem categoryNamed_wp {guildId categoryId : String} :
    wp (categoryNamed env guildId categoryId user)
      (fun named _ => Uuid.parse categoryId = some named.2) (fun _ _ => True) db := by
  simp only [categoryNamed, wp_bind, wp_uuidOf, implies_true, and_true]
  intro g _
  apply wp.mono requirePermission_wp
  · intro _ db' _
    simp
  · exact fun _ _ _ => trivial

theorem deleteCategory_stopped_iff {guildId categoryId : String} {j : Fin 2} :
    stopped (categoryNamed env guildId categoryId user) (deleteCategoryWrites env) j db = db ↔
      j = 0 ∨ (categoryNamed env guildId categoryId user).passes db = false ∨
        Vacant db categoryId := by
  have hnamed : wp (categoryNamed env guildId categoryId user) _ _ db := categoryNamed_wp
  unfold wp at hnamed
  unfold stopped Prog.outcome Prog.passes
  cases hchecks : categoryNamed env guildId categoryId user db with
  | error e db' => simp
  | ok named db' =>
    rw [hchecks] at hnamed
    have hvacant : Vacant db categoryId ↔ ∀ x ∈ db.channels, x.categoryId ≠ some named.2 := by
      simp [Vacant, hnamed]
    match j with
    | 0 => exact iff_of_true rfl (.inl rfl)
    | 1 =>
      simp only [one_ne_zero, Bool.true_eq_false, false_or, hvacant]
      constructor
      · exact fun hsame => emptied_iff.mp (congrArg Database.channels hsame)
      · intro hnone
        exact congrArg (fun channels => { db with channels }) (emptied_iff.mpr hnone)

/-- Whichever of its writes fails, the call throws and keeps the writes before that one; so it is
undone just when it fails at its first write or before, or takes the channels out of a category
that has none. -/
theorem write_fails (env : Env) (db : Database) (e : Exception) (d : CreateGuildDto)
    (owner : Profile) (guildId categoryId : String) (user : Profile) (k : Fin 8) (j : Fin 2) :
    let created := createStored env (failing k e) d owner
    let deleted := deleteCategoryStored env (failing j e) guildId categoryId user
    (created.passes db = false ∧
        created.final db = stopped (newGuild env d owner) (createWrites env owner) k db ∧
        (Undone created db ↔ k = 0 ∨ (newGuild env d owner).passes db = false)) ∧
      deleted.passes db = false ∧
        deleted.final db =
          stopped (categoryNamed env guildId categoryId user) (deleteCategoryWrites env) j db ∧
        (Undone deleted db ↔ j = 0 ∨
          (categoryNamed env guildId categoryId user).passes db = false ∨
            Vacant db categoryId) := by
  intro created deleted
  have hcreated : created.passes db = false ∧
      created.final db = stopped (newGuild env d owner) (createWrites env owner) k db := by
    show (createStored env (failing k e) d owner).passes db = false ∧
      (createStored env (failing k e) d owner).final db = _
    rw [createStored_eq]
    exact stores_failing keeps_newGuild (fun _ => k.isLt) db
  have hdeleted : deleted.passes db = false ∧ deleted.final db =
      stopped (categoryNamed env guildId categoryId user) (deleteCategoryWrites env) j db := by
    show (deleteCategoryStored env (failing j e) guildId categoryId user).passes db = false ∧
      (deleteCategoryStored env (failing j e) guildId categoryId user).final db = _
    rw [deleteCategoryStored_eq]
    exact stores_failing keeps_categoryNamed (fun _ => j.isLt) db
  refine ⟨⟨hcreated.1, hcreated.2, ?_⟩, hdeleted.1, hdeleted.2, ?_⟩
  · rw [Undone, hcreated.2, create_stopped_iff, Fin.val_eq_zero_iff]
    exact and_iff_right hcreated.1
  · rw [Undone, hdeleted.2, deleteCategory_stopped_iff]
    exact and_iff_right hdeleted.1

/-- The second write of `create` fails: a guild is left without roles and members. -/
theorem secondWrite_not_undone :
    let db := (channelOpened "secret").server.db
    let m := createStored (sampleEnv 4) (failing 1 (.serviceUnavailable "connection lost"))
      ⟨"guild", .absent, .absent, .absent⟩ alice
    ¬Undone m db ∧ (m.final db).guilds.map (·.id) = [sampleUuid 4 0] ∧
      (m.final db).guildRoles = [] ∧ (m.final db).guildMembers = [] := by
  decide +kernel

end GuildsService

end VoxLink
