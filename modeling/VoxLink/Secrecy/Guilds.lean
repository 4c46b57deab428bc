import VoxLink.Secrecy.Agreement

/-! `GuildsService` on two databases that differ in nothing but passwords. -/

namespace VoxLink

open ProofKit Prog

variable {env : Env} {user : Profile}

def GuildView.hidden (g : GuildView) : GuildView := { g with owner := g.owner.map User.hidden }

namespace GuildsService

/-! ### Checks -/

theorem getMemberOrThrow_agrees (site : Nat) (g u : Uuid) :
    Agrees SamePublic (getMemberOrThrow env site g u) :=
  .bind (.read fun _ => rfl) fun _ => .orThrow _ _

theorem requirePermission_agrees (g u : Uuid) (p : Permission) :
    Agrees SamePublic (requirePermission env g u p) := by
  refine .bind (.read fun _ => rfl) fun _ => .bind (.orThrow _ _) fun guild => ?_
  split
  · exact .pure _
  · refine .bind (getMemberOrThrow_agrees 0 g u) fun member => ?_
    exact .bind (.read fun _ => rfl) fun _ => .throwIf _ _

/-- An operation behind a permission: the id of the guild, the check, and the rest. -/
theorem permitted_agrees {α β : Type} {v : α → β} (guildId : String) {p : Permission}
    {k : Uuid → Service α} (hk : ∀ g, AgreesVia SamePublic v (k g)) :
    AgreesVia SamePublic v (do
      let g ← uuidOf guildId
      requirePermission env g user.id p
      k g) :=
  .bind (agrees_uuidOf guildId) fun g => .bind (requirePermission_agrees g user.id p) fun _ => hk g

/-- An operation of a member. -/
theorem member_agrees {α β : Type} {v : α → β} (guildId : String) {k : Uuid → Service α}
    (hk : ∀ g, AgreesVia SamePublic v (k g)) :
    AgreesVia SamePublic v (do
      let g ← uuidOf guildId
      let _ ← getMemberOrThrow env 1 g user.id
      k g) :=
  .bind (agrees_uuidOf guildId) fun g => .bind (getMemberOrThrow_agrees 1 g user.id) fun _ => hk g

/-! ### Reading -/

theorem findGuild_agrees (g : Uuid) :
    AgreesVia SamePublic GuildView.hidden (findGuild env g user) := by
  refine .bind (.read fun _ => rfl) fun _ => .bind (.orThrow _ _) fun guild => ?_
  refine .bind (getMemberOrThrow_agrees 1 g user.id) fun _ => .read fun db => ?_
  simp only [GuildView.hidden, db.related_hidden, Option.map_map]
  rfl

theorem findOne_agrees (guildId : String) :
    AgreesVia SamePublic GuildView.hidden (findOne env guildId user) :=
  .bind (agrees_uuidOf guildId) findGuild_agrees

theorem findAll_agrees : Agrees SamePublic (findAll user) := by
  refine .read fun db => ?_
  simp only [Database.relatedSummary_hidden]
  rfl

theorem getByInviteCode_agrees (code : String) : Agrees SamePublic (getByInviteCode code) := by
  refine .bind (.read fun _ => rfl) fun _ => .bind (.orThrow _ _) fun _ => ?_
  refine .read fun db => ?_
  simp only [Database.relatedSummary_hidden]

theorem getMembers_agrees (guildId : String) :
    Agrees SamePublic (getMembers env guildId user) := by
  refine member_agrees guildId fun g => .read fun db => ?_
  simp only [db.userById_hidden, Option.map_map]
  rfl

theorem getRoles_agrees (guildId : String) : Agrees SamePublic (getRoles env guildId user) :=
  member_agrees guildId fun _ => .read fun _ => rfl

theorem getChannels_agrees (guildId : String) :
    Agrees SamePublic (getChannels env guildId user) := by
  refine member_agrees guildId fun g => ?_
  refine .bind (.read fun _ => rfl) fun _ => .bind (.orThrow _ _) fun _ => ?_
  exact .read fun _ => rfl

/-! ### The guild itself -/

theorem uniqueCode_agrees (self : Uuid) (code : String) :
    Agrees SamePublic (uniqueCode self code) :=
  .bind (.read fun _ => rfl) fun _ => .throwIf _ _

theorem create_agrees (d : CreateGuildDto) :
    AgreesVia SamePublic GuildView.hidden (create env d user) := by
  refine .bind (agrees_texts _) fun _ => .bind (agrees_column _ _) fun _ => ?_
  refine .bind (agrees_column _ _) fun _ => .bind (agrees_stored _) fun _ => ?_
  refine .bind (agrees_references _ _) fun _ => ?_
  refine .bind (uniqueCode_agrees _ _) fun _ => .bind (agrees_write fun _ => rfl) fun _ => ?_
  -- The roles, the member and the default structure.
  refine .bind (agrees_write fun _ => rfl) fun _ => .bind (agrees_write fun _ => rfl) fun _ => ?_
  refine .bind (agrees_write fun _ => rfl) fun _ => .bind (agrees_write fun _ => rfl) fun _ => ?_
  refine .bind ?_ fun _ => findGuild_agrees _
  refine .bind (agrees_write fun _ => rfl) fun _ => .bind (agrees_write fun _ => rfl) fun _ => ?_
  exact agrees_write fun _ => rfl

theorem updateRow_agrees (g : Uuid) (d : UpdateGuildDto) :
    Agrees SamePublic (updateRow env g d) := by
  refine .bind (agrees_texts _) fun _ => .bind (.read fun _ => rfl) fun old => ?_
  cases old with
  | none => exact .pure _
  | some old =>
    refine .bind (agrees_column _ _) fun _ => .bind (agrees_column _ _) fun _ => ?_
    exact .bind (agrees_column _ _) fun _ => agrees_write fun _ => rfl

theorem update_agrees (guildId : String) (d : UpdateGuildDto) :
    AgreesVia SamePublic GuildView.hidden (update env guildId d user) :=
  permitted_agrees guildId fun g => .bind (updateRow_agrees g d) fun _ => findGuild_agrees g

theorem delete_agrees (guildId : String) : Agrees SamePublic (delete guildId user) := by
  refine .bind (agrees_uuidOf guildId) fun g => .bind (.read fun _ => rfl) fun _ => ?_
  refine .bind (.orThrow _ _) fun _ => .bind (.throwIf _ _) fun _ => ?_
  refine .bind (.read fun _ => rfl) fun _ => .bind (.throwIf _ _) fun _ => ?_
  exact agrees_write fun _ => rfl

theorem regenerateInviteCode_agrees (guildId : String) :
    Agrees SamePublic (regenerateInviteCode env guildId user) :=
  permitted_agrees guildId fun g => .bind (uniqueCode_agrees g _) fun _ =>
    .bind (agrees_write fun _ => rfl) fun _ => .pure _

/-! ### Members -/

theorem joinByInvite_agrees (code : String) : Agrees SamePublic (joinByInvite env code user) := by
  refine .bind (.read fun _ => rfl) fun _ => .bind (.orThrow _ _) fun _ => ?_
  refine .bind (.read fun _ => rfl) fun _ => .bind (.throwIf _ _) fun _ => ?_
  refine .bind (.throwIf _ _) fun _ => .bind (.read fun _ => rfl) fun _ => ?_
  refine .bind (agrees_stored _) fun _ => .bind (agrees_references _ _) fun _ => ?_
  exact .bind (agrees_write fun _ => rfl) fun _ => .pure _

theorem kickMember_agrees (guildId target : String) :
    Agrees SamePublic (kickMember env guildId target user) := by
  refine permitted_agrees guildId fun g => .bind (.read fun _ => rfl) fun _ => ?_
  refine .bind (.throwIf _ _) fun _ => .bind (agrees_uuidOf target) fun _ => ?_
  exact agrees_write fun _ => rfl

theorem banMember_agrees (guildId target : String) :
    Agrees SamePublic (banMember env guildId target user) := by
  refine permitted_agrees guildId fun g => .bind (.read fun _ => rfl) fun _ => ?_
  refine .bind (.throwIf _ _) fun _ => .bind (agrees_uuidOf target) fun _ => ?_
  exact agrees_write fun _ => rfl

theorem saveRoles_agrees (id : Uuid) (roles : List GuildRole) :
    Agrees SamePublic (saveRoles id roles) :=
  agrees_write fun _ => rfl

theorem findRole_agrees (roleId : String) (g : Uuid) : Agrees SamePublic (findRole roleId g) :=
  .bind (agrees_uuidOf roleId) fun _ => .bind (.read fun _ => rfl) fun _ => .orThrow _ _

theorem assignRole_agrees (guildId target roleId : String) :
    Agrees SamePublic (assignRole env guildId target roleId user) := by
  refine permitted_agrees guildId fun g => .bind (findRole_agrees roleId g) fun role => ?_
  refine .bind (agrees_uuidOf target) fun u => .bind (getMemberOrThrow_agrees 1 g u) fun m => ?_
  refine .bind (.read fun _ => rfl) fun roles => ?_
  split
  · exact .pure _
  · exact saveRoles_agrees _ _

theorem removeRole_agrees (guildId target roleId : String) :
    Agrees SamePublic (removeRole env guildId target roleId user) := by
  refine permitted_agrees guildId fun g => .bind (agrees_uuidOf target) fun u => ?_
  refine .bind (getMemberOrThrow_agrees 1 g u) fun m => ?_
  exact .bind (.read fun _ => rfl) fun roles => saveRoles_agrees _ _

/-! ### Roles, categories and channels -/

theorem createRole_agrees (guildId : String) (d : CreateRoleDto) :
    Agrees SamePublic (createRole env guildId d user) := by
  refine permitted_agrees guildId fun g => .bind (agrees_texts _) fun _ => ?_
  refine .bind (agrees_column _ _) fun _ => ?_
  refine .bind (agrees_integerColumn _ _ _ _) fun _ => .bind (agrees_column _ _) fun _ => ?_
  exact .bind (agrees_write fun _ => rfl) fun _ => .pure _

theorem updateRole_agrees (guildId roleId : String) (d : CreateRoleDto) :
    Agrees SamePublic (updateRole env guildId roleId d user) := by
  refine permitted_agrees guildId fun g => .bind (findRole_agrees roleId g) fun role => ?_
  refine .bind (.throwIf _ _) fun _ => .bind (agrees_texts _) fun _ => ?_
  refine .bind (agrees_column _ _) fun _ => ?_
  refine .bind (agrees_integerColumn _ _ _ _) fun _ => .bind (agrees_column _ _) fun _ => ?_
  exact .bind (agrees_write fun _ => rfl) fun _ => .read fun _ => rfl

theorem deleteRole_agrees (guildId roleId : String) :
    Agrees SamePublic (deleteRole env guildId roleId user) := by
  refine permitted_agrees guildId fun g => .bind (findRole_agrees roleId g) fun role => ?_
  exact .bind (.throwIf _ _) fun _ => agrees_write fun _ => rfl

theorem createCategory_agrees (guildId : String) (d : CreateCategoryDto) :
    Agrees SamePublic (createCategory env guildId d user) := by
  refine permitted_agrees guildId fun g => .bind (agrees_texts _) fun _ => ?_
  refine .bind (agrees_integerColumn _ _ _ _) fun _ => ?_
  exact .bind (agrees_column _ _) fun _ => .bind (agrees_write fun _ => rfl) fun _ => .pure _

theorem deleteCategory_agrees (guildId categoryId : String) :
    Agrees SamePublic (deleteCategory env guildId categoryId user) := by
  refine permitted_agrees guildId fun g => .bind (agrees_uuidOf categoryId) fun _ => ?_
  exact .bind (agrees_write fun _ => rfl) fun _ => agrees_write fun _ => rfl

theorem categoryTarget_agrees (g : Uuid) (d : BodyField String) :
    Agrees SamePublic (categoryTarget g d) := by
  cases d with
  | absent => exact .pure _
  | null => exact .pure _
  | value s =>
    refine .bind (agrees_uuidOf s) fun _ => .bind (.read fun _ => rfl) fun _ => ?_
    exact .bind (.throwIf _ _) fun _ => .pure _

theorem createChannel_agrees (guildId : String) (d : CreateGuildChannelDto) :
    Agrees SamePublic (createChannel env guildId d user) := by
  refine permitted_agrees guildId fun g => .bind (categoryTarget_agrees g _) fun _ => ?_
  refine .bind (agrees_texts _) fun _ => ?_
  refine .bind (agrees_column _ _) fun _ => .bind (agrees_column _ _) fun _ => ?_
  refine .bind (agrees_stored _) fun _ => .bind (agrees_references _ _) fun _ => ?_
  exact .bind (agrees_write fun _ => rfl) fun _ => .pure _

end GuildsService

end VoxLink
