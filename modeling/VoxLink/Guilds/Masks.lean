import VoxLink.Guilds.Authorisation

/-! What the roles of a member permit together: the test of each role's mask, read as a double and
truncated to 32 bits, comes to one test of the union of all masks. -/

namespace VoxLink

open ProofKit GuildsService

variable {p : Permission} {r : GuildRole} {rs rs' : List GuildRole}

/-- The bits that some mask has, as two's complements of any length. -/
def unionOf (masks : List Int) : Int := masks.foldr Int.lor 0

theorem testBit_unionOf (masks : List Int) (k : Nat) :
    (unionOf masks).testBit k = masks.any (·.testBit k) := by
  induction masks with
  | nil => exact Nat.zero_testBit k
  | cons m masks ih =>
    have hunion : unionOf (m :: masks) = m.lor (unionOf masks) := rfl
    rw [hunion, Int.testBit_lor, ih, List.any_cons]

theorem grants_unionOf {masks : List Int} :
    Grants (unionOf masks) p ↔ ∃ m ∈ masks, Grants m p := by
  simp only [Grants, testBit_unionOf, List.any_eq_true]
  constructor
  · rintro (⟨m, hm, hbit⟩ | ⟨m, hm, hbit⟩)
    · exact ⟨m, hm, .inl hbit⟩
    · exact ⟨m, hm, .inr hbit⟩
  · rintro ⟨m, hm, hbit | hbit⟩
    · exact .inl ⟨m, hm, hbit⟩
    · exact .inr ⟨m, hm, hbit⟩

namespace GuildMember

theorem hasPermission_some_iff :
    hasPermission (some rs) p = true ↔ ∃ r ∈ rs, r.hasPermission p = true :=
  List.any_eq_true

/-- The services ask the same of the roles that a member row comes with. -/
theorem service_hasPermission (db : Database) (m : GuildMember) (p : Permission) :
    GuildsService.hasPermission db m p = hasPermission (some (db.rolesOf m)) p := rfl

theorem hasPermission_iff_grants : hasPermission (some rs) p = true ↔
    Grants (unionOf (rs.map fun r => nearestDouble r.permissions)) p := by
  rw [hasPermission_some_iff, grants_unionOf]
  constructor
  · rintro ⟨r, hr, hp⟩
    exact ⟨_, List.mem_map_of_mem hr, GuildRole.hasPermission_iff.mp hp⟩
  · rintro ⟨m, hm, hgrants⟩
    obtain ⟨r, hr, rfl⟩ := List.mem_map.mp hm
    exact ⟨r, hr, GuildRole.hasPermission_iff.mpr hgrants⟩

/-- More roles permit no less. -/
theorem hasPermission_mono (h : rs ⊆ rs') (hp : hasPermission (some rs) p = true) :
    hasPermission (some rs') p = true := by
  obtain ⟨r, hr, hgives⟩ := hasPermission_some_iff.mp hp
  exact hasPermission_some_iff.mpr ⟨r, h hr, hgives⟩

/-- A member has the permission exactly when the union of the masks of his roles, read as doubles,
has its bit or the bit of an administrator; masks of up to 53 bits are read as they are. He has none
without roles, and a further role takes none away. -/
theorem permission_of_union (p : Permission) :
    (∀ rs : List GuildRole, (∀ r ∈ rs, r.permissions.natAbs ≤ 2 ^ 53) →
      (hasPermission (some rs) p = true ↔
        (unionOf (rs.map (·.permissions))).testBit Permission.administrator.bit = true ∨
          (unionOf (rs.map (·.permissions))).testBit p.bit = true)) ∧
    (∀ rs : List GuildRole, hasPermission (some rs) p = true ↔
      Grants (unionOf (rs.map fun r => nearestDouble r.permissions)) p) ∧
    hasPermission none p = false ∧ hasPermission (some []) p = false ∧
    ∀ (rs : List GuildRole) (r : GuildRole) (rs' : List GuildRole),
      hasPermission (some (rs ++ rs')) p = true →
        hasPermission (some (rs ++ r :: rs')) p = true := by
  refine ⟨fun rs hle => ?_, fun rs => hasPermission_iff_grants, rfl, rfl, fun rs r rs' hp => ?_⟩
  · have hread : rs.map (fun r => nearestDouble r.permissions) = rs.map (·.permissions) :=
      List.map_congr_left fun r hr => nearestDouble_of_le (hle r hr)
    rw [hasPermission_iff_grants, hread, Grants]
  · have hsublist : (rs ++ rs').Sublist (rs ++ r :: rs') :=
      (List.sublist_cons_self r rs').append_left rs
    exact hasPermission_mono hsublist.subset hp

/-- The roles of a new guild's owner and its members. -/
def ownerAndMember : List GuildRole :=
  [ownerRole (sampleEnv 3) sampleGuild, memberRole (sampleEnv 3) sampleGuild]

theorem ownerAndMember_permission : hasPermission (some ownerAndMember) .banMembers = true ↔
    (unionOf (ownerAndMember.map (·.permissions))).testBit Permission.administrator.bit = true ∨
      (unionOf (ownerAndMember.map (·.permissions))).testBit Permission.banMembers.bit = true :=
  (permission_of_union .banMembers).1 ownerAndMember (by decide)

end GuildMember

end VoxLink
