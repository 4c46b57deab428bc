import Mathlib.Data.Int.Bitwise
import VoxLink.Guilds.Owners

/-! Who may change a guild. Each operation on a guild either throws and leaves all tables alone, or
its caller has what the operation demands. -/

namespace VoxLink

open ProofKit Prog GuildsService

variable {X : Externals} {env : Env} {user : Profile} {db : Database} {g u : Uuid}

/-! ### Masks -/

theorem getLsbD_ofInt (m : Int) {k : Nat} (hk : k < 32) :
    (BitVec.ofInt 32 m).getLsbD k = m.testBit k := by
  cases m with
  | ofNat n =>
    rw [Int.ofNat_eq_natCast, BitVec.ofInt_natCast, BitVec.getLsbD_ofNat]
    simp [hk, Int.testBit]
  | negSucc n =>
    rw [BitVec.ofInt_negSucc_eq_not_ofNat, BitVec.getLsbD_not, BitVec.getLsbD_ofNat]
    simp [hk, Int.testBit]

theorem ofInt_value (p : Permission) : BitVec.ofInt 32 p.value = BitVec.twoPow 32 p.bit := by
  cases p <;> decide

/-- JavaScript's test of a mask looks at the bit of the permission in the nearest double. -/
theorem bitAnd_value (m : Int) (p : Permission) :
    bitAnd m p.value = (nearestDouble m).testBit p.bit := by
  have hbit : p.bit < 32 := by cases p <;> decide
  have htwo : BitVec.twoPow 32 p.bit ≠ 0 := by cases p <;> decide
  rw [bitAnd, ofInt_value, BitVec.and_twoPow, getLsbD_ofInt (nearestDouble m) hbit]
  cases (nearestDouble m).testBit p.bit
  · simp
  · simpa using htwo

/-- The mask grants `p`: it has the bit of an administrator or the bit of `p`. -/
def Grants (mask : Int) (p : Permission) : Prop :=
  mask.testBit Permission.administrator.bit = true ∨ mask.testBit p.bit = true

instance (mask : Int) (p : Permission) : Decidable (Grants mask p) :=
  inferInstanceAs (Decidable (_ ∨ _))

theorem GuildRole.hasPermission_iff {r : GuildRole} {p : Permission} :
    r.hasPermission p = true ↔ Grants (nearestDouble r.permissions) p := by
  rw [hasPermission, bitAnd_value, bitAnd_value, Bool.or_eq_true, Grants]

/-! ### Demands -/

/-- What an operation on a guild demands of its caller. -/
inductive Demand where
  | ownership
  | permission (p : Permission)
deriving DecidableEq, Repr

/-- The guild that an operation changes, as the request names it, and what that takes. -/
def GuildRoute.demand : GuildRoute → Option (String × Demand)
  | .update g _ => some (g, .permission .manageGuild)
  | .delete g => some (g, .ownership)
  | .regenerateInvite g => some (g, .permission .createInvite)
  | .kickMember g _ => some (g, .permission .kickMembers)
  | .banMember g _ => some (g, .permission .banMembers)
  | .assignRole g _ _ | .removeRole g _ _ | .createRole g _ | .updateRole g _ _
  | .deleteRole g _ => some (g, .permission .manageRoles)
  | .createCategory g _ | .deleteCategory g _ | .createChannel g _ =>
    some (g, .permission .manageChannels)
  | .create _ | .findAll | .findOne _ | .previewByInvite _ | .joinByInvite _ | .getMembers _
  | .getRoles _ | .getChannels _ => none

/-- The user holds, by an active membership in the guild, a role whose mask is one of `P`. -/
def HoldsRole (db : Database) (g u : Uuid) (P : Int → Prop) : Prop :=
  ∃ m ∈ db.guildMembers, m.guildId = g ∧ m.userId = u ∧ m.status = .active ∧
    ∃ r ∈ db.guildRoles, r.id ∈ m.roles ∧ P r.permissions

instance (db : Database) (g u : Uuid) (P : Int → Prop) [DecidablePred P] :
    Decidable (HoldsRole db g u P) :=
  inferInstanceAs (Decidable (∃ _ ∈ _, _))

/-- The guild is there, and the user has what is demanded. -/
def Demand.met (db : Database) (g u : Uuid) : Demand → Prop
  | ownership => ∃ guild ∈ db.guilds, guild.id = g ∧ guild.ownerId = some u
  | permission p => ∃ guild ∈ db.guilds, guild.id = g ∧
      (guild.ownerId = some u ∨ HoldsRole db g u (Grants · p))

instance (db : Database) (g u : Uuid) : (d : Demand) → Decidable (d.met db g u)
  | .ownership => inferInstanceAs (Decidable (∃ _ ∈ _, _))
  | .permission _ => inferInstanceAs (Decidable (∃ _ ∈ _, _))

/-- The mask grants `p` as a double and not as it is stored. -/
def Misread (p : Permission) (mask : Int) : Prop := Grants (nearestDouble mask) p ∧ ¬Grants mask p

instance (p : Permission) : DecidablePred (Misread p) :=
  fun _ => inferInstanceAs (Decidable (_ ∧ _))

/-- What is demanded is a permission that the user, who does not own the guild, has only by a mask
that is misread. -/
def Demand.Misgranted (db : Database) (g u : Uuid) : Demand → Prop
  | ownership => False
  | permission p => (∀ guild ∈ db.guilds, guild.id = g → guild.ownerId ≠ some u) ∧
      ¬HoldsRole db g u (Grants · p) ∧ HoldsRole db g u (Misread p)

/-- Whom the services permit `p` has it, unless by a mask that is misread. -/
theorem Demand.met_iff_of_permitted {p : Permission} (h : Permitted db g u p) :
    (Demand.permission p).met db g u ↔ ¬(Demand.permission p).Misgranted db g u := by
  obtain ⟨guild, hfound, hwho⟩ := h
  obtain ⟨hguild, hid⟩ := guildById_mem hfound
  constructor
  · rintro ⟨x, hx, hxg, howner | hholds⟩ ⟨hno, hnone, -⟩
    · exact hno x hx hxg howner
    · exact hnone hholds
  · intro hgood
    by_contra hmet
    simp only [met, not_exists, not_and, not_or] at hmet
    rcases hwho with howner | ⟨m, ⟨hm, hg, hu, hactive⟩, hperm⟩
    · exact (hmet guild hguild hid).1 howner
    · obtain ⟨r, hr, hmask⟩ := List.any_eq_true.mp hperm
      obtain ⟨hrole, hlink⟩ := mem_rolesOf hr
      have hnone := (hmet guild hguild hid).2
      have hholds : ∀ {P : Int → Prop}, P r.permissions → HoldsRole db g u P :=
        fun hP => ⟨m, hm, hg, hu, hactive, r, hrole, hlink, hP⟩
      refine hgood ⟨fun x hx hxg => (hmet x hx hxg).1, hnone, hholds ⟨?_, ?_⟩⟩
      · exact GuildRole.hasPermission_iff.mp hmask
      · exact fun hgrants => hnone (hholds hgrants)

/-! ### Every operation -/

/-- A permitted caller is an active member: the owner has an active row too. -/
theorem activeMember_of_permitted (hseated : OwnersSeated db) {p : Permission}
    (h : Permitted db g u p) : ∃ m, ActiveMember db g u m := by
  obtain ⟨guild, hfound, hwho⟩ := h
  obtain ⟨hguild, hid⟩ := guildById_mem hfound
  rcases hwho with howner | ⟨m, hm, _⟩
  · exact activeMember_of_standing (hid ▸ hseated guild hguild u howner)
  · exact ⟨m, hm⟩

theorem guildsController_demand (hseated : OwnersSeated db) {r : GuildRoute} {d : Demand}
    (hdemand : r.demand = some (g.toText, d)) :
    wp (guildsController env user r)
      (fun _ _ => d.met db g user.id ↔ ¬d.Misgranted db g user.id) (fun _ db' => db' = db) db := by
  have permitted : ∀ {p : Permission} {g' : Uuid}, Uuid.parse g.toText = some g' →
      Permitted db g' user.id p → ((Demand.permission p).met db g user.id ↔
        ¬(Demand.permission p).Misgranted db g user.id) := by
    intro p g' hg' hperm
    rw [Uuid.parse_toText] at hg'
    obtain rfl := Option.some.inj hg'
    exact Demand.met_iff_of_permitted hperm
  cases r <;>
    simp only [GuildRoute.demand, Option.some.injEq, Prod.mk.injEq, reduceCtorEq] at hdemand <;>
    obtain ⟨rfl, rfl⟩ := hdemand
  case update =>
    refine wp_map.mpr (update_wp.mono ?_ ?_)
    · intro _ _ ⟨g', _, hg', hperm, _⟩
      exact permitted hg' hperm
    · -- a permitted caller is a member, so the guild is read back after the write
      intro _ db' h
      rcases h with hdb | ⟨g', _, _, hperm, _, _, hno⟩
      · exact hdb
      · obtain ⟨m, hm⟩ := activeMember_of_permitted hseated hperm
        exact absurd hm (hno m)
  case delete =>
    refine wp_map.mpr (delete_wp.mono ?_ fun _ _ h => h)
    intro _ _ ⟨g', guild, hg', hfound, howner, _⟩
    rw [Uuid.parse_toText] at hg'
    obtain rfl := Option.some.inj hg'
    obtain ⟨hguild, hid⟩ := guildById_mem hfound
    exact iff_of_true ⟨guild, hguild, hid, howner⟩ not_false
  case regenerateInvite =>
    refine wp_map.mpr (regenerateInviteCode_wp.mono ?_ fun _ _ h => h)
    intro _ _ ⟨g', _, hg', hperm, _⟩
    exact permitted hg' hperm
  case kickMember =>
    refine wp_map.mpr (kickMember_wp.mono ?_ fun _ _ h => h)
    intro _ _ ⟨g', _, hg', hperm, _⟩
    exact permitted hg' hperm
  case banMember =>
    refine wp_map.mpr (banMember_wp.mono ?_ fun _ _ h => h)
    intro _ _ ⟨g', _, hg', hperm, _⟩
    exact permitted hg' hperm
  case assignRole =>
    refine wp_map.mpr (assignRole_wp.mono ?_ fun _ _ h => h)
    intro _ _ ⟨g', _, _, _, hg', hperm, _⟩
    exact permitted hg' hperm
  case removeRole =>
    refine wp_map.mpr (removeRole_wp.mono ?_ fun _ _ h => h)
    intro _ _ ⟨g', _, _, hg', hperm, _⟩
    exact permitted hg' hperm
  case createRole =>
    refine wp_map.mpr (createRole_wp.mono ?_ fun _ _ h => h)
    intro _ _ ⟨g', hg', hperm, _⟩
    exact permitted hg' hperm
  case updateRole =>
    refine wp_map.mpr (updateRole_wp.mono ?_ fun _ _ h => h)
    intro _ _ ⟨g', _, _, _, hg', hperm, _⟩
    exact permitted hg' hperm
  case deleteRole =>
    refine wp_map.mpr (deleteRole_wp.mono ?_ fun _ _ h => h)
    intro _ _ ⟨g', _, hg', hperm, _⟩
    exact permitted hg' hperm
  case createCategory =>
    refine wp_map.mpr (createCategory_wp.mono ?_ fun _ _ h => h)
    intro _ _ ⟨g', hg', hperm, _⟩
    exact permitted hg' hperm
  case deleteCategory =>
    refine wp_map.mpr (deleteCategory_wp.mono ?_ fun _ _ h => h)
    intro _ _ ⟨g', _, hg', hperm, _⟩
    exact permitted hg' hperm
  case createChannel =>
    refine wp_map.mpr (createChannel_wp.mono ?_ fun _ _ h => h)
    intro _ _ ⟨g', hg', hperm, _⟩
    exact permitted hg' hperm

/-! ### Runs -/

/-- The permissions that operations on guilds demand. -/
def demandedPermissions : List Permission :=
  [.manageGuild, .createInvite, .kickMembers, .banMembers, .manageRoles, .manageChannels]

theorem demanded_mem {r : GuildRoute} {text : String} {p : Permission}
    (h : r.demand = some (text, .permission p)) : p ∈ demandedPermissions := by
  cases r <;> simp [GuildRoute.demand] at h <;> simp [← h.2, demandedPermissions]

/-- The mask is misread for a permission that some operation demands. -/
def MisreadMask (mask : Int) : Prop := ∃ p ∈ demandedPermissions, Misread p mask

instance : DecidablePred MisreadMask := fun _ => inferInstanceAs (Decidable (∃ _ ∈ _, _))

/-- A mask of up to 53 bits is read as it is stored. -/
theorem not_misreadMask_of_le {mask : Int} (h : mask.natAbs ≤ 2 ^ 53) : ¬MisreadMask mask := by
  rintro ⟨p, -, hread, hnot⟩
  rw [nearestDouble_of_le h] at hread
  exact hnot hread

/-- The body of the request gives a role a mask that is misread. -/
def Route.misreads : Route → Bool
  | .guilds (.createRole _ d) | .guilds (.updateRole _ _ d) =>
    (d.permissions.get?.bind (toInteger 64)).any (MisreadMask ·)
  | _ => false

/-- The mask after the body is the old one or the one of the body. -/
theorem not_misreadMask_newMask {d : CreateRoleDto} {old mask : Int}
    (hbody : (d.permissions.get?.bind (toInteger 64)).any (MisreadMask ·) = false)
    (hold : ¬MisreadMask old) (h : newMask d old = some mask) : ¬MisreadMask mask := by
  unfold newMask at h
  split at h
  · exact Option.some.inj h ▸ hold
  · exact nomatch h
  · rename_i q hq
    simpa [hq, BodyField.get?, h] using hbody

/-- No mask of a role is misread. -/
def MasksRead (db : Database) : Prop := ∀ r ∈ db.guildRoles, ¬MisreadMask r.permissions

theorem Change.masksRead {db' : Database} {route : Route} (h : MasksRead db)
    (hbody : route.misreads = false) (hc : Change env user db route db') : MasksRead db' := by
  intro r hr
  cases hc with
  | elsewhere _ hsame => exact h r (hsame.roles ▸ hr)
  | createGuild _ _ =>
    rcases List.mem_append.mp hr with hr | hr
    · exact h r hr
    · -- the masks of the three system roles are small
      simp only [List.mem_cons, List.not_mem_nil, or_false] at hr
      rcases hr with rfl | rfl | rfl
      · exact not_misreadMask_of_le (by decide : DefaultPermissions.owner.natAbs ≤ 2 ^ 53)
      · exact not_misreadMask_of_le (by decide : DefaultPermissions.officer.natAbs ≤ 2 ^ 53)
      · exact not_misreadMask_of_le (by decide : DefaultPermissions.member.natAbs ≤ 2 ^ 53)
  | createRole _ _ _ _ hmask =>
    rcases List.mem_append.mp hr with hr | hr
    · exact h r hr
    · obtain rfl := List.mem_singleton.mp hr
      exact not_misreadMask_newMask hbody (not_misreadMask_of_le (by decide)) hmask
  | updateRole hold _ _ hmask hnew =>
    obtain ⟨x, hx, rfl⟩ := Rows.mem_modify.mp hr
    split
    · rw [hnew x]
      exact not_misreadMask_newMask hbody (h _ hold) hmask
    · exact h x hx
  | deleteGuild _ _ => exact h r (Rows.mem_remove.mp hr).1
  | deleteRole _ _ => exact h r (Rows.mem_remove.mp hr).1
  | _ => exact h r hr

/-- A step with canonical ids whose body gives no role a mask that is misread. -/
def ReadStep (s : Server) (i : Env × Request) : Prop :=
  CanonicalStep s i ∧ i.2.route.misreads = false

instance (s : Server) (i : Env × Request) : Decidable (ReadStep s i) :=
  inferInstanceAs (Decidable (_ ∧ _))

theorem masksRead_of_reachable {s : Server}
    (hs : Reachable (serve X) ReadStep Server.empty s) : MasksRead s.db := by
  refine Reachable.invariant (I := fun s => MasksRead s.db) ?_
    (fun _ hr => absurd hr List.not_mem_nil) hs
  rintro s i h ⟨-, hbody⟩
  rcases serve_handled (X := X) s i with hsame | ⟨user, _, hchange⟩
  · exact fun r hr => h r (hsame.roles ▸ hr)
  · exact hchange.masksRead h hbody

theorem not_misgranted_of_masksRead {r : GuildRoute} {text : String} {d : Demand}
    (hdemand : r.demand = some (text, d)) (h : MasksRead db) : ¬d.Misgranted db g u := by
  cases d with
  | ownership => exact not_false
  | permission p =>
    rintro ⟨-, -, m, -, -, -, -, role, hrole, -, hmisread⟩
    exact h role hrole ⟨p, demanded_mem hdemand, hmisread⟩

/-- The call throws and leaves every table as it was, or the caller has what it demands. -/
def Authorised (env : Env) (user : Profile) (db : Database) (r : GuildRoute) (g : Uuid)
    (d : Demand) : Prop :=
  (∃ e, (guildsController env user r).outcome db = .error e ∧
    (guildsController env user r).final db = db) ∨ d.met db g user.id

/-- In every state that canonical requests reach, an operation on a guild throws and leaves every
table as it was, or it returns, and then its caller has what it demands exactly when no mask that is
misread gives it to him. No mask is, in every state of a run whose bodies carry none. -/
theorem guild_operation_authorised_iff (X : Externals) :
    (∀ s, ReachedCanonically X s → ∀ env user r g d, r.demand = some (g.toText, d) →
      (∃ e, (guildsController env user r).outcome s.db = .error e ∧
        (guildsController env user r).final s.db = s.db) ∨
      (∃ body, (guildsController env user r).outcome s.db = .ok body) ∧
        (d.met s.db g user.id ↔ ¬d.Misgranted s.db g user.id)) ∧
    ∀ s, Reachable (serve X) ReadStep Server.empty s →
      ∀ env user r g d, r.demand = some (g.toText, d) → Authorised env user s.db r g d := by
  constructor
  · intro s hs env user r g d hdemand
    exact (guildsController_demand hs.ownersSeated hdemand).refused_or_returned
  · intro s hs env user r g d hdemand
    have hcanonical : ReachedCanonically X s := hs.mono fun _ _ h => h.1
    have hcall : wp (guildsController env user r)
        (fun _ _ => d.met s.db g user.id ↔ ¬d.Misgranted s.db g user.id)
        (fun _ db' => db' = s.db) s.db :=
      guildsController_demand hcanonical.ownersSeated hdemand
    rcases hcall.refused_or_returned with hrefused | ⟨-, hmet⟩
    · exact .inl hrefused
    · exact .inr (hmet.mpr (not_misgranted_of_masksRead hdemand (masksRead_of_reachable hs)))

/-- Alice renames her guild. -/
def renameGuild : GuildRoute :=
  .update sampleGuild.toText ⟨.value "renamed", .absent, .absent, .absent⟩

theorem renameGuild_authorised :
    ((∃ e, (guildsController (sampleEnv 6) alice renameGuild).outcome attacked.db = .error e ∧
        (guildsController (sampleEnv 6) alice renameGuild).final attacked.db = attacked.db) ∨
      (∃ body, (guildsController (sampleEnv 6) alice renameGuild).outcome attacked.db = .ok body) ∧
        ((Demand.permission .manageGuild).met attacked.db sampleGuild alice.id ↔
          ¬(Demand.permission .manageGuild).Misgranted attacked.db sampleGuild alice.id)) ∧
    Authorised (sampleEnv 6) alice attacked.db renameGuild sampleGuild
      (.permission .manageGuild) := by
  have h := guild_operation_authorised_iff sampleExternals
  constructor
  · exact h.1 attacked attacked_reached (sampleEnv 6) alice renameGuild sampleGuild _ rfl
  · exact h.2 attacked ⟨_, by decide +kernel, rfl⟩ (sampleEnv 6) alice renameGuild sampleGuild _ rfl

/-- A mask without the bit of an administrator, and the double nearest to which has it. -/
def wideMask : ℚ := 72057597259153400

/-- Bob joins Alice's guild, and she gives him a role with the mask. -/
def wideMaskRun : List (Env × Request) :=
  guildRun .absent ++
    [byBob 4 (.joinByInvite "code3"),
      byAlice 5 (.createRole sampleGuild.toText ⟨"wide", .absent, .value wideMask, .absent⟩),
      byAlice 6 (.assignRole sampleGuild.toText bob.id.toText (sampleUuid 5 0).toText)]

theorem wideMask_not_authorised :
    Along (serve sampleExternals) CanonicalStep Server.empty wideMaskRun ∧
      ¬Authorised (sampleEnv 7) bob (run (serve sampleExternals) Server.empty wideMaskRun).db
        renameGuild sampleGuild (.permission .manageGuild) := by
  refine ⟨by decide +kernel, ?_⟩
  rintro (⟨e, hrefused, -⟩ | hmet)
  · have hpasses : ((guildsController (sampleEnv 7) bob renameGuild).outcome
        (run (serve sampleExternals) Server.empty wideMaskRun).db).isOk = true := by decide +kernel
    rw [hrefused] at hpasses
    exact Bool.false_ne_true hpasses
  · exact absurd hmet (by decide +kernel)

end VoxLink
