import VoxLink.Guilds.Invariants

/-! Ids reach the operations on members and roles as texts. The database compares them as uuids, but
the owner check of `kickMember` and `banMember` and the search among loaded roles in `assignRole`
and `removeRole` compare texts. -/

namespace VoxLink

open ProofKit Prog GuildsService

variable {X : Externals} {env : Env} {user : Profile} {db : Database}

/-- Texts that PostgreSQL reads as one uuid, or the same text twice. -/
def SameUuid (s t : String) : Prop := s = t ∨ ∃ u, Uuid.parse s = some u ∧ Uuid.parse t = some u

/-- The same operation with its ids spelled in another way. -/
inductive Respelled : GuildRoute → GuildRoute → Prop
  | kickMember {g g' t t' : String} : SameUuid g g' → SameUuid t t' →
      Respelled (.kickMember g t) (.kickMember g' t')
  | banMember {g g' t t' : String} : SameUuid g g' → SameUuid t t' →
      Respelled (.banMember g t) (.banMember g' t')
  | assignRole {g g' t t' r r' : String} : SameUuid g g' → SameUuid t t' → SameUuid r r' →
      Respelled (.assignRole g t r) (.assignRole g' t' r')
  | removeRole {g g' t t' r r' : String} : SameUuid g g' → SameUuid t t' → SameUuid r r' →
      Respelled (.removeRole g t r) (.removeRole g' t' r')
  | updateRole {g g' r r' : String} {d : CreateRoleDto} : SameUuid g g' → SameUuid r r' →
      Respelled (.updateRole g r d) (.updateRole g' r' d)
  | deleteRole {g g' r r' : String} : SameUuid g g' → SameUuid r r' →
      Respelled (.deleteRole g r) (.deleteRole g' r')

/-- The operation has one outcome and one effect however its ids are spelled. -/
def SpellingFree (env : Env) (user : Profile) (db : Database) (r : GuildRoute) : Prop :=
  ∀ r', Respelled r r' →
    (guildsController env user r').outcome db = (guildsController env user r).outcome db ∧
      (guildsController env user r').final db = (guildsController env user r).final db

/-- What the tables declare: the keys of members and roles, and a link table without duplicates
whose links lead to roles. -/
structure Constrained (db : Database) : Prop where
  members : (db.guildMembers.map (·.id)).Nodup
  links : ∀ m ∈ db.guildMembers, m.roles.Nodup
  roles : ∀ m ∈ db.guildMembers, ∀ r ∈ m.roles, (db.roleById r).isSome

/-- The membership that `getMemberOrThrow` finds for a target. -/
def seat (env : Env) (db : Database) (g u : Uuid) : Option GuildMember :=
  Rows.pick (env.pick 1) (fun m => m.guildId = g ∧ m.userId = u ∧ m.status = .active)
    db.guildMembers

/-- The caller is permitted to act on the owner. -/
def ownerTargeted (env : Env) (user : Profile) (db : Database) (p : Permission)
    (guildId targetUserId : String) : Bool :=
  (Uuid.parse guildId).any fun g => (requirePermission env g user.id p).passes db &&
    (Uuid.parse targetUserId).any fun t => ((db.guildById g).bind (·.ownerId)) = some t

/-- The caller is permitted to take away a role that the target has. -/
def roleHeld (env : Env) (user : Profile) (db : Database)
    (guildId targetUserId roleId : String) : Bool :=
  (Uuid.parse guildId).any fun g => (requirePermission env g user.id .manageRoles).passes db &&
    (Uuid.parse targetUserId).any fun t => (seat env db g t).any fun m =>
      (Uuid.parse roleId).any fun r => (db.rolesOf m).any (·.id = r)

/-- The operation reaches a comparison of texts that matters. -/
def spellingMatters (env : Env) (user : Profile) (db : Database) : GuildRoute → Bool
  | .kickMember g t => ownerTargeted env user db .kickMembers g t
  | .banMember g t => ownerTargeted env user db .banMembers g t
  | .removeRole g t r => roleHeld env user db g t r
  | _ => false

/-! ### Ids that only the database reads -/

theorem SameUuid.parse {s t : String} (h : SameUuid s t) : Uuid.parse t = Uuid.parse s := by
  rcases h with rfl | ⟨u, hs, ht⟩
  · rfl
  · rw [hs, ht]

theorem SameUuid.uuidOf {s t : String} (h : SameUuid s t) :
    (VoxLink.uuidOf t : Service Uuid) = VoxLink.uuidOf s := by
  rw [VoxLink.uuidOf, h.parse, VoxLink.uuidOf]

theorem SameUuid.findRole {s t : String} (h : SameUuid s t) (g : Uuid) :
    GuildsService.findRole t g = GuildsService.findRole s g := by
  rw [GuildsService.findRole, h.uuidOf, GuildsService.findRole]

/-- A text that is not the canonical one is still a text of the uuid. -/
theorem exists_other_spelling {t : String} {u : Uuid} (ht : Uuid.parse t = some u) :
    ∃ t', SameUuid t t' ∧ (t' = u.toText ↔ t ≠ u.toText) := by
  by_cases hcanonical : t = u.toText
  · refine ⟨u.braced, .inr ⟨u, ht, u.parse_braced⟩, ?_⟩
    simp [hcanonical, u.braced_ne_toText u]
  · exact ⟨u.toText, .inr ⟨u, ht, u.parse_toText⟩, by simp [hcanonical]⟩

/-! ### After the permission check -/

section Guard

variable {α : Type} {p : Permission} {g : Uuid} {guildId guildId' : String}
  {k k' : Uuid → Service α}

/-- The prefix of a guarded operation. -/
def guardedBy (env : Env) (user : Profile) (p : Permission) (guildId : String)
    (k : Uuid → Service α) : Service α := do
  let g ← VoxLink.uuidOf guildId
  requirePermission env g user.id p
  k g

theorem guardedBy_at (hg : Uuid.parse guildId = some g)
    (hp : (requirePermission env g user.id p).passes db = true) :
    guardedBy env user p guildId k db = k g db := by
  obtain ⟨_, _, hok, hdb, -⟩ := requirePermission_wp.ok_of_passes hp
  rw [guardedBy, bind_at (uuidOf_at hg), bind_at hok, hdb]

theorem guardedBy_congr (hg : SameUuid guildId guildId')
    (hk : ∀ g, Uuid.parse guildId = some g →
      (requirePermission env g user.id p).passes db = true → k' g db = k g db) :
    guardedBy env user p guildId' k' db = guardedBy env user p guildId k db := by
  rw [guardedBy, guardedBy, hg.uuidOf]
  refine bind_congr_at fun g s' hparse => ?_
  obtain ⟨hparse, hdb⟩ := uuidOf_ok hparse
  rw [hdb]
  refine bind_congr_at fun _ s' hok => ?_
  have hsame := (requirePermission_wp.of_ok hok).1
  rw [hsame]
  exact hk g hparse (by rw [passes, hok])

end Guard

/-! ### The owner check -/

section Expel

variable {e : Exception} {w : Uuid → Uuid → Database → Database} {g : Uuid} {t t' : String}

/-- What `kickMember` and `banMember` do for a permitted caller. -/
def expel (e : Exception) (w : Uuid → Uuid → Database → Database) (targetUserId : String)
    (g : Uuid) : Service Unit := do
  let guild ← query fun db => db.guildById g
  throwIf ((guild.bind (·.ownerId)).map Uuid.toText = some targetUserId) e
  let target ← uuidOf targetUserId
  write (w g target)

/-- The owner of the guild. -/
def ownerOf (db : Database) (g : Uuid) : Option Uuid := (db.guildById g).bind (·.ownerId)

theorem expel_congr (ht : SameUuid t t')
    (howner : ∀ u, Uuid.parse t = some u → ownerOf db g ≠ some u) :
    expel e w t' g db = expel e w t g db := by
  have hpassed : ∀ text, Uuid.parse text = Uuid.parse t →
      decide (((db.guildById g).bind (·.ownerId)).map Uuid.toText = some text) = false := by
    intro text htext
    rw [decide_eq_false_iff_not, Option.map_eq_some_iff]
    rintro ⟨u, hu, rfl⟩
    exact howner u (htext ▸ u.parse_toText) hu
  show (throwIf _ _ >>= fun _ => VoxLink.uuidOf t' >>= fun target => write (w g target)) db =
    (throwIf _ _ >>= fun _ => VoxLink.uuidOf t >>= fun target => write (w g target)) db
  rw [hpassed t' ht.parse, hpassed t rfl, ht.uuidOf]

theorem expel_owner {u : Uuid} (howner : ownerOf db g = some u) (ht : Uuid.parse t = some u) :
    (expel e w t g).passes db = decide (t ≠ u.toText) := by
  show (throwIf (((db.guildById g).bind (·.ownerId)).map Uuid.toText = some t) e >>=
    fun _ => VoxLink.uuidOf t >>= fun target => write (w g target) : Service Unit).passes db = _
  rw [show (db.guildById g).bind (·.ownerId) = some u from howner, VoxLink.uuidOf, ht]
  by_cases hcanonical : t = u.toText
  · simp only [hcanonical, Option.map_some, decide_true, ne_eq, not_true_eq_false, decide_false]
    rfl
  · have hother : decide ((some u).map Uuid.toText = some t) = false := by
      simpa [eq_comm] using hcanonical
    rw [hother, decide_eq_true hcanonical]
    rfl

/-- The two spellings of the owner's id end differently. -/
theorem expel_differs {u : Uuid} (howner : ownerOf db g = some u) (ht : Uuid.parse t = some u) :
    ∃ t', SameUuid t t' ∧ (expel e w t' g).passes db ≠ (expel e w t g).passes db := by
  obtain ⟨t', hsame, hspelling⟩ := exists_other_spelling ht
  refine ⟨t', hsame, ?_⟩
  rw [expel_owner howner ht, expel_owner howner (hsame.parse.trans ht), ne_eq, decide_eq_decide]
  tauto

end Expel

/-! ### The searches among loaded roles -/

section Links

variable {g : Uuid} {m : GuildMember} {roleId roleId' targetUserId targetUserId' : String}

theorem Constrained.map_rolesOf (hdb : Constrained db) (hm : m ∈ db.guildMembers) :
    (db.rolesOf m).map (·.id) = m.roles := by
  have hlinks := hdb.roles m hm
  unfold Database.rolesOf
  generalize m.roles = roles at hlinks
  induction roles with
  | nil => rfl
  | cons r roles ih =>
    obtain ⟨role, hrole⟩ := Option.isSome_iff_exists.mp (hlinks r List.mem_cons_self)
    have hid : role.id = r := by simpa using List.find?_some hrole
    have hrest := ih fun r' hr' => hlinks r' (List.mem_cons_of_mem _ hr')
    rw [List.filterMap_cons_some hrole, List.map_cons, hid, hrest]

/-- Storing the links that a member has changes nothing. -/
theorem Constrained.withRoles_eq (hdb : Constrained db) (hm : m ∈ db.guildMembers)
    {roles : List GuildRole} (hroles : (roles.map (·.id)).eraseDups = m.roles) :
    withRoles db m roles = db := by
  have hsame : ∀ x ∈ db.guildMembers, decide (x.id = m.id) = true →
      { x with roles := (roles.map (·.id)).eraseDups } = x := by
    intro x hx hid
    have hxm : x = m := Rows.eq_of_nodup hdb.members hx hm (by simpa using hid)
    rw [hxm, hroles]
  rw [withRoles, Rows.modify_eq_self_iff.mpr hsame]

/-- What `assignRole` does once the role and the member are found. -/
def grant (m : GuildMember) (role : GuildRole) (roleId : String) : Service Unit := do
  let roles ← query fun db => db.rolesOf m
  if roles.any (fun r => r.id.toText = roleId) then pure ()
  else saveRoles m.id (roles ++ [role])

theorem grant_eq (hdb : Constrained db) (hm : m ∈ db.guildMembers) {role : GuildRole}
    (hrole : Uuid.parse roleId = some role.id) :
    grant m role roleId db =
      .ok () (if role.id ∈ m.roles then db else withRoles db m (db.rolesOf m ++ [role])) := by
  have hids := hdb.map_rolesOf hm
  by_cases htext : (db.rolesOf m).any (fun r => r.id.toText = roleId) = true
  · obtain ⟨r, hr, hid⟩ := List.any_eq_true.mp htext
    have hheld : role.id ∈ m.roles := by
      have hrid : r.id = role.id := by
        rw [← of_decide_eq_true hid, Uuid.parse_toText, Option.some_inj] at hrole
        exact hrole
      rw [← hids, ← hrid]
      exact List.mem_map_of_mem hr
    show (if _ then _ else _ : Service Unit) db = _
    rw [if_pos htext, if_pos hheld]
    rfl
  · show (if _ then _ else _ : Service Unit) db = _
    rw [if_neg htext]
    by_cases hheld : role.id ∈ m.roles
    · have hsaved : ((db.rolesOf m ++ [role]).map (·.id)).eraseDups = m.roles := by
        rw [List.map_append, hids]
        exact Rows.eraseDups_append_mem (hdb.links m hm) hheld
      rw [if_pos hheld]
      exact congrArg (EStateM.Result.ok ()) (hdb.withRoles_eq hm hsaved)
    · rw [if_neg hheld]
      rfl

/-- What `removeRole` does for a permitted caller. -/
def revoke (env : Env) (targetUserId roleId : String) (g : Uuid) : Service Unit := do
  let target ← VoxLink.uuidOf targetUserId
  let member ← getMemberOrThrow env 1 g target
  let roles ← query fun db => db.rolesOf member
  saveRoles member.id (roles.filter fun r => r.id.toText ≠ roleId)

theorem seat_of_found {t : Uuid} {s' : Database} (h : getMemberOrThrow env 1 g t db = .ok m s') :
    seat env db g t = some m ∧ s' = db := by
  have hwp : wp (getMemberOrThrow env 1 g t) (fun m s' => seat env db g t = some m ∧ s' = db)
      (fun _ _ => True) db := by
    simp only [getMemberOrThrow, wp_bind, wp_query, wp_orThrow]
    exact ⟨fun m hm => ⟨hm, trivial⟩, fun _ => trivial⟩
  exact hwp.of_ok h

theorem seat_mem {t : Uuid} (h : seat env db g t = some m) : m ∈ db.guildMembers :=
  (Rows.pick_some h).1

theorem revoke_congr (ht : SameUuid targetUserId targetUserId') (hr : SameUuid roleId roleId')
    (hnot : ∀ t m, Uuid.parse targetUserId = some t → seat env db g t = some m →
      ∀ r ∈ db.rolesOf m, Uuid.parse roleId ≠ some r.id) :
    revoke env targetUserId' roleId' g db = revoke env targetUserId roleId g db := by
  rw [revoke, revoke, ht.uuidOf]
  refine bind_congr_at fun t s' hparsed => ?_
  obtain ⟨hparsed, hdb⟩ := uuidOf_ok hparsed
  rw [hdb]
  refine bind_congr_at fun m s' hfound => ?_
  obtain ⟨hseat, hdb⟩ := seat_of_found hfound
  rw [hdb]
  have hkept : ∀ text, Uuid.parse text = Uuid.parse roleId →
      (db.rolesOf m).filter (fun r => r.id.toText ≠ text) = db.rolesOf m := by
    intro text htext
    refine List.filter_eq_self.mpr fun r hr => ?_
    rw [decide_eq_true_eq]
    rintro rfl
    exact hnot t m hparsed hseat r hr (htext ▸ r.id.parse_toText)
  show saveRoles m.id _ db = saveRoles m.id _ db
  rw [hkept roleId' hr.parse, hkept roleId rfl]

theorem revoke_final {t : Uuid} (ht : Uuid.parse targetUserId = some t)
    (hm : seat env db g t = some m) :
    (revoke env targetUserId roleId g).final db =
      withRoles db m ((db.rolesOf m).filter fun r => r.id.toText ≠ roleId) := by
  have hfound : getMemberOrThrow env 1 g t db = .ok m db := by
    show orThrow _ (seat env db g t) db = _
    rw [hm]
    rfl
  rw [revoke, final, bind_at (uuidOf_at ht), bind_at hfound]
  rfl

theorem withRoles_ne (hm : m ∈ db.guildMembers) {roles roles' : List GuildRole} {r : Uuid}
    (hr : r ∈ roles.map (·.id)) (hr' : r ∉ roles'.map (·.id)) :
    withRoles db m roles ≠ withRoles db m roles' := by
  intro heq
  have hrows := congrArg Database.guildMembers heq
  have hrow := List.map_inj_left.mp hrows m hm
  simp only [decide_true, if_true, GuildMember.mk.injEq, true_and] at hrow
  rw [← List.mem_eraseDups, hrow, List.mem_eraseDups] at hr
  exact hr' hr

/-- A role that the member has is taken away under one spelling only. -/
theorem revoke_differs {t : Uuid} (ht : Uuid.parse targetUserId = some t)
    (hm : seat env db g t = some m) {role : GuildRole} (hrole : role ∈ db.rolesOf m)
    (hid : Uuid.parse roleId = some role.id) :
    ∃ roleId', SameUuid roleId roleId' ∧ (revoke env targetUserId roleId' g).final db ≠
      (revoke env targetUserId roleId g).final db := by
  obtain ⟨roleId', hsame, hspelling⟩ := exists_other_spelling hid
  refine ⟨roleId', hsame, ?_⟩
  rw [revoke_final ht hm, revoke_final ht hm]
  have hgone : role.id ∉ ((db.rolesOf m).filter fun r => r.id.toText ≠ role.id.toText).map
      (·.id) := by
    simp only [List.mem_map, List.mem_filter, decide_eq_true_eq, not_exists, not_and, and_imp]
    exact fun r _ hne heq => hne (congrArg Uuid.toText heq)
  have hstays : ∀ text, text ≠ role.id.toText →
      role.id ∈ ((db.rolesOf m).filter fun r => r.id.toText ≠ text).map (·.id) :=
    fun text hne => List.mem_map_of_mem (List.mem_filter.mpr ⟨hrole, by simpa using hne.symm⟩)
  by_cases hcanonical : roleId = role.id.toText
  · have hother : roleId' ≠ role.id.toText := fun h => hspelling.mp h hcanonical
    rw [hcanonical]
    exact withRoles_ne (seat_mem hm) (hstays roleId' hother) hgone
  · rw [hspelling.mpr hcanonical]
    exact (withRoles_ne (seat_mem hm) (hstays roleId hcanonical) hgone).symm

end Links

/-! ### All operations -/

theorem assignRole_congr (hdb : Constrained db) {g g' t t' r r' : String} (hg : SameUuid g g')
    (ht : SameUuid t t') (hr : SameUuid r r') :
    assignRole env g' t' r' user db = assignRole env g t r user db := by
  refine guardedBy_congr hg fun g _ _ => ?_
  rw [hr.findRole]
  refine bind_congr_at fun role s' hfound => ?_
  obtain ⟨hs', -, hid, -⟩ := findRole_wp.of_ok hfound
  rw [hs', ht.uuidOf]
  refine bind_congr_at fun u s' hparsed => ?_
  rw [(uuidOf_ok hparsed).2]
  refine bind_congr_at fun m s' hseat => ?_
  obtain ⟨hseat, hs'⟩ := seat_of_found hseat
  rw [hs']
  show grant m role r' db = grant m role r db
  rw [grant_eq hdb (seat_mem hseat) hid, grant_eq hdb (seat_mem hseat) (hr.parse.trans hid)]

theorem updateRole_congr {g g' r r' : String} {d : CreateRoleDto} (hg : SameUuid g g')
    (hr : SameUuid r r') : updateRole env g' r' d user = updateRole env g r d user := by
  rw [updateRole, updateRole, hg.uuidOf]
  simp only [hr.findRole]

theorem deleteRole_congr {g g' r r' : String} (hg : SameUuid g g') (hr : SameUuid r r') :
    deleteRole env g' r' user = deleteRole env g r user := by
  rw [deleteRole, deleteRole, hg.uuidOf]
  simp only [hr.findRole]

theorem same_of_eq {α : Type} {m m' : Service α} (h : m' db = m db) :
    m'.outcome db = m.outcome db ∧ m'.final db = m.final db := by
  simp only [outcome, final, h, and_self]

/-- A guarded operation on a member that is not the owner. -/
theorem guardedExpel_congr {p : Permission} {e : Exception}
    {w : Uuid → Uuid → Database → Database} {g g' t t' : String}
    (hnot : ownerTargeted env user db p g t = false) (hg : SameUuid g g') (ht : SameUuid t t') :
    guardedBy env user p g' (expel e w t') db = guardedBy env user p g (expel e w t) db := by
  refine guardedBy_congr hg fun g hparsed hpermitted => ?_
  refine expel_congr ht fun u hu howner => ?_
  rw [ownerOf] at howner
  simp [ownerTargeted, hparsed, hpermitted, hu, howner] at hnot

/-- A guarded operation on the owner. -/
theorem guardedExpel_differs {p : Permission} {e : Exception}
    {w : Uuid → Uuid → Database → Database} {g t : String}
    (htarget : ownerTargeted env user db p g t = true) :
    ∃ t', SameUuid t t' ∧ (guardedBy env user p g (expel e w t')).passes db ≠
      (guardedBy env user p g (expel e w t)).passes db := by
  simp only [ownerTargeted, Option.any_eq_true, Bool.and_eq_true, decide_eq_true_eq] at htarget
  obtain ⟨guild, hparsed, hpermitted, u, hu, howner⟩ := htarget
  obtain ⟨t', hsame, hdiffers⟩ := expel_differs (e := e) (w := w) howner hu
  refine ⟨t', hsame, ?_⟩
  rw [passes, guardedBy_at hparsed hpermitted, passes, guardedBy_at hparsed hpermitted]
  exact hdiffers

theorem spellingFree_of_not (hdb : Constrained db) {r : GuildRoute}
    (hnot : spellingMatters env user db r = false) : SpellingFree env user db r := by
  intro r' hr
  refine same_of_eq ?_
  cases hr with
  | kickMember hg ht => exact map_at (guardedExpel_congr hnot hg ht)
  | banMember hg ht => exact map_at (guardedExpel_congr hnot hg ht)
  | assignRole hg ht hr => exact map_at (assignRole_congr hdb hg ht hr)
  | @removeRole g g' t t' r r' hg ht hr =>
    refine map_at (guardedBy_congr hg fun g hparsed hpermitted => ?_)
    refine revoke_congr ht hr fun u m hu hm role hrole hid => ?_
    have hheld : (db.rolesOf m).any (·.id = role.id) = true :=
      List.any_eq_true.mpr ⟨role, hrole, by simp⟩
    simp [spellingMatters, roleHeld, hparsed, hpermitted, hu, hm, hid, hheld] at hnot
  | updateRole hg hr => exact map_at (congrFun (updateRole_congr hg hr) db)
  | deleteRole hg hr => exact map_at (congrFun (deleteRole_congr hg hr) db)

theorem not_spellingFree {r : GuildRoute} (hmatters : spellingMatters env user db r = true) :
    ¬SpellingFree env user db r := by
  intro hfree
  cases r with
  | kickMember g t =>
    obtain ⟨t', hsame, hdiffers⟩ : ∃ t', SameUuid t t' ∧
        (kickMember env g t' user).passes db ≠ (kickMember env g t user).passes db :=
      guardedExpel_differs hmatters
    have hpasses := congrArg Except.isOk (hfree _ (.kickMember (.inl rfl) hsame)).1
    rw [← passes_eq_isOk, ← passes_eq_isOk, guildsController, guildsController, passes_map,
      passes_map] at hpasses
    exact hdiffers hpasses
  | banMember g t =>
    obtain ⟨t', hsame, hdiffers⟩ : ∃ t', SameUuid t t' ∧
        (banMember env g t' user).passes db ≠ (banMember env g t user).passes db :=
      guardedExpel_differs hmatters
    have hpasses := congrArg Except.isOk (hfree _ (.banMember (.inl rfl) hsame)).1
    rw [← passes_eq_isOk, ← passes_eq_isOk, guildsController, guildsController, passes_map,
      passes_map] at hpasses
    exact hdiffers hpasses
  | removeRole g t r =>
    simp only [spellingMatters, roleHeld, Option.any_eq_true, Bool.and_eq_true,
      List.any_eq_true, decide_eq_true_eq] at hmatters
    obtain ⟨guild, hparsed, hpermitted, u, hu, m, hm, _, hid, role, hrole, rfl⟩ := hmatters
    obtain ⟨r', hsame, hdiffers⟩ := revoke_differs hu hm hrole hid
    have hfinal := (hfree _ (.removeRole (.inl rfl) (.inl rfl) hsame)).2
    rw [guildsController, guildsController, final_map, final_map] at hfinal
    have hrest : ∀ text, (removeRole env g t text user).final db =
        (revoke env t text guild).final db := by
      intro text
      have heq : removeRole env g t text user db = revoke env t text guild db :=
        guardedBy_at hparsed hpermitted
      rw [final, heq, final]
    rw [hrest, hrest] at hfinal
    exact hdiffers hfinal
  | _ => exact absurd hmatters (by simp [spellingMatters])

/-- An operation has one outcome and effect under every spelling of its ids unless it is permitted
and targets the owner, or a role that the member has. -/
theorem spelling_free_iff (hdb : Constrained db) (env : Env) (user : Profile) (r : GuildRoute) :
    SpellingFree env user db r ↔ spellingMatters env user db r = false := by
  constructor
  · intro hfree
    by_contra hmatters
    exact not_spellingFree (by simpa using hmatters) hfree
  · exact spellingFree_of_not hdb

/-! ### Reachable tables -/

/-- Requests store each link once. -/
theorem links_kept {db' : Database} {route : Route} (h : ∀ m ∈ db.guildMembers, m.roles.Nodup)
    (hc : Change env user db route db') : ∀ m ∈ db'.guildMembers, m.roles.Nodup := by
  intro m hm
  cases hc with
  | elsewhere _ hsame => exact h m (hsame.members ▸ hm)
  | createGuild _ _ =>
    rcases List.mem_append.mp hm with hm | hm
    · exact h m hm
    · rw [List.mem_singleton.mp hm]
      exact List.nodup_singleton _
  | deleteGuild _ _ =>
    obtain ⟨x, hx, rfl⟩ := List.mem_map.mp hm
    exact (h x (Rows.mem_remove.mp hx).1).filter _
  | deleteUser => exact h m (Rows.mem_remove.mp hm).1
  | join _ _ _ =>
    rcases List.mem_append.mp hm with hm | hm
    · exact h m hm
    · rw [List.mem_singleton.mp hm]
      show ((lowestRole env _ db).map (·.id)).toList.Nodup
      cases (lowestRole env _ db).map (·.id) <;> simp
  | kick _ _ _ _ => exact h m (Rows.mem_remove.mp hm).1
  | ban _ _ _ _ =>
    obtain ⟨x, hx, rfl⟩ := Rows.mem_modify.mp hm
    have := h x hx
    split <;> exact this
  | setRoles _ _ =>
    obtain ⟨x, hx, rfl⟩ := Rows.mem_modify.mp hm
    split
    · exact Rows.nodup_eraseDups _
    · exact h x hx
  | deleteRole _ _ =>
    obtain ⟨x, hx, rfl⟩ := List.mem_map.mp hm
    exact (h x hx).filter _
  | _ => exact h m hm

theorem Reached.constrained {s : Server} (hs : Reached X s) : Constrained s.db := by
  have hlinks : ∀ m ∈ s.db.guildMembers, m.roles.Nodup :=
    hs.invariant (P := fun db => ∀ m ∈ db.guildMembers, m.roles.Nodup) (by simp [Database.empty])
      (fun hsame h m hm => h m (hsame.members ▸ hm)) fun _ h hc => links_kept h hc
  refine ⟨hs.consistent.ids.members, hlinks, ?_⟩
  intro m hm r hr
  obtain ⟨x, hx, rfl, -⟩ := hs.consistent.refs.link m hm r hr
  rw [roleById_of_mem hs.consistent.ids hx]
  rfl

/-- Bob is an officer of Alice's guild. -/
def bobOfficer : Server :=
  run (serve sampleExternals) Server.empty (guildRun .absent ++
    [byBob 4 (.joinByInvite "code3"),
      byAlice 5 (.assignRole sampleGuild.toText bob.id.toText (sampleUuid 3 2).toText)])

theorem bobOfficer_constrained : Constrained bobOfficer.db :=
  Reached.constrained (X := sampleExternals) ⟨_, by decide +kernel, rfl⟩

/-- Bob is kicked under every spelling of his id. -/
theorem kick_bob_spelling_free :
    SpellingFree (sampleEnv 6) alice bobOfficer.db
      (.kickMember sampleGuild.toText bob.id.toText) :=
  (spelling_free_iff bobOfficer_constrained (sampleEnv 6) alice _).mpr (by decide +kernel)

/-- Bob is refused to kick Alice, who owns the guild, under the canonical text of her id, and kicks
her under another. -/
theorem kick_owner_by_spelling :
    ¬SpellingFree (sampleEnv 6) bob bobOfficer.db
        (.kickMember sampleGuild.toText alice.id.toText) ∧
      (kickMember (sampleEnv 6) sampleGuild.toText alice.id.toText bob).outcome bobOfficer.db =
        .error (.forbidden "Cannot kick the owner") ∧
      (kickMember (sampleEnv 6) sampleGuild.toText alice.id.braced bob).outcome bobOfficer.db =
        .ok () ∧
      ¬∃ m ∈ ((kickMember (sampleEnv 6) sampleGuild.toText alice.id.braced bob).final
        bobOfficer.db).guildMembers, m.userId = alice.id := by
  refine ⟨not_spellingFree (by decide +kernel), ?_, ?_, ?_⟩ <;> decide +kernel

end VoxLink
