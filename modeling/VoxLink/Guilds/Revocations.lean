import VoxLink.Guilds.Banning
import VoxLink.Guilds.Owners

/-! Operations that take permissions away. What a user may do in a guild follows from the row that
the check picks among his active ones and from the roles linked to it, so an operation that keeps
these rows in order and adds no link grants nothing. -/

namespace VoxLink

open ProofKit Prog GuildsService

variable {X : Externals} {env : Env} {user : Profile} {db db' : Database} {s : Server}
  {g h u v : Uuid}

/-- The permissions whose check the user passes in the guild. -/
def effective (env : Env) (db : Database) (g v : Uuid) : Set Permission :=
  {p | (requirePermission env g v p).passes db = true}

/-- The routes that take permissions away. -/
def GuildRoute.revokes : GuildRoute → Bool
  | .kickMember _ _ | .banMember _ _ | .removeRole _ _ _ | .deleteRole _ _ | .delete _ => true
  | _ => false

/-- The guild and the member that a route expels, as the request names them. -/
def GuildRoute.expelled : GuildRoute → Option (String × String)
  | .kickMember g t | .banMember g t => some (g, t)
  | _ => none

/-! ### The check -/

/-- The active rows of a user in a guild. -/
def Database.activeSeats (db : Database) (g v : Uuid) : List GuildMember :=
  db.guildMembers.filter fun m => m.guildId = g ∧ m.userId = v ∧ m.status = .active

/-- The row that a check of a permission loads. -/
def Database.checkedSeat (env : Env) (db : Database) (g v : Uuid) : Option GuildMember :=
  (db.activeSeats g v)[env.pick 0 % (db.activeSeats g v).length]?

theorem mem_effective {p : Permission} : p ∈ effective env db g v ↔
    ∃ guild, db.guildById g = some guild ∧ (guild.ownerId = some v ∨
      ∃ m, db.checkedSeat env g v = some m ∧ hasPermission db m p = true) := by
  show (requirePermission env g v p).passes db = true ↔ _
  have hseat : db.checkedSeat env g v = Rows.pick (env.pick 0)
      (fun m => m.guildId = g ∧ m.userId = v ∧ m.status = .active) db.guildMembers := rfl
  rw [passes_iff, hseat]
  simp only [requirePermission, wp_bind, wp_query, wp_orThrow]
  constructor
  · rintro ⟨hfound, hmissing⟩
    cases hguild : db.guildById g with
    | none => exact (hmissing hguild).elim
    | some guild =>
      refine ⟨guild, rfl, ?_⟩
      have hchecked := hfound guild hguild
      split at hchecked
      · exact .inl ‹_›
      · simp only [getMemberOrThrow, wp_bind, wp_query, wp_orThrow, wp_throwIf] at hchecked
        obtain ⟨hmember, hstranger⟩ := hchecked
        cases hpick : Rows.pick (env.pick 0)
            (fun m => m.guildId = g ∧ m.userId = v ∧ m.status = .active) db.guildMembers with
        | none => exact (hstranger hpick).elim
        | some m =>
          refine .inr ⟨m, rfl, ?_⟩
          have hpermitted := (hmember m hpick).2
          simpa using hpermitted
  · rintro ⟨guild, hguild, hallowed⟩
    refine ⟨fun found hfound => ?_, fun hmissing => ?_⟩
    · obtain rfl := Option.some.inj (hguild.symm.trans hfound)
      split
      · trivial
      · obtain ⟨m, hm, hp⟩ := hallowed.resolve_left ‹_›
        simp only [getMemberOrThrow, wp_bind, wp_query, wp_orThrow, wp_throwIf]
        rw [hm]
        simp [hp]
    · rw [hguild] at hmissing
      exact nomatch hmissing

/-! ### Tables with less -/

/-- The guilds and roles of `db'` are among those of `db`, and the active rows of a user in a guild
are gone or are the same with no more links. -/
structure Reduced (db db' : Database) : Prop where
  guild : ∀ g guild, db'.guildById g = some guild → db.guildById g = some guild
  role : ∀ id r, db'.roleById id = some r → db.roleById id = some r
  seats : ∀ g v, db'.activeSeats g v = [] ∨ ∃ f : GuildMember → GuildMember,
    db'.activeSeats g v = (db.activeSeats g v).map f ∧
      ∀ m ∈ db.activeSeats g v, ∀ id ∈ (f m).roles, id ∈ m.roles

theorem Reduced.hasPermission (hred : Reduced db db') {m m' : GuildMember}
    (hroles : ∀ id ∈ m'.roles, id ∈ m.roles) {p : Permission}
    (hp : hasPermission db' m' p = true) : GuildsService.hasPermission db m p = true := by
  obtain ⟨r, hr, hmask⟩ := List.any_eq_true.mp hp
  obtain ⟨id, hid, hfound⟩ := List.mem_filterMap.mp hr
  have hlinked : r ∈ db.rolesOf m :=
    List.mem_filterMap.mpr ⟨id, hroles id hid, hred.role id r hfound⟩
  exact List.any_eq_true.mpr ⟨r, hlinked, hmask⟩

theorem Reduced.checkedSeat (hred : Reduced db db') {m' : GuildMember}
    (hm : db'.checkedSeat env g v = some m') :
    ∃ m, db.checkedSeat env g v = some m ∧ ∀ id ∈ m'.roles, id ∈ m.roles := by
  rcases hred.seats g v with hnone | ⟨f, hsame, hroles⟩
  · simp [Database.checkedSeat, hnone] at hm
  · simp only [Database.checkedSeat, hsame, List.length_map, List.getElem?_map,
      Option.map_eq_some_iff] at hm
    obtain ⟨m, hfound, rfl⟩ := hm
    exact ⟨m, hfound, hroles m (List.mem_of_getElem? hfound)⟩

/-- Tables with less grant nothing. -/
theorem Reduced.effective_subset (hred : Reduced db db') :
    effective env db' g v ⊆ effective env db g v := by
  intro p hp
  obtain ⟨guild, hguild, hallowed⟩ := mem_effective.mp hp
  refine mem_effective.mpr ⟨guild, hred.guild g guild hguild, ?_⟩
  rcases hallowed with howner | ⟨m', hm', hp⟩
  · exact .inl howner
  · obtain ⟨m, hm, hroles⟩ := hred.checkedSeat hm'
    exact .inr ⟨m, hm, hred.hasPermission hroles hp⟩

theorem effective_eq_empty (howner : ownerOf db g ≠ some v) (hnone : db.activeSeats g v = []) :
    effective env db g v = ∅ := by
  refine Set.eq_empty_iff_forall_notMem.mpr fun p hp => ?_
  obtain ⟨guild, hguild, howns | ⟨m, hm, -⟩⟩ := mem_effective.mp hp
  · exact howner (by rw [ownerOf, hguild, Option.bind_some, howns])
  · simp [Database.checkedSeat, hnone] at hm

/-! ### The operations -/

/-- Tables whose memberships alone have changed. -/
theorem reduced_members {members : List GuildMember}
    (h : ∀ g v, (members.filter fun m => m.guildId = g ∧ m.userId = v ∧ m.status = .active) = [] ∨
      ∃ f : GuildMember → GuildMember,
        (members.filter fun m => m.guildId = g ∧ m.userId = v ∧ m.status = .active) =
          (db.activeSeats g v).map f ∧
        ∀ m ∈ db.activeSeats g v, ∀ id ∈ (f m).roles, id ∈ m.roles) :
    Reduced db { db with guildMembers := members } :=
  ⟨fun _ _ h => h, fun _ _ h => h, h⟩

/-- The tables after a member is expelled. -/
def withoutMember (db : Database) (g t : Uuid) : Database :=
  { db with guildMembers := Rows.remove (fun m => m.guildId = g ∧ m.userId = t) db.guildMembers }

theorem activeSeats_withoutMember {t : Uuid} : (withoutMember db g t).activeSeats g t = [] := by
  refine List.filter_eq_nil_iff.mpr fun m hm => ?_
  have hkept := (Rows.mem_remove.mp hm).2
  simp only [decide_eq_false_iff_not, decide_eq_true_eq] at hkept ⊢
  exact fun hseat => hkept ⟨hseat.1, hseat.2.1⟩

theorem reduced_withoutMember {t : Uuid} : Reduced db (withoutMember db g t) := by
  refine reduced_members fun h v => ?_
  by_cases hpair : h = g ∧ v = t
  · obtain ⟨rfl, rfl⟩ := hpair
    exact .inl activeSeats_withoutMember
  · refine .inr ⟨id, ?_, fun _ _ _ hr => hr⟩
    rw [List.map_id]
    refine Rows.filter_remove_disjoint fun m _ hm => ?_
    simp only [decide_eq_true_eq, decide_eq_false_iff_not] at hm ⊢
    exact fun hseat => hpair ⟨hseat.1.symm.trans hm.1, hseat.2.1.symm.trans hm.2⟩

theorem activeSeats_withBan {t : Uuid} : (withBan env db g t).activeSeats g t = [] := by
  refine List.filter_eq_nil_iff.mpr fun m hm => ?_
  simp only [decide_eq_true_eq]
  intro hseat
  have hbanned := banned_of_mem_withBan hm ⟨hseat.1, hseat.2.1⟩
  exact nomatch hbanned.symm.trans hseat.2.2

theorem reduced_withBan {t : Uuid} : Reduced db (withBan env db g t) := by
  refine reduced_members fun h v => ?_
  by_cases hpair : h = g ∧ v = t
  · obtain ⟨rfl, rfl⟩ := hpair
    exact .inl activeSeats_withBan
  · refine .inr ⟨id, ?_, fun _ _ _ hr => hr⟩
    rw [List.map_id]
    refine Rows.filter_modify_disjoint fun m _ hm => ?_
    simp only [decide_eq_true_eq, decide_eq_false_iff_not] at hm ⊢
    have hother : ¬(m.guildId = h ∧ m.userId = v ∧ m.status = .active) :=
      fun hseat => hpair ⟨hseat.1.symm.trans hm.1, hseat.2.1.symm.trans hm.2⟩
    exact ⟨hother, by simp⟩

/-- A list of roles stored for a member, all of which he has. -/
theorem reduced_withRoles (hids : UniqueIds db) {m : GuildMember} (hm : m ∈ db.guildMembers)
    {roles : List GuildRole} (hroles : ∀ r ∈ roles, r.id ∈ m.roles) :
    Reduced db (withRoles db m roles) := by
  refine reduced_members fun h v => .inr ⟨_, Rows.filter_modify fun _ _ => rfl, ?_⟩
  intro x hx id hid
  split at hid
  · rename_i hsame
    obtain rfl : x = m :=
      Rows.eq_of_nodup hids.members (List.mem_filter.mp hx).1 hm (by simpa using hsame)
    obtain ⟨r, hr, rfl⟩ := List.mem_map.mp (List.mem_eraseDups.mp hid)
    exact hroles r hr
  · exact hid

/-- The roles of a table from which some are gone are found as before. -/
theorem roleById_remove (hids : UniqueIds db) {p : GuildRole → Bool} {id : Uuid} {r : GuildRole}
    (h : (Rows.remove p db.guildRoles).find? (·.id = id) = some r) : db.roleById id = some r := by
  have hid : r.id = id := by simpa using List.find?_some h
  rw [← hid]
  exact roleById_of_mem hids (Rows.mem_remove.mp (List.mem_of_find?_eq_some h)).1

/-- A column of links that is cut down keeps the active rows. -/
theorem activeSeats_map {members : List GuildMember} {f : GuildMember → GuildMember}
    (hf : ∀ m, (f m).guildId = m.guildId ∧ (f m).userId = m.userId ∧ (f m).status = m.status) :
    ((members.map f).filter fun m => m.guildId = g ∧ m.userId = v ∧ m.status = .active) =
      (members.filter fun m => m.guildId = g ∧ m.userId = v ∧ m.status = .active).map f := by
  rw [List.filter_map]
  congr 1
  refine List.filter_congr fun m _ => ?_
  simp only [Function.comp_apply, (hf m).1, (hf m).2.1, (hf m).2.2]

theorem reduced_deleteRole (hids : UniqueIds db) (r : Uuid) : Reduced db (db.deleteRole r) := by
  refine ⟨fun _ _ h => h, fun _ _ => roleById_remove hids, fun g v => .inr ?_⟩
  refine ⟨_, activeSeats_map fun _ => ⟨rfl, rfl, rfl⟩, ?_⟩
  exact fun m _ id hid => (List.mem_filter.mp hid).1

theorem reduced_deleteGuild (hids : UniqueIds db) (g : Uuid) : Reduced db (db.deleteGuild g) := by
  refine ⟨fun h guild hguild => ?_, fun _ _ => roleById_remove hids, fun h v => ?_⟩
  · have hid : guild.id = h := by simpa using List.find?_some hguild
    rw [← hid]
    exact guildById_of_mem hids (Rows.mem_remove.mp (List.mem_of_find?_eq_some hguild)).1
  · by_cases hgh : h = g
    · refine .inl (List.filter_eq_nil_iff.mpr fun m hm => ?_)
      obtain ⟨old, hold, rfl⟩ := List.mem_map.mp hm
      have hkept := (Rows.mem_remove.mp hold).2
      simp only [decide_eq_false_iff_not] at hkept
      simp [hgh, hkept]
    · let gone := (db.guildRoles.filter (·.guildId = g)).map (·.id)
      let unlink (m : GuildMember) : GuildMember := { m with roles := m.roles.filter (· ∉ gone) }
      have hkept : (Rows.remove (·.guildId = g) db.guildMembers).filter
          (fun m => m.guildId = h ∧ m.userId = v ∧ m.status = .active) = db.activeSeats h v := by
        refine Rows.filter_remove_disjoint fun m _ hm => ?_
        simp only [decide_eq_true_eq, decide_eq_false_iff_not] at hm ⊢
        exact fun hseat => hgh (hseat.1.symm.trans hm)
      refine .inr ⟨unlink, ?_, fun m _ id hid => (List.mem_filter.mp hid).1⟩
      rw [← hkept]
      exact activeSeats_map fun _ => ⟨rfl, rfl, rfl⟩

/-- A revocation reduces the tables. -/
theorem guildsController_reduced (hids : UniqueIds db) {r : GuildRoute} (hr : r.revokes = true) :
    wp (guildsController env user r) (fun _ db' => Reduced db db') (fun _ db' => db' = db) db := by
  cases r with
  | kickMember text target =>
    refine wp_map.mpr (kickMember_wp.mono ?_ fun _ _ h => h)
    rintro _ _ ⟨g, t, -, -, -, -, rfl⟩
    exact reduced_withoutMember
  | banMember text target =>
    refine wp_map.mpr (banMember_wp.mono ?_ fun _ _ h => h)
    rintro _ _ ⟨g, t, -, -, -, -, rfl⟩
    exact reduced_withBan
  | removeRole text target role =>
    refine wp_map.mpr (removeRole_wp.mono ?_ fun _ _ h => h)
    rintro _ _ ⟨g, t, m, -, -, -, hm, rfl⟩
    refine reduced_withRoles hids hm.1 fun x hx => ?_
    exact (mem_rolesOf (List.mem_filter.mp hx).1).2
  | deleteRole text role =>
    refine wp_map.mpr (deleteRole_wp.mono ?_ fun _ _ h => h)
    rintro _ _ ⟨g, role, -, -, -, -, -, -, rfl⟩
    exact reduced_deleteRole hids role.id
  | delete text =>
    refine wp_map.mpr (delete_wp.mono ?_ fun _ _ h => h)
    rintro _ _ ⟨g, guild, -, -, -, -, rfl⟩
    exact reduced_deleteGuild hids g
  | _ => exact Bool.noConfusion hr

/-- The owner check of an expulsion refuses the owner under his canonical text. -/
theorem ownerOf_ne_of_notOwnerText {target : String} {t : Uuid} (hcanonical : Canonical target)
    (ht : Uuid.parse target = some t) (h : NotOwnerText db g target) : ownerOf db g ≠ some t := by
  intro howner
  have htext : (db.guildById g).bind (·.ownerId) = some t := howner
  rw [NotOwnerText, htext, hcanonical t ht] at h
  simp at h

/-- A member who has been expelled may do nothing in the guild. -/
theorem guildsController_expelled {r : GuildRoute} {text target : String} {t : Uuid}
    (hr : r.expelled = some (text, target)) (hg : Uuid.parse text = some g)
    (ht : Uuid.parse target = some t) (hcanonical : Canonical target) :
    wp (guildsController env user r) (fun _ db' => ∀ env', effective env' db' g t = ∅)
      (fun _ _ => True) db := by
  cases r with
  | kickMember text' target' =>
    obtain ⟨rfl, rfl⟩ := Prod.mk.inj (Option.some.inj hr)
    refine wp_map.mpr (kickMember_wp.mono ?_ fun _ _ _ => trivial)
    rintro _ _ ⟨g', t', hg', -, ht', hown, rfl⟩ env'
    obtain rfl := Option.some.inj (hg.symm.trans hg')
    obtain rfl := Option.some.inj (ht.symm.trans ht')
    exact effective_eq_empty (ownerOf_ne_of_notOwnerText hcanonical ht hown)
      activeSeats_withoutMember
  | banMember text' target' =>
    obtain ⟨rfl, rfl⟩ := Prod.mk.inj (Option.some.inj hr)
    refine wp_map.mpr (banMember_wp.mono ?_ fun _ _ _ => trivial)
    rintro _ _ ⟨g', t', hg', -, ht', hown, rfl⟩ env'
    obtain rfl := Option.some.inj (hg.symm.trans hg')
    obtain rfl := Option.some.inj (ht.symm.trans ht')
    exact effective_eq_empty (ownerOf_ne_of_notOwnerText hcanonical ht hown) activeSeats_withBan
  | _ => exact nomatch hr

/-- In every reachable state, a revocation that succeeds grants nothing to anybody in any guild, and
leaves a member who is kicked or banned without a permission in the guild. -/
theorem revocation_never_grants (hs : Reached X s) {r : GuildRoute} (hr : r.revokes = true)
    (hcanonical : ∀ text ∈ r.ids, Canonical text) {b : Body}
    (hok : (guildsController env user r).outcome s.db = .ok b) :
    let db' := (guildsController env user r).final s.db
    (∀ env' g v, effective env' db' g v ⊆ effective env' s.db g v) ∧
      ∀ text target g t, r.expelled = some (text, target) → Uuid.parse text = some g →
        Uuid.parse target = some t → ∀ env', effective env' db' g t = ∅ := by
  intro db'
  constructor
  · intro env' g v
    exact ((guildsController_reduced hs.consistent.ids hr).of_returned hok).effective_subset
  · intro text target g t hexpelled hg ht
    have htarget : Canonical target := by
      refine hcanonical target ?_
      cases r <;> simp only [GuildRoute.expelled, reduceCtorEq] at hexpelled <;>
        simp [GuildRoute.ids, (Prod.mk.inj (Option.some.inj hexpelled)).2]
    exact (guildsController_expelled hexpelled hg ht htarget).of_returned hok

/-- Alice kicks Bob, an officer. -/
theorem kickedOfficer_powerless :
    let kick := guildsController (sampleEnv 6) alice (.kickMember sampleGuild.toText bob.id.toText)
    effective (sampleEnv 7) (kick.final bobOfficer.db) sampleGuild bob.id = ∅ := by
  intro kick
  have hreached : Reached sampleExternals bobOfficer := ⟨_, by decide +kernel, rfl⟩
  have hkicked : kick.outcome bobOfficer.db = .ok .none := by decide +kernel
  have hnever := revocation_never_grants hreached rfl (by decide +kernel) hkicked
  exact hnever.2 _ _ _ _ rfl (Uuid.parse_toText _) (Uuid.parse_toText _) (sampleEnv 7)

end VoxLink
