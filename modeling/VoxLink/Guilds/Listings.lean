import VoxLink.Accounts.Roles
import VoxLink.Guilds.Owners
import VoxLink.Guilds.Revocations
import VoxLink.Guilds.Spelling

/-! The membership of a user as three queries see it: the join of `findAll`, the row that
`getMemberOrThrow` looks for, and the rows of `getMembers`. They agree in every reachable state; the
owner is among them until somebody expels him under another spelling of his id. -/

namespace VoxLink

open ProofKit Prog GuildsService

variable {X : Externals} {env : Env} {user : Profile} {db db' : Database} {route : Route}
  {g u : Uuid} {s : Server} {text : String}

/-- The guild is in the answer of `findAll`. -/
def Listed (db : Database) (user : Profile) (g : Uuid) : Prop :=
  ∃ gs, (findAll user).outcome db = .ok gs ∧ ∃ x ∈ gs, x.1.id = g

/-- The user is in an answer of `getMembers`. -/
def Shown (u : Uuid) (ms : List MemberListing) : Prop :=
  ∃ m ∈ ms, m.user.map (·.1.id) = some u

/-- The user is an active member of the guild. -/
def Belongs (db : Database) (g u : Uuid) : Prop := ∃ m, ActiveMember db g u m

/-! ### Each query looks for an active membership -/

theorem listed_iff (hrefs : Scoped db) : Listed db user g ↔ Belongs db g user.id := by
  constructor
  · rintro ⟨_, hout, x, hx, rfl⟩
    obtain rfl := Except.ok.inj hout
    obtain ⟨guild, hguild, rfl⟩ := List.mem_map.mp hx
    obtain ⟨m, hm, hp⟩ := List.any_eq_true.mp (List.mem_filter.mp hguild).2
    exact ⟨m, hm, by simpa using hp⟩
  · rintro ⟨m, hm, hg, hu, hactive⟩
    obtain ⟨guild, hguild, hid⟩ := List.mem_map.mp (hrefs.member m hm)
    have hjoined : db.guildMembers.any (fun m =>
        m.guildId = guild.id ∧ m.userId = user.id ∧ m.status = .active) = true :=
      List.any_eq_true.mpr ⟨m, hm, by simp [hid, hu, hactive]⟩
    refine ⟨_, rfl, (guild, db.relatedSummary guild.ownerId), ?_, hid.trans hg⟩
    exact List.mem_map_of_mem (List.mem_filter.mpr ⟨hguild, hjoined⟩)

/-- A reading operation that cannot fail after its membership check. -/
theorem reader_wp {α : Type} {k : Uuid → Service α} (htext : Uuid.parse text = some g)
    (hk : Belongs db g user.id → wp (k g) (fun _ _ => True) (fun _ _ => False) db) :
    wp (do let id ← uuidOf text
           let _ ← getMemberOrThrow env 1 id user.id
           k id) (fun _ _ => Belongs db g user.id) (fun _ _ => ¬Belongs db g user.id) db := by
  simp only [wp_bind, wp_uuidOf, htext]
  refine ⟨fun id hid => ?_, fun h => by cases h⟩
  obtain rfl := Option.some.inj hid
  refine getMemberOrThrow_wp.mono ?_ ?_
  · rintro m _ ⟨rfl, hm⟩
    exact (hk ⟨m, hm⟩).mono (fun _ _ _ => ⟨m, hm⟩) fun _ _ h => h.elim
  · rintro _ _ ⟨rfl, hno⟩
    rintro ⟨m, hm⟩
    exact hno m hm

theorem Belongs.guildById (hrefs : Scoped db) (h : Belongs db g u) :
    ∃ guild, db.guildById g = some guild := by
  obtain ⟨m, hm, rfl, -⟩ := h
  obtain ⟨guild, hguild, hid⟩ := List.mem_map.mp (hrefs.member m hm)
  refine Option.isSome_iff_exists.mp (List.find?_isSome.mpr ⟨guild, hguild, ?_⟩)
  exact decide_eq_true hid

theorem findOne_passes_iff (hrefs : Scoped db) (htext : Uuid.parse text = some g) :
    (findOne env text user).passes db = true ↔ Belongs db g user.id := by
  apply wp.passes_iff
  simp only [findOne, wp_bind, wp_uuidOf, htext]
  refine ⟨fun id hid => ?_, nofun⟩
  obtain rfl := Option.some.inj hid
  simp only [findGuild, wp_bind, wp_query, wp_orThrow]
  constructor
  · intro guild hguild
    refine getMemberOrThrow_wp.mono ?_ ?_
    · exact fun m _ ⟨_, hm⟩ => ⟨m, hm⟩
    · exact fun _ _ ⟨_, hno⟩ ⟨m, hm⟩ => hno m hm
  · intro hnone hmember
    obtain ⟨guild, hguild⟩ := hmember.guildById hrefs
    exact nomatch hnone.symm.trans hguild

theorem getRoles_passes_iff (htext : Uuid.parse text = some g) :
    (getRoles env text user).passes db = true ↔ Belongs db g user.id := by
  refine (reader_wp htext fun _ => ?_).passes_iff
  trivial

theorem getMembers_passes_iff (htext : Uuid.parse text = some g) :
    (getMembers env text user).passes db = true ↔ Belongs db g user.id := by
  refine (reader_wp htext fun _ => ?_).passes_iff
  trivial

theorem getChannels_passes_iff (hrefs : Scoped db) (htext : Uuid.parse text = some g) :
    (getChannels env text user).passes db = true ↔ Belongs db g user.id := by
  refine (reader_wp htext fun hmember => ?_).passes_iff
  obtain ⟨guild, hguild⟩ := hmember.guildById hrefs
  simp [wp_orThrow, hguild]

/-! ### Members have accounts -/

/-- Every membership is that of an account. -/
def HaveAccounts (db : Database) : Prop := ∀ m ∈ db.guildMembers, m.userId ∈ db.users.map (·.id)

/-- An answer of `getMembers` shows the accounts that belong to the guild. -/
theorem shown_iff (haccounts : HaveAccounts db) (htext : Uuid.parse text = some g)
    {ms : List MemberListing} (hout : (getMembers env text user).outcome db = .ok ms) :
    Shown u ms ↔ Belongs db g u := by
  have hms : ms = (db.guildMembers.filter fun m => m.guildId = g ∧ m.status = .active).map fun m =>
      ⟨m.id, m.nickname, m.status, m.joinedAt,
        (db.userById m.userId).map fun u => (u.toProfile.summary, u.status), db.rolesOf m⟩ := by
    have hwp : wp (getMembers env text user) (fun ms _ => ms =
        (db.guildMembers.filter fun m => m.guildId = g ∧ m.status = .active).map fun m =>
          ⟨m.id, m.nickname, m.status, m.joinedAt,
            (db.userById m.userId).map fun u => (u.toProfile.summary, u.status), db.rolesOf m⟩)
        (fun _ _ => True) db := by
      simp only [getMembers, wp_bind, wp_uuidOf, htext]
      refine ⟨fun id hid => ?_, nofun⟩
      obtain rfl := Option.some.inj hid
      refine getMemberOrThrow_wp.mono ?_ fun _ _ _ => trivial
      rintro m _ ⟨rfl, -⟩
      rfl
    exact hwp.of_returned hout
  subst hms
  constructor
  · rintro ⟨_, hx, hu⟩
    obtain ⟨m, hm, rfl⟩ := List.mem_map.mp hx
    obtain ⟨hmember, hp⟩ := List.mem_filter.mp hm
    obtain ⟨hg, hactive⟩ : m.guildId = g ∧ m.status = .active := by simpa using hp
    simp only [Option.map_map, Option.map_eq_some_iff] at hu
    obtain ⟨x, hx, rfl⟩ := hu
    exact ⟨m, hmember, hg, (userById_mem hx).2.symm, hactive⟩
  · rintro ⟨m, hmember, hg, rfl, hactive⟩
    obtain ⟨x, hx, hid⟩ := List.mem_map.mp (haccounts m hmember)
    obtain ⟨y, hy⟩ : ∃ y, db.userById m.userId = some y :=
      Option.isSome_iff_exists.mp (List.find?_isSome.mpr ⟨x, hx, decide_eq_true hid⟩)
    refine ⟨_, List.mem_map_of_mem (List.mem_filter.mpr ⟨hmember, by simp [hg, hactive]⟩), ?_⟩
    rw [hy]
    exact congrArg some (userById_mem hy).2

/-- What is done keeps the accounts of the members. -/
def AccountsKept (db db' : Database) : Prop := HaveAccounts db → HaveAccounts db'

instance : IsPreorder Database AccountsKept where
  refl _ := id
  trans _ _ _ h h' := h' ∘ h

/-- The routes of guilds and channels seat nobody but their caller. -/
theorem Change.haveAccounts (hc : Change env user db route db') (hroute : route.ofGuilds = true)
    (huser : user.id ∈ db.users.map (·.id)) (h : HaveAccounts db) : HaveAccounts db' := by
  intro m hm
  rw [hc.users_eq hroute]
  cases hc with
  | elsewhere _ hsame => exact h m (hsame.members ▸ hm)
  | createGuild _ _ =>
    rcases List.mem_append.mp hm with hm | hm
    · exact h m hm
    · rw [List.mem_singleton.mp hm]
      exact huser
  | deleteGuild _ _ =>
    obtain ⟨x, hx, rfl⟩ := List.mem_map.mp hm
    exact h x (Rows.mem_remove.mp hx).1
  | deleteUser => exact Bool.noConfusion hroute
  | join _ _ _ =>
    rcases List.mem_append.mp hm with hm | hm
    · exact h m hm
    · rw [List.mem_singleton.mp hm]
      exact huser
  | kick _ _ _ _ => exact h m (Rows.mem_remove.mp hm).1
  | ban _ _ _ _ | setRoles _ _ =>
    obtain ⟨x, hx, rfl⟩ := Rows.mem_modify.mp hm
    have := h x hx
    split <;> exact this
  | deleteRole _ _ =>
    obtain ⟨x, hx, rfl⟩ := List.mem_map.mp hm
    exact h x hx
  | _ => exact h m hm

theorem haveAccounts_deleteUser (h : HaveAccounts db) : HaveAccounts (db.deleteUser u) := by
  intro m hm
  obtain ⟨hm, hne⟩ := Rows.mem_remove.mp hm
  obtain ⟨x, hx, hid⟩ := List.mem_map.mp (h m hm)
  refine List.mem_map.mpr ⟨x, Rows.mem_remove.mpr ⟨hx, ?_⟩, hid⟩
  rw [hid]
  exact hne

theorem guarded_accountsKept (huser : user.id ∈ db.users.map (·.id)) (route : Route) :
    wp (guarded X env user route) (fun _ db' => AccountsKept db db')
      (fun _ db' => AccountsKept db db') db := by
  have ofGuilds : route.ofGuilds = true →
      wp (guarded X env user route) (fun _ db' => AccountsKept db db')
        (fun _ db' => AccountsKept db db') db := by
    intro hroute
    refine (guarded_changes route db).mono ?_ ?_
    · exact fun _ _ hc => hc.haveAccounts hroute huser
    · exact fun _ _ hc => hc.haveAccounts hroute huser
  have husers : ∀ db us, db.users.map (·.id) ⊆ us.map (·.id) →
      AccountsKept db { db with users := us } :=
    fun _ _ hids h m hm => hids (h m hm)
  cases route with
  | auth r => exact id
  | users r => exact keeps_usersController husers (fun _ _ _ _ => haveAccounts_deleteUser) db
  | channels r => exact ofGuilds rfl
  | messages r => exact keeps_messagesController (fun _ _ _ => id) (fun _ _ _ _ _ => id) db
  | events r => exact keeps_eventsController (fun _ _ => id) r db
  | admin r =>
    refine keeps_adminController (fun db us hsame => husers db us ?_) (fun _ _ => id)
      (fun _ _ _ _ _ => id) db
    rw [User.ids_eq hsame]
    exact List.Subset.refl _
  | guilds r => exact ofGuilds rfl

theorem Authenticated.mem_users {token : Option Jwt} (h : Authenticated env s token user) :
    user.id ∈ s.db.users.map (·.id) := by
  obtain ⟨j, -, -, hfound⟩ := h
  obtain ⟨x, hx, rfl⟩ := Option.map_eq_some_iff.mp hfound
  exact List.mem_map_of_mem (userById_mem hx).1

theorem Enrolled.accountsKept (h : Enrolled env db db') : AccountsKept db db' := by
  rcases h with rfl | ⟨u, -, -, rfl⟩
  · exact id
  · exact fun h m hm => Rows.subset_append (h m hm)

theorem step_haveAccounts {i : Env × Request} (h : HaveAccounts s.db) :
    HaveAccounts (serve X s i).2.db := by
  have hwp : wp (handle X i.1 i.2) (fun _ s' => AccountsKept s.db s'.db)
      (fun _ s' => AccountsKept s.db s'.db) s := by
    refine wp_handle ?_ (fun user huser _ => guarded_accountsKept huser.mem_users _) fun _ => id
    intro r _
    exact authController_enrolled.mono (fun _ _ h => h.accountsKept) fun _ _ h => h.accountsKept
  exact hwp.final h

theorem Reached.haveAccounts (hs : Reached X s) : HaveAccounts s.db :=
  Reachable.invariant (I := fun s => HaveAccounts s.db) (fun _ _ h _ => step_haveAccounts h)
    (fun _ hm => absurd hm List.not_mem_nil) hs

/-! ### Owners who are expelled -/

/-- A permitted caller targets the owner of the guild under a text that is not canonical. -/
def ownerMissed (env : Env) (user : Profile) (db : Database) : Route → Bool
  | .guilds (.kickMember guildId target) =>
    ownerTargeted env user db .kickMembers guildId target && !decide (Canonical target)
  | .guilds (.banMember guildId target) =>
    ownerTargeted env user db .banMembers guildId target && !decide (Canonical target)
  | _ => false

/-- The request expels the owner of a guild. -/
def expelsOwner (s : Server) (i : Env × Request) : Bool :=
  (callerOf i.1 s i.2.token).any fun user => ownerMissed i.1 user s.db i.2.route

/-- What a permitted `kickMember` or `banMember` does past the owner check. -/
theorem guardedExpel_wp {p : Permission} {e : Exception} {w : Uuid → Uuid → Database → Database}
    {target : String} :
    wp (guardedBy env user p text (expel e w target))
      (fun _ db' => ∃ g t, Uuid.parse text = some g ∧ Uuid.parse target = some t ∧
        (requirePermission env g user.id p).passes db = true ∧ NotOwnerText db g target ∧
        db' = w g t db)
      (fun _ db' => db' = db) db := by
  simp only [guardedBy, wp_bind, wp_uuidOf, implies_true, and_true]
  intro g hg
  refine requirePermission_wp.and_passes.mono ?_ fun _ _ h => h
  rintro _ _ ⟨hpermitted, rfl, -⟩
  simp only [expel, wp_bind, wp_query, wp_throwIf, wp_uuidOf, wp_write, implies_true, and_true]
  intro hown t ht
  exact ⟨g, t, hg, ht, hpermitted, by simpa [NotOwnerText] using hown, rfl⟩

/-- Takes an account out of a guild. -/
structure Expulsion (w : Uuid → Uuid → Database → Database) : Prop where
  guilds : ∀ g t db, (w g t db).guilds = db.guilds
  others : ∀ g t db {h u}, ¬(h = g ∧ u = t) → (w g t db).standing h u = db.standing h u
  gone : ∀ g t db, ¬Belongs (w g t db) g t

theorem not_belongs_of_activeSeats (h : db.activeSeats g u = []) : ¬Belongs db g u := by
  intro ⟨m, hm, hg, hu, hactive⟩
  have hseat : m ∈ db.activeSeats g u := List.mem_filter.mpr ⟨hm, by simp [hg, hu, hactive]⟩
  rw [h] at hseat
  exact nomatch hseat

theorem expulsion_kick : Expulsion fun g t db => withoutMember db g t where
  guilds _ _ _ := rfl
  others _ _ _ _ _ hne := standing_remove rfl fun m hg hu => by simpa [hg, hu] using hne
  gone _ _ _ := not_belongs_of_activeSeats activeSeats_withoutMember

theorem expulsion_ban : Expulsion fun g t db => withBan env db g t where
  guilds _ _ _ := rfl
  others _ _ _ _ _ hne :=
    standing_modify_of_not rfl (fun _ => ⟨rfl, rfl⟩) fun h => hne ⟨h.1.symm, h.2.symm⟩
  gone _ _ _ := not_belongs_of_activeSeats activeSeats_withBan

section Expelled

variable {p : Permission} {e : Exception} {w : Uuid → Uuid → Database → Database} {target : String}

/-- The owners stay seated when the check does not miss one. -/
theorem guardedExpel_seated (hw : Expulsion w) (hids : UniqueIds db) (h : OwnersSeated db)
    (hnot : (ownerTargeted env user db p text target && !decide (Canonical target)) = false) :
    OwnersSeated ((guardedBy env user p text (expel e w target)).final db) := by
  apply wp.final
  refine guardedExpel_wp.mono ?_ ?_
  · rintro _ _ ⟨g, t, hg, ht, hpermitted, hown, rfl⟩ guild hguild u howner
    rw [hw.guilds] at hguild
    have hne : ¬(guild.id = g ∧ u = t) := by
      rintro ⟨rfl, rfl⟩
      have howned : (db.guildById guild.id).bind (·.ownerId) = some u := by
        rw [guildById_of_mem hids hguild]
        exact howner
      have hcanonical : ¬Canonical target :=
        fun h => not_notOwnerText hids hguild howner h ht hown
      simp [ownerTargeted, hg, ht, hpermitted, howned, hcanonical] at hnot
    rw [hw.others g t db hne]
    exact h guild hguild u howner
  · rintro _ _ rfl
    exact h

/-- An owner that the check misses is no member any more. -/
theorem guardedExpel_unseats (hw : Expulsion w)
    (hmissed : (ownerTargeted env user db p text target && !decide (Canonical target)) = true) :
    ∃ guild ∈ ((guardedBy env user p text (expel e w target)).final db).guilds, ∃ u,
      guild.ownerId = some u ∧
        ¬Belongs ((guardedBy env user p text (expel e w target)).final db) guild.id u := by
  simp only [ownerTargeted, Option.any_eq_true, Bool.and_eq_true, decide_eq_true_eq,
    Bool.not_eq_true', decide_eq_false_iff_not] at hmissed
  obtain ⟨⟨g, hg, hpermitted, t, ht, howner⟩, hspelled⟩ := hmissed
  obtain ⟨guild, hguild, hguildOwner⟩ := Option.bind_eq_some_iff.mp howner
  obtain ⟨hmem, rfl⟩ := guildById_mem hguild
  have hother : target ≠ t.toText := by
    rintro rfl
    exact hspelled fun u hu => congrArg Uuid.toText (Option.some.inj (ht.symm.trans hu))
  have hpasses : (guardedBy env user p text (expel e w target)).passes db = true := by
    rw [passes, guardedBy_at hg hpermitted]
    exact (expel_owner howner ht).trans (decide_eq_true hother)
  obtain ⟨_, _, hok, g', t', hg', ht', -, -, rfl⟩ := guardedExpel_wp.ok_of_passes hpasses
  obtain rfl := Option.some.inj (hg.symm.trans hg')
  obtain rfl := Option.some.inj (ht.symm.trans ht')
  rw [show (guardedBy env user p text (expel e w target)).final db = w guild.id t db from by
    rw [final, hok]]
  rw [hw.guilds]
  exact ⟨guild, hmem, t, hguildOwner, hw.gone guild.id t db⟩

end Expelled

/-! ### Runs -/

/-- The queries agree on every guild and user, and show every owner in his guild. -/
structure Agree (db : Database) : Prop where
  findOne : ∀ env user {text g}, Uuid.parse text = some g →
    ((findOne env text user).passes db = true ↔ Listed db user g)
  getRoles : ∀ env user {text g}, Uuid.parse text = some g →
    ((getRoles env text user).passes db = true ↔ Listed db user g)
  getChannels : ∀ env user {text g}, Uuid.parse text = some g →
    ((getChannels env text user).passes db = true ↔ Listed db user g)
  getMembers : ∀ env user {text g}, Uuid.parse text = some g →
    ((getMembers env text user).passes db = true ↔ Listed db user g)
  shown : ∀ env viewer {text g ms}, Uuid.parse text = some g →
    (GuildsService.getMembers env text viewer).outcome db = .ok ms →
    ∀ user : Profile, Shown user.id ms ↔ Listed db user g
  owner : ∀ guild ∈ db.guilds, ∀ user : Profile, guild.ownerId = some user.id →
    Listed db user guild.id

theorem agree_iff (hs : Reached X s) : Agree s.db ↔
    ∀ guild ∈ s.db.guilds, ∀ u, guild.ownerId = some u → Belongs s.db guild.id u := by
  have hrefs := hs.consistent.refs
  constructor
  · intro hagree guild hguild u howner
    let user : Profile := ⟨u, "", none, none, "", "", none, none, 0, 0⟩
    have hlisted : Listed s.db user guild.id := hagree.owner guild hguild user howner
    exact (listed_iff hrefs).mp hlisted
  · intro howners
    constructor
    · intro env user text g htext
      rw [listed_iff hrefs, findOne_passes_iff hrefs htext]
    · intro env user text g htext
      rw [listed_iff hrefs, getRoles_passes_iff htext]
    · intro env user text g htext
      rw [listed_iff hrefs, getChannels_passes_iff hrefs htext]
    · intro env user text g htext
      rw [listed_iff hrefs, getMembers_passes_iff htext]
    · intro env viewer text g ms htext hout user
      rw [listed_iff hrefs, shown_iff hs.haveAccounts htext hout]
    · intro guild hguild user howner
      exact (listed_iff hrefs).mpr (howners guild hguild user.id howner)

theorem OwnersSeated.belongs {guild : Guild} (h : OwnersSeated db) (hguild : guild ∈ db.guilds)
    (howner : guild.ownerId = some u) : Belongs db guild.id u :=
  activeMember_of_standing (h guild hguild u howner)

theorem serve_guilds {token : Option Jwt} {r : GuildRoute}
    (hcaller : callerOf env s token = some user)
    (hvalid : (Route.guilds r).valid X = true) :
    (serve X s (env, ⟨token, .guilds r⟩)).2.db = (guildsController env user r).final s.db :=
  serve_db hcaller hvalid (fun _ h => nomatch h)

theorem step_ownersSeated {i : Env × Request} (hs : Reached X s) (hfresh : FreshStep s i)
    (hseated : OwnersSeated s.db) (hnot : expelsOwner s i = false) :
    OwnersSeated (serve X s i).2.db := by
  obtain ⟨env, token, route⟩ := i
  rcases serve_handled (X := X) s (env, ⟨token, route⟩) with hsame | ⟨user, huser, hc⟩
  · intro guild hguild u howner
    rw [hsame.guilds] at hguild
    rw [Database.standing, Database.seats, hsame.members]
    exact hseated guild hguild u howner
  · have hcaller := authenticated_iff.mp huser
    have hids := hs.consistent.ids
    have hmissed : ownerMissed env user s.db route = false := by
      simpa [expelsOwner, hcaller] using hnot
    by_cases hkick : ∃ text target, route = .guilds (.kickMember text target)
    · obtain ⟨text, target, rfl⟩ := hkick
      rw [serve_guilds hcaller rfl, guildsController, final_map]
      exact guardedExpel_seated expulsion_kick hids hseated hmissed
    by_cases hban : ∃ text target, route = .guilds (.banMember text target)
    · obtain ⟨text, target, rfl⟩ := hban
      rw [serve_guilds hcaller rfl, guildsController, final_map]
      exact guardedExpel_seated expulsion_ban hids hseated hmissed
    refine hseated.kept_of hs.consistent hfresh ?_ hc
    rintro text target (hroute | hroute)
    · exact absurd ⟨text, target, hroute⟩ hkick
    · exact absurd ⟨text, target, hroute⟩ hban

theorem step_unseats {i : Env × Request} (hexpels : expelsOwner s i = true) :
    ∃ guild ∈ (serve X s i).2.db.guilds, ∃ u, guild.ownerId = some u ∧
      ¬Belongs (serve X s i).2.db guild.id u := by
  obtain ⟨env, token, route⟩ := i
  simp only [expelsOwner, Option.any_eq_true] at hexpels
  obtain ⟨user, hcaller, hmissed⟩ := hexpels
  unfold ownerMissed at hmissed
  split at hmissed
  · rw [serve_guilds hcaller rfl, guildsController, final_map]
    exact guardedExpel_unseats expulsion_kick hmissed
  · rw [serve_guilds hcaller rfl, guildsController, final_map]
    exact guardedExpel_unseats expulsion_ban hmissed
  · cases hmissed

/-- In a run from an empty server the queries agree after every request exactly when no request
expels the owner of a guild. -/
theorem listings_agree_iff {is : List (Env × Request)}
    (hfresh : Along (serve X) FreshStep Server.empty is) :
    Along (serve X) (fun s i => Agree (serve X s i).2.db) Server.empty is ↔
      Along (serve X) (fun s i => expelsOwner s i = false) Server.empty is := by
  rw [← hfresh.congr_invariant (I := fun s => Reached X s ∧ OwnersSeated s.db)]
  · intro s i ⟨hs, hseated⟩ hi
    rw [agree_iff (hs.next hi)]
    constructor
    · intro hnot guild hguild u howner
      exact (step_ownersSeated hs hi hseated hnot).belongs hguild howner
    · intro howners
      rw [← Bool.not_eq_true]
      intro hexpels
      obtain ⟨guild, hguild, u, howner, hno⟩ := step_unseats (X := X) hexpels
      exact hno (howners guild hguild u howner)
  · exact fun s i ⟨hs, hseated⟩ hi hnot => ⟨hs.next hi, step_ownersSeated hs hi hseated hnot⟩
  · exact ⟨⟨[], trivial, rfl⟩, fun guild hguild => nomatch hguild⟩

instance : Decidable (Belongs db g u) :=
  decidable_of_iff (∃ m ∈ db.guildMembers, m.guildId = g ∧ m.userId = u ∧ m.status = .active)
    Iff.rfl

/-- Bob becomes an officer of Alice's guild and kicks her by the given text. -/
def officerKicks (target : String) : List (Env × Request) :=
  guildRun .absent ++
    [byBob 4 (.joinByInvite "code3"),
      byAlice 5 (.assignRole sampleGuild.toText bob.id.toText (sampleUuid 3 2).toText),
      byBob 6 (.kickMember sampleGuild.toText target)]

/-- The canonical text of her id is refused. -/
theorem officerKicks_canonical_agree :
    Along (serve sampleExternals) (fun s i => Agree (serve sampleExternals s i).2.db) Server.empty
      (officerKicks alice.id.toText) :=
  (listings_agree_iff (by decide +kernel)).mpr (by decide +kernel)

/-- In braces it is not, and she owns a guild that is not in her list. -/
theorem officerKicks_braced_disagree :
    Reached sampleExternals (run (serve sampleExternals) Server.empty
        (officerKicks alice.id.braced)) ∧
      ¬Agree (run (serve sampleExternals) Server.empty (officerKicks alice.id.braced)).db := by
  have hs : Reached sampleExternals (run (serve sampleExternals) Server.empty
      (officerKicks alice.id.braced)) := ⟨_, by decide +kernel, rfl⟩
  refine ⟨hs, fun hagree => ?_⟩
  have hguild : alicesGuild ∈
      (run (serve sampleExternals) Server.empty (officerKicks alice.id.braced)).db.guilds := by
    decide +kernel
  have hlisted := hagree.owner alicesGuild hguild alice rfl
  rw [listed_iff hs.consistent.refs] at hlisted
  revert hlisted
  decide +kernel

end VoxLink
