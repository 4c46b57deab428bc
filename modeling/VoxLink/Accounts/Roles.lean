import VoxLink.Guilds.Changes

/-! Who gives platform roles. `AccountChange` lists what a request can do to the users, and from it
follow the runs in which every role is given by an administrator. -/

namespace VoxLink

open ProofKit Prog

variable {X : Externals} {env : Env} {user : Profile} {db db' : Database} {route : Route}
  {s : Server}

/-! ### What happens to the users -/

/-- What the route, called by `user`, can make of the users. -/
inductive AccountChange (env : Env) (user : Profile) (db : Database) : Route → Database → Prop
  | same {route : Route} {db' : Database} : db'.users = db.users →
      AccountChange env user db route db'
  | create {d : CreateUserDto} {u : User} {db' : Database} : u.id = env.uuids 0 →
      d.role.required "member" = some u.role → UsersService.Creatable env db (.ofDto d) →
      db'.users = db.users ++ [u] → AccountChange env user db (.users (.create d)) db'
  | update {text : String} {d : UpdateUserDto} {id : Uuid} {db' : Database} :
      Uuid.parse text = some id → UsersService.Updated db id d db' →
      (∀ old, db.userById id = some old → UsersService.Updatable db old d) →
      AccountChange env user db (.users (.update text d)) db'
  | remove {route : Route} {id : Uuid} {db' : Database} :
      db'.users = Rows.remove (·.id = id) db.users → AccountChange env user db route db'
  | setRole {route : Route} {id : Uuid} {role : String} {db' : Database} : user.role = "admin" →
      AdminService.RoleSet db id role db' → AccountChange env user db route db'

/-- The users are the same. -/
def SameUsers (db db' : Database) : Prop := db'.users = db.users

instance : IsPreorder Database SameUsers where
  refl _ := rfl
  trans _ _ _ h h' := h'.trans h

theorem usersController_accounts (r : UserRoute) :
    wp (usersController X env r) (fun _ db' => AccountChange env user db (.users r) db')
      (fun _ db' => AccountChange env user db (.users r) db') db := by
  have unchanged : ∀ {db'}, db' = db → AccountChange env user db (.users r) db' :=
    fun h => .same (congrArg Database.users h)
  cases r with
  | create d =>
    refine wp_map.mpr (UsersService.create_wp.mono ?_ fun _ _ h => unchanged h.1)
    intro u db' ⟨hu, hdb⟩
    exact .create hu.id hu.role hu.creatable (congrArg Database.users hdb)
  | findAll => exact unchanged rfl
  | search q =>
    refine wp_map.mpr (wp_bind.mpr (wp_texts.mpr ?_))
    exact ⟨fun _ => unchanged rfl, fun _ => unchanged rfl⟩
  | findOne id =>
    exact wp_map.mpr (UsersService.findById_wp.mono (fun _ _ => unchanged) fun _ _ => unchanged)
  | update id d =>
    refine wp_map.mpr (UsersService.update_wp.mono ?_ fun _ _ h => unchanged h.1)
    rintro _ db' ⟨u, hu, h, -, hupdatable⟩
    exact .update hu h hupdatable
  | remove id =>
    refine wp_map.mpr (UsersService.remove_wp.mono ?_ fun _ _ => unchanged)
    intro _ db' ⟨u, _, hdb⟩
    exact .remove (congrArg Database.users hdb)

theorem adminController_accounts (r : AdminRoute) :
    wp (adminController env user r) (fun _ db' => AccountChange env user db (.admin r) db')
      (fun _ db' => AccountChange env user db (.admin r) db') db := by
  have unchanged : ∀ {db'}, db' = db → AccountChange env user db (.admin r) db' :=
    fun h => .same (congrArg Database.users h)
  have kept : ∀ {m : Service Body}, Keeps SameUsers m →
      wp m (fun _ db' => AccountChange env user db (.admin r) db')
        (fun _ db' => AccountChange env user db (.admin r) db') db :=
    fun h => (h db).mono (fun _ _ => .same) fun _ _ => .same
  have admin : Keeps SameUsers (AdminService.requireAdmin user) := .throwIf _ _
  cases r with
  | getStats => exact kept (.map (.bind admin fun _ => .query _))
  | banUser id reason =>
    refine wp_map.mpr (AdminService.banUser_wp.mono ?_ fun _ _ => unchanged)
    intro _ db' ⟨hadmin, u, hset⟩
    exact .setRole hadmin hset
  | unbanUser id =>
    refine wp_map.mpr (AdminService.unbanUser_wp.mono ?_ fun _ _ => unchanged)
    intro _ db' ⟨hadmin, u, hset⟩
    exact .setRole hadmin hset
  | deleteChannel id =>
    refine kept (.map (.bind admin fun _ => .bind (keeps_uuidOf _) fun key => ?_))
    exact .bind (.query _) fun _ => .bind (.throwIf _ _) fun _ => .write fun _ => rfl
  | deleteMessage id =>
    exact kept (.map (.bind admin fun _ => .bind (keeps_uuidOf _) fun _ => .write fun _ => rfl))
  | getUserActivity id =>
    exact kept (.map (.bind admin fun _ => .bind (keeps_uuidOf _) fun _ => .query _))

theorem guarded_accounts (route : Route) :
    wp (guarded X env user route) (fun _ db' => AccountChange env user db route db')
      (fun _ db' => AccountChange env user db route db') db := by
  have kept : ∀ {m : Service Body}, Keeps SameUsers m →
      wp m (fun _ db' => AccountChange env user db route db')
        (fun _ db' => AccountChange env user db route db') db :=
    fun h => (h db).mono (fun _ _ => .same) fun _ _ => .same
  have ofGuilds : route.ofGuilds = true →
      wp (guarded X env user route) (fun _ db' => AccountChange env user db route db')
        (fun _ db' => AccountChange env user db route db') db := by
    intro hroute
    refine (guarded_changes route db).mono ?_ ?_
    · exact fun _ _ h => .same (h.users_eq hroute)
    · exact fun _ _ h => .same (h.users_eq hroute)
  cases route with
  | auth r => exact .same rfl
  | users r => exact usersController_accounts r
  | channels r => exact ofGuilds rfl
  | messages r => exact kept (keeps_messagesController (fun _ _ _ => rfl) fun _ _ _ _ _ => rfl)
  | events r => exact kept (keeps_eventsController (fun _ _ => rfl) r)
  | admin r => exact adminController_accounts r
  | guilds r => exact ofGuilds rfl

theorem serve_accounts (s : Server) (i : Env × Request) :
    Enrolled i.1 s.db (serve X s i).2.db ∨
      i.2.route.valid X = true ∧ ∃ user, Authenticated i.1 s i.2.token user ∧
        AccountChange i.1 user s.db i.2.route (serve X s i).2.db := by
  have hwp : wp (handle X i.1 i.2)
      (fun _ s' => Enrolled i.1 s.db s'.db ∨
        i.2.route.valid X = true ∧ ∃ user, Authenticated i.1 s i.2.token user ∧
          AccountChange i.1 user s.db i.2.route s'.db)
      (fun _ s' => Enrolled i.1 s.db s'.db ∨
        i.2.route.valid X = true ∧ ∃ user, Authenticated i.1 s i.2.token user ∧
          AccountChange i.1 user s.db i.2.route s'.db) s := by
    refine wp_handle ?_ ?_ fun _ => .inl (.inl rfl)
    · intro r _
      exact authController_enrolled.mono (fun _ _ h => .inl h) fun _ _ h => .inl h
    · intro user huser hvalid
      refine (guarded_accounts i.2.route).mono ?_ ?_
      · exact fun _ _ h => .inr ⟨hvalid, user, huser, h⟩
      · exact fun _ _ h => .inr ⟨hvalid, user, huser, h⟩
  exact hwp.final

/-! ### Roles that are given -/

/-- The row gives an account of `db` another role, or is a new account that is no `member`. -/
def RoleGiven (db : Database) (u' : User) : Prop :=
  (∃ u ∈ db.users, u.id = u'.id ∧ u.role ≠ u'.role) ∨
    (u'.id ∉ db.users.map (·.id) ∧ u'.role ≠ "member")

instance (db : Database) (u' : User) : Decidable (RoleGiven db u') :=
  inferInstanceAs (Decidable (_ ∨ _))

/-- The caller is an administrator when the request arrives. -/
def AdminCalls (env : Env) (s : Server) (req : Request) : Prop :=
  ∃ p, Authenticated env s req.token p ∧ p.role = "admin"

instance (env : Env) (s : Server) (req : Request) : Decidable (AdminCalls env s req) :=
  decidable_of_iff ((callerOf env s req.token).any (·.role = "admin") = true) (by
    simp [AdminCalls, authenticated_iff, Option.any_eq_true])

/-- Every role that the request gives is given by an administrator. -/
def Mediated (X : Externals) (s : Server) (i : Env × Request) : Prop :=
  (∃ u' ∈ (serve X s i).2.db.users, RoleGiven s.db u') → AdminCalls i.1 s i.2

/-- The body of a request to `users` can be stored and gives a role: another than `member` to a new
account, or another than the stored one to an account. -/
def givesRole (env : Env) (db : Database) : Route → Bool
  | .users (.create d) =>
    decide (UsersService.Creatable env db (.ofDto d)) && d.role.get?.any (· ≠ "member")
  | .users (.update text d) => ((Uuid.parse text).bind db.userById).any fun old =>
    decide (UsersService.Updatable db old d) && d.role.get?.any (· ≠ old.role)
  | _ => false

/-- A caller who is no administrator sends a valid request to `users` that gives a role. -/
def GivesOwnRole (X : Externals) (s : Server) (i : Env × Request) : Prop :=
  (callerOf i.1 s i.2.token).any (·.role ≠ "admin") = true ∧ i.2.route.valid X = true ∧
    givesRole i.1 s.db i.2.route = true

instance (X : Externals) (s : Server) (i : Env × Request) : Decidable (GivesOwnRole X s i) :=
  inferInstanceAs (Decidable (_ ∧ _))

/-- Each user id names one row. -/
def UniqueUsers (db : Database) : Prop := (db.users.map (·.id)).Nodup

theorem required_eq_some {α : Type} {old a : α} {f : BodyField α}
    (h : f.required old = some a) : a = old ∨ f.get? = some a := by
  cases f with
  | absent => exact .inl (Option.some.inj h).symm
  | null => exact nomatch h
  | value b => exact .inr h

/-- A row of the table gives no role. -/
theorem not_roleGiven (hkeys : UniqueUsers db) {u : User} (hu : u ∈ db.users) :
    ¬RoleGiven db u := by
  intro h
  rcases h with ⟨x, hx, hid, hrole⟩ | ⟨hnew, _⟩
  · have hxu : x = u := Rows.eq_of_nodup hkeys hx hu hid
    exact hrole (congrArg (·.role) hxu)
  · exact hnew (List.mem_map.mpr ⟨u, hu, rfl⟩)

theorem Fresh.uuid_notMem_users (h : Fresh env db) : env.uuids 0 ∉ db.users.map (·.id) := by
  intro hmem
  exact h.2 0 (by decide) (by simp only [Database.keys, List.mem_append, hmem, true_or])

/-- A new account gives a role only when it is no `member`. -/
theorem roleGiven_new (hfresh : Fresh env db) {u : User} (hid : u.id = env.uuids 0)
    (h : RoleGiven db u) : u.role ≠ "member" := by
  rcases h with ⟨x, hx, hxu, _⟩ | ⟨_, hrole⟩
  · exact absurd (List.mem_map.mpr ⟨x, hx, hxu.trans hid⟩) hfresh.uuid_notMem_users
  · exact hrole

theorem userById_mem {id : Uuid} {u : User} (h : db.userById id = some u) :
    u ∈ db.users ∧ u.id = id :=
  ⟨List.mem_of_find?_eq_some h, by simpa using List.find?_some h⟩

/-- An update gives a role only when the body does. -/
theorem roleGiven_update (hkeys : UniqueUsers db) {id : Uuid} {d : UpdateUserDto}
    (hup : UsersService.Updated db id d db') {u' : User} (hu' : u' ∈ db'.users)
    (h : RoleGiven db u') :
    ∃ old, db.userById id = some old ∧ d.role.get?.any (· ≠ old.role) = true := by
  obtain ⟨old, role, f, hold, hrole, hf, rfl⟩ := hup
  obtain ⟨hmem, hid⟩ := userById_mem hold
  obtain ⟨a, ha, hfa⟩ := Rows.mem_modify.mp hu'
  by_cases hkey : a.id = id
  · -- the row that was updated is the one the body's role was compared with
    have haold : a = old := Rows.eq_of_nodup hkeys ha hmem (hkey.trans hid.symm)
    have hfa : f a = u' := by simpa [hkey] using hfa
    have hu'id : u'.id = a.id := hfa ▸ (hf a).1
    have hu'role : u'.role = role := hfa ▸ (hf a).2
    have hne : old.role ≠ role := by
      rcases h with ⟨x, hx, hxid, hxrole⟩ | ⟨hnew, _⟩
      · have hxa : x = a := Rows.eq_of_nodup hkeys hx ha (hxid.trans hu'id)
        rw [← haold, ← hxa, ← hu'role]
        exact hxrole
      · exact absurd (List.mem_map.mpr ⟨a, ha, hu'id.symm⟩) hnew
    rcases required_eq_some hrole with hsame | hget
    · exact absurd hsame.symm hne
    · exact ⟨old, hold, by simpa [hget] using hne.symm⟩
  · have hau' : a = u' := by simpa [hkey] using hfa
    exact absurd h (not_roleGiven hkeys (hau' ▸ ha))

theorem not_adminCalls_of_any {i : Env × Request}
    (h : (callerOf i.1 s i.2.token).any (·.role ≠ "admin") = true) : ¬AdminCalls i.1 s i.2 := by
  rintro ⟨p, hp, hadmin⟩
  simp [authenticated_iff.mp hp, hadmin] at h

theorem step_mediated {i : Env × Request} (hkeys : UniqueUsers s.db) (hfresh : FreshStep s i)
    (hself : ¬GivesOwnRole X s i) : Mediated X s i := by
  intro ⟨u', hu', hgiven⟩
  by_contra hadmin
  -- a row that was there before gives no role, so the step added or changed it
  rcases serve_accounts (X := X) s i with henrolled | ⟨hvalid, user, huser, hchange⟩
  · rcases henrolled with hdb | ⟨u, hid, hrole, hdb⟩
    · exact not_roleGiven hkeys (hdb ▸ hu') hgiven
    · rw [hdb] at hu'
      rcases List.mem_append.mp hu' with hu' | hu'
      · exact not_roleGiven hkeys hu' hgiven
      · obtain rfl := List.mem_singleton.mp hu'
        exact roleGiven_new hfresh hid hgiven hrole
  · have hcaller : (callerOf i.1 s i.2.token).any (·.role ≠ "admin") = true := by
      rw [authenticated_iff.mp huser, Option.any_some]
      exact decide_eq_true fun hrole => hadmin ⟨user, huser, hrole⟩
    have hbody : givesRole i.1 s.db i.2.route ≠ true := fun h => hself ⟨hcaller, hvalid, h⟩
    generalize i.2.route = route at hchange hbody
    cases hchange with
    | same hdb => exact not_roleGiven hkeys (hdb ▸ hu') hgiven
    | @create d u _ hid hrole hcreatable hdb =>
      rw [hdb] at hu'
      rcases List.mem_append.mp hu' with hu' | hu'
      · exact not_roleGiven hkeys hu' hgiven
      · obtain rfl := List.mem_singleton.mp hu'
        have hne := roleGiven_new hfresh hid hgiven
        rcases required_eq_some hrole with h | h
        · exact hne h
        · exact hbody (by simp [givesRole, hcreatable, h, hne])
    | @update text d id _ hid hup hupdatable =>
      obtain ⟨old, hold, hgives⟩ := roleGiven_update hkeys hup hu' hgiven
      refine hbody ?_
      simp only [givesRole, hid, Option.bind_some, hold, Option.any_some, hgives,
        hupdatable old hold, decide_true, Bool.and_self]
    | remove hdb =>
      rw [hdb] at hu'
      exact not_roleGiven hkeys (Rows.mem_remove.mp hu').1 hgiven
    | setRole hrole _ => exact hadmin ⟨user, huser, hrole⟩

/-- A new account gives a role when its body does. -/
theorem roleGiven_created (hfresh : Fresh env db) {d : UsersService.UserData} {u : User}
    (hu : UsersService.Created env db d u) (hrole : d.role.get?.any (· ≠ "member") = true) :
    RoleGiven db u := by
  obtain ⟨role, hget, hne⟩ := (Option.any_eq_true _ _).mp hrole
  obtain rfl := Option.some.inj (hu.role.symm.trans (BodyField.required_of_get? hget))
  refine .inr ⟨?_, of_decide_eq_true hne⟩
  rw [hu.id]
  exact hfresh.uuid_notMem_users

/-- An update gives a role when its body does. -/
theorem roleGiven_updated {id : Uuid} {d : UpdateUserDto} {old : User}
    (hup : UsersService.Updated db id d db') (hold : db.userById id = some old)
    (hrole : d.role.get?.any (· ≠ old.role) = true) : ∃ u' ∈ db'.users, RoleGiven db u' := by
  obtain ⟨old', role, f, hold', hrequired, hf, rfl⟩ := hup
  obtain rfl := Option.some.inj (hold.symm.trans hold')
  obtain ⟨hmem, hkey⟩ := userById_mem hold
  obtain ⟨role', hget, hne⟩ := (Option.any_eq_true _ _).mp hrole
  obtain rfl := Option.some.inj (hrequired.symm.trans (BodyField.required_of_get? hget))
  refine ⟨f old, Rows.mem_modify.mpr ⟨old, hmem, by simp [hkey]⟩, .inl ⟨old, hmem, ?_, ?_⟩⟩
  · exact (hf old).1.symm
  · rw [(hf old).2]
    exact (of_decide_eq_true hne).symm

/-- A request whose body gives a role, of a caller who may make it, gives it. -/
theorem guarded_roleGiven {user : Profile} {route : Route} (hfresh : Fresh env db)
    (h : givesRole env db route = true) :
    ∃ u' ∈ ((guarded X env user route).final db).users, RoleGiven db u' := by
  simp only [givesRole] at h
  split at h
  · rename_i d
    simp only [Bool.and_eq_true, decide_eq_true_eq] at h
    rw [guarded, usersController, final_map]
    refine wp.final (P := fun db' : Database => ∃ u' ∈ db'.users, RoleGiven db u') ?_
    refine UsersService.create_wp.mono ?_ fun _ _ hrefused => absurd h.1 hrefused.2
    rintro u _ ⟨hu, rfl⟩
    exact ⟨u, List.mem_append_right _ (List.mem_singleton_self u),
      roleGiven_created hfresh hu h.2⟩
  · rename_i text d
    obtain ⟨old, hold, h⟩ := (Option.any_eq_true _ _).mp h
    obtain ⟨id, hid, hold⟩ := Option.bind_eq_some_iff.mp hold
    simp only [Bool.and_eq_true, decide_eq_true_eq] at h
    rw [guarded, usersController, final_map]
    refine wp.final (P := fun db' : Database => ∃ u' ∈ db'.users, RoleGiven db u') ?_
    refine UsersService.update_wp.mono ?_ fun _ _ hrefused =>
      absurd h.1 (hrefused.2 id hid old hold)
    rintro _ _ ⟨id', hid', hup, -⟩
    obtain rfl := Option.some.inj (hid.symm.trans hid')
    exact roleGiven_updated hup hold h.2
  · exact absurd h Bool.false_ne_true

/-- A request of a caller who is no administrator that gives a role is served. -/
theorem step_not_mediated {i : Env × Request} (hfresh : FreshStep s i)
    (hself : GivesOwnRole X s i) : ¬Mediated X s i := by
  obtain ⟨env, token, route⟩ := i
  obtain ⟨hcaller, hvalid, hgives⟩ := hself
  refine fun hmediated => not_adminCalls_of_any hcaller (hmediated ?_)
  obtain ⟨user, huser, -⟩ := (Option.any_eq_true _ _).mp hcaller
  rw [show (serve X s (env, ⟨token, route⟩)).2.db = (guarded X env user route).final s.db from
    serve_db huser hvalid (by rintro r rfl; exact Bool.false_ne_true hgives)]
  exact guarded_roleGiven hfresh hgives

theorem step_uniqueUsers {i : Env × Request} (hkeys : UniqueUsers s.db) (hfresh : FreshStep s i) :
    UniqueUsers (serve X s i).2.db := by
  have added : ∀ {u : User}, u.id = i.1.uuids 0 →
      ((s.db.users ++ [u]).map (·.id)).Nodup := by
    intro u hid
    refine Rows.nodup_append_of_fresh hkeys (List.nodup_singleton _) ?_
    intro x hx
    obtain rfl := List.mem_singleton.mp hx
    rw [hid]
    exact Fresh.uuid_notMem_users hfresh
  have modified : ∀ {id : Uuid} {f : User → User}, (∀ u, (f u).id = u.id) →
      ((Rows.modify (·.id = id) f s.db.users).map (·.id)).Nodup := by
    intro id f hf
    exact Rows.nodup_modify hkeys fun u _ => hf u
  unfold UniqueUsers
  rcases serve_accounts (X := X) s i with henrolled | ⟨_, user, _, hchange⟩
  · rcases henrolled with hdb | ⟨u, hid, _, hdb⟩
    · rw [hdb]
      exact hkeys
    · rw [hdb]
      exact added hid
  · generalize i.2.route = route at hchange
    cases hchange with
    | same hdb =>
      rw [hdb]
      exact hkeys
    | create hid _ _ hdb =>
      rw [hdb]
      exact added hid
    | update _ hup _ =>
      obtain ⟨_, _, f, _, _, hf, hdb⟩ := hup
      rw [hdb]
      exact modified fun u => (hf u).1
    | remove hdb =>
      rw [hdb]
      exact Rows.nodup_remove hkeys
    | setRole _ hset =>
      obtain ⟨f, hf, hdb⟩ := hset
      rw [hdb]
      exact modified fun u => (hf u).1

/-! ### Runs -/

def Database.holders (db : Database) (role : String) : Set Uuid :=
  {id | ∃ u ∈ db.users, u.id = id ∧ u.role = role}

/-- No account becomes an administrator, and a banned account that is still there is banned. -/
def NoEscalation (db db' : Database) : Prop :=
  db'.holders "admin" ⊆ db.holders "admin" ∧
    ∀ id ∈ db.holders "banned", id ∈ db'.users.map (·.id) → id ∈ db'.holders "banned"

theorem noEscalation_of_not_roleGiven (h : ∀ u' ∈ db'.users, ¬RoleGiven db u') :
    NoEscalation db db' := by
  constructor
  · intro id ⟨u', hu', hid, hrole⟩
    have hold : u'.id ∈ db.users.map (·.id) := by
      by_contra hnew
      exact h u' hu' (.inr ⟨hnew, by simp [hrole]⟩)
    obtain ⟨u, hu, huid⟩ := List.mem_map.mp hold
    refine ⟨u, hu, huid.trans hid, ?_⟩
    by_contra hne
    exact h u' hu' (.inl ⟨u, hu, huid, fun heq => hne (heq.trans hrole)⟩)
  · intro id ⟨u, hu, hid, hrole⟩ hmem
    obtain ⟨u', hu', hid'⟩ := List.mem_map.mp hmem
    refine ⟨u', hu', hid', ?_⟩
    by_contra hne
    exact h u' hu' (.inl ⟨u, hu, hid.trans hid'.symm, fun heq => hne (heq.symm.trans hrole)⟩)

/-- Every role is given by an administrator exactly when no other caller gives one by a request to
`users`; and while no administrator calls in such a run, nobody becomes one and nobody banned comes
back. -/
theorem run_mediated {is : List (Env × Request)} (hkeys : UniqueUsers s.db)
    (hfresh : Along (serve X) FreshStep s is) :
    (Along (serve X) (Mediated X) s is ↔ Along (serve X) (fun s i => ¬GivesOwnRole X s i) s is) ∧
      (Along (serve X) (fun s i => ¬GivesOwnRole X s i) s is →
        Along (serve X) (fun s i => ¬AdminCalls i.1 s i.2) s is →
        Along (serve X) (fun s i => NoEscalation s.db (serve X s i).2.db) s is ∧
          (run (serve X) s is).db.holders "admin" ⊆ s.db.holders "admin") := by
  have hiff : Along (serve X) (Mediated X) s is ↔
      Along (serve X) (fun s i => ¬GivesOwnRole X s i) s is := by
    refine hfresh.congr_invariant (I := fun s => UniqueUsers s.db) ?_ ?_ hkeys
    · exact fun s i hkeys h =>
        ⟨fun hmed hself => step_not_mediated h hself hmed, step_mediated hkeys h⟩
    · exact fun s i hkeys h _ => step_uniqueUsers hkeys h
  refine ⟨hiff, fun hself hnone => ?_⟩
  have hmediated := hiff.mpr hself
  have hsteps : Along (serve X) (fun s i => NoEscalation s.db (serve X s i).2.db) s is := by
    refine (along_and.mpr ⟨hmediated, hnone⟩).mono ?_
    intro s i ⟨hmed, hno⟩
    exact noEscalation_of_not_roleGiven fun u' hu' hgiven => hno (hmed ⟨u', hu', hgiven⟩)
  refine ⟨hsteps, ?_⟩
  refine hsteps.invariant (I := fun t => t.db.holders "admin" ⊆ s.db.holders "admin") ?_ subset_rfl
  exact fun t i ht hstep => hstep.1.trans ht

/-- An administrator, the one account of a new installation. -/
def rootUser : User :=
  { id := sampleUuid 0 0, username := "root", email := none, avatar := none, role := "admin"
    status := "offline", lastSeen := none, metadata := none, createdAt := 0, updatedAt := 0
    password := none }

def installed : Server := ⟨{ Database.empty with users := [rootUser] }, [], [sampleToken 0 "root"]⟩

/-- Bob registers, the administrator bans him, and he renames himself. -/
def banRun : List (Env × Request) :=
  [(sampleEnv 1, ⟨none, .auth (.register ⟨"bob", "bob@mail", "secret"⟩)⟩),
    (sampleEnv 2, ⟨some (sampleToken 0 "root"),
      .admin (.banUser (sampleUuid 1 0).toText none)⟩),
    (sampleEnv 3, ⟨some (sampleToken 1 "bob"), .users (.update (sampleUuid 1 0).toText
      ⟨.value "rob", .absent, .absent, .absent, .absent⟩)⟩)]

theorem banRun_mediated :
    Along (serve sampleExternals) (Mediated sampleExternals) installed banRun := by
  have hkeys : UniqueUsers installed.db := List.nodup_singleton _
  exact (run_mediated hkeys (by decide +kernel)).1.mpr (by decide +kernel)

/-- Bob registers and makes himself an administrator. -/
def ownRoleRun : List (Env × Request) :=
  [(sampleEnv 1, ⟨none, .auth (.register ⟨"bob", "bob@mail", "secret"⟩)⟩),
    (sampleEnv 2, ⟨some (sampleToken 1 "bob"), .users (.update (sampleUuid 1 0).toText
      ⟨.absent, .absent, .absent, .value "admin", .absent⟩)⟩)]

theorem ownRoleRun_not_mediated :
    Along (serve sampleExternals) FreshStep Server.empty ownRoleRun ∧
      ¬Along (serve sampleExternals) (Mediated sampleExternals) Server.empty ownRoleRun := by
  refine ⟨by decide +kernel, fun h => ?_⟩
  have hstep := h.2.1 (by decide +kernel)
  exact absurd hstep (by decide +kernel)

end VoxLink
