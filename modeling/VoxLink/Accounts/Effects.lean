import VoxLink.Backend.Http

/-! What the operations on accounts do: `UsersService`, `AdminService` and the guard. -/

namespace VoxLink

open ProofKit Prog

variable {X : Externals} {env : Env} {db : Database}

/-! ### Users -/

/-- What a check of a password reads of a row, and the key of the row. -/
def User.credentials (u : User) : Uuid × String × Option String := (u.id, u.username, u.password)

theorem User.ids_eq {us vs : List User}
    (h : us.map User.credentials = vs.map User.credentials) : us.map (·.id) = vs.map (·.id) := by
  have hids := congrArg (List.map Prod.fst) h
  rw [List.map_map, List.map_map] at hids
  exact hids

namespace UsersService

/-- No row but `self` has the name. -/
def Unused (db : Database) (self : Uuid) (username : String) : Prop :=
  ∀ x ∈ db.users, x.id ≠ self → x.username ≠ username

/-- No row but `self` has the address. -/
def Unlisted (db : Database) (self : Uuid) (email : Option String) : Prop :=
  ∀ x ∈ db.users, x.id ≠ self → email.isSome → x.email ≠ email

instance (db : Database) (self : Uuid) (username : String) : Decidable (Unused db self username) :=
  inferInstanceAs (Decidable (∀ _ ∈ _, _))

instance (db : Database) (self : Uuid) (email : Option String) :
    Decidable (Unlisted db self email) :=
  inferInstanceAs (Decidable (∀ _ ∈ _, _))

theorem uniqueColumns_wp {self : Uuid} {username : String} {email : Option String} :
    wp (uniqueColumns self username email)
      (fun _ db' => db' = db ∧ Unused db self username ∧ Unlisted db self email)
      (fun _ db' => db' = db ∧ ¬(Unused db self username ∧ Unlisted db self email)) db := by
  simp only [uniqueColumns, wp_bind, wp_query, wp_throwIf, true_and]
  refine ⟨fun hname => ⟨fun hemail => ⟨?_, ?_⟩, fun hemail h => ?_⟩, fun hname h => ?_⟩
  · exact fun x hx hne heq => absurd hname (by simpa using ⟨x, hx, hne, heq⟩)
  · exact fun x hx hne hsome heq => absurd hemail (by simpa using ⟨x, hx, hne, hsome, heq⟩)
  · obtain ⟨x, hx, hne, hsome, heq⟩ : ∃ x ∈ db.users, x.id ≠ self ∧ email.isSome ∧
      x.email = email := by
      simpa using hemail
    exact h.2 x hx hne hsome heq
  · obtain ⟨x, hx, hne, heq⟩ : ∃ x ∈ db.users, x.id ≠ self ∧ x.username = username := by
      simpa using hname
    exact h.1 x hx hne heq

/-- A new account can be stored with the data. -/
def Creatable (env : Env) (db : Database) (d : UserData) : Prop :=
  d.storable = true ∧ d.role ≠ .null ∧ d.status ≠ .null ∧
    Unused db (env.uuids 0) d.username ∧ Unlisted db (env.uuids 0) (d.email.nullable none)

instance (env : Env) (db : Database) (d : UserData) : Decidable (Creatable env db d) :=
  inferInstanceAs (Decidable (_ ∧ _))

/-- A new row with the data of a body. -/
structure Created (env : Env) (db : Database) (d : UserData) (u : User) : Prop where
  id : u.id = env.uuids 0
  role : d.role.required "member" = some u.role
  password : u.password = d.password.nullable none
  unused : Unused db u.id u.username
  creatable : Creatable env db d

theorem create_wp {d : UserData} :
    wp (create env d)
      (fun u db' => Created env db d u ∧ db' = { db with users := db.users ++ [u] })
      (fun _ db' => db' = db ∧ ¬Creatable env db d) db := by
  simp only [create, insertUser, wp_bind, wp_texts, wp_column]
  refine ⟨fun hstorable => ⟨fun role hrole => ⟨fun status hstatus => ?_, ?_⟩, ?_⟩, ?_⟩
  · refine uniqueColumns_wp.mono ?_ ?_
    · rintro _ _ ⟨rfl, hunused, hunlisted⟩
      have hcreatable : Creatable env _ d := ⟨hstorable, BodyField.ne_null_of_required hrole,
        BodyField.ne_null_of_required hstatus, hunused, hunlisted⟩
      exact ⟨⟨rfl, hrole, rfl, hunused, hcreatable⟩, rfl⟩
    · exact fun _ _ h => ⟨h.1, fun hc => h.2 hc.2.2.2⟩
  · exact fun hstatus => ⟨trivial, fun hc => hc.2.2.1 (BodyField.eq_null_of_required hstatus)⟩
  · exact fun hrole => ⟨trivial, fun hc => hc.2.1 (BodyField.eq_null_of_required hrole)⟩
  · exact fun hstorable => ⟨trivial, fun hc => by simp [hc.1] at hstorable⟩

theorem profile_wp {id : Uuid} :
    wp (profile id) (fun p db' => db' = db ∧ (db.userById id).map User.toProfile = some p)
      (fun _ db' => db' = db ∧ db.userById id = none) db := by
  simp only [profile, wp_bind, wp_query, wp_orThrow, true_and, imp_self, implies_true,
    Option.map_eq_none_iff, and_self]

/-- The row `id` takes the role of the body, when the body carries one. -/
def Updated (db : Database) (id : Uuid) (d : UpdateUserDto) (db' : Database) : Prop :=
  ∃ old role f, db.userById id = some old ∧ d.role.required old.role = some role ∧
    (∀ u, (f u).id = u.id ∧ (f u).role = role) ∧
    db' = { db with users := Rows.modify (·.id = id) f db.users }

/-- The row `id` takes a name that no other row has, and the password of the body, when the body
carries one. -/
def Renamed (db : Database) (id : Uuid) (d : UpdateUserDto) (db' : Database) : Prop :=
  ∃ username f, Unused db id username ∧
    (∀ u, (f u).id = u.id ∧ (f u).username = username ∧
      (f u).password = d.password.nullable u.password) ∧
    db'.users = Rows.modify (·.id = id) f db.users

/-- The row `old` can be stored with the fields of the body. -/
def Updatable (db : Database) (old : User) (d : UpdateUserDto) : Prop :=
  d.storable = true ∧ d.username ≠ .null ∧ d.role ≠ .null ∧
    Unused db old.id (d.username.get?.getD old.username) ∧
    Unlisted db old.id (d.email.nullable old.email)

instance (db : Database) (old : User) (d : UpdateUserDto) : Decidable (Updatable db old d) :=
  inferInstanceAs (Decidable (_ ∧ _))

theorem updateRow_wp {id : Uuid} {d : UpdateUserDto} :
    wp (updateRow env id d)
      (fun _ db' => db' = db ∧ db.userById id = none ∨
        Updated db id d db' ∧ Renamed db id d db' ∧ ∀ old, db.userById id = some old →
          Updatable db old d)
      (fun _ db' => db' = db ∧ ∀ old, db.userById id = some old → ¬Updatable db old d) db := by
  simp only [updateRow, wp_bind, wp_texts, wp_query]
  refine ⟨fun hstorable => ?_, fun hstorable => ⟨trivial, fun _ _ h => by simp [h.1] at hstorable⟩⟩
  cases hold : db.userById id with
  | none => exact .inl ⟨rfl, rfl⟩
  | some old =>
    simp only [Option.map_some, wp_bind, wp_column, Option.some_inj, forall_eq']
    refine ⟨fun username hname => ⟨fun role hrole => ?_, ?_⟩, ?_⟩
    · obtain rfl : old.id = id := (by simpa using List.find?_some hold)
      obtain rfl := BodyField.getD_of_required hname
      refine uniqueColumns_wp.mono ?_ fun _ _ h => ⟨h.1, fun hu => h.2 hu.2.2.2⟩
      rintro _ _ ⟨rfl, hunused, hunlisted⟩
      refine .inr ⟨⟨old, role, _, hold, hrole, ?_, rfl⟩, ⟨_, _, hunused, ?_, rfl⟩, hstorable,
        BodyField.ne_null_of_required hname, BodyField.ne_null_of_required hrole, hunused,
        hunlisted⟩
      · exact fun _ => ⟨rfl, rfl⟩
      · exact fun _ => ⟨rfl, rfl, rfl⟩
    · exact fun hrole => ⟨trivial, fun h => h.2.2.1 (BodyField.eq_null_of_required hrole)⟩
    · exact fun hname => ⟨trivial, fun h => h.2.1 (BodyField.eq_null_of_required hname)⟩

theorem Updated.found {id : Uuid} {d : UpdateUserDto} {db' : Database} (h : Updated db id d db') :
    db'.userById id ≠ none := by
  obtain ⟨old, role, f, hold, -, hf, rfl⟩ := h
  rw [Database.userById, Rows.find?_modify (fun x => (hf x).1) hold]
  exact Option.some_ne_none _

theorem update_wp {text : String} {d : UpdateUserDto} :
    wp (update env text d)
      (fun _ db' => ∃ id, Uuid.parse text = some id ∧ Updated db id d db' ∧ Renamed db id d db' ∧
        ∀ old, db.userById id = some old → Updatable db old d)
      (fun _ db' => db' = db ∧ ∀ id, Uuid.parse text = some id →
        ∀ old, db.userById id = some old → ¬Updatable db old d) db := by
  simp only [update, wp_bind, wp_uuidOf]
  refine ⟨fun id hid => ?_, fun hnone => ⟨trivial, fun id hid => ?_⟩⟩
  · simp only [hid, Option.some_inj, forall_eq', exists_eq_left']
    refine updateRow_wp.mono (fun _ db' h => ?_) fun _ _ h => h
    refine profile_wp.mono ?_ ?_
    · rintro p _ ⟨rfl, hfound⟩
      rcases h with ⟨rfl, hnone⟩ | h
      · simp [hnone] at hfound
      · exact h
    · rintro _ _ ⟨rfl, hmissing⟩
      rcases h with ⟨rfl, -⟩ | h
      · refine ⟨rfl, fun old hold => ?_⟩
        rw [hmissing] at hold
        cases hold
      · exact absurd hmissing h.1.found
  · rw [hnone] at hid
    cases hid

theorem remove_wp {text : String} :
    wp (remove text) (fun _ db' => ∃ id, Uuid.parse text = some id ∧ db' = db.deleteUser id)
      (fun _ db' => db' = db) db := by
  simp only [remove, wp_bind, wp_uuidOf, wp_query, wp_throwIf, wp_write, implies_true, and_true]
  intro id hid _ _
  exact ⟨id, hid, rfl⟩

theorem findById_wp {text : String} :
    wp (findById text) (fun _ db' => db' = db) (fun _ db' => db' = db) db := by
  simp only [findById, wp_bind, wp_uuidOf, implies_true, and_true]
  exact fun id _ => profile_wp.mono (fun _ _ h => h.1) fun _ _ h => h.1

end UsersService

/-- A request about users keeps every relation that allows updates of users under which their ids
stay and, if it deletes one, the deletion with its cascades. -/
theorem keeps_usersController {X : Externals} {R : Database → Database → Prop}
    [IsPreorder Database R]
    (husers : ∀ db us, db.users.map (·.id) ⊆ us.map (·.id) → R db { db with users := us })
    {r : UserRoute} (hremove : ∀ id, r = .remove id → ∀ db u, R db (db.deleteUser u)) :
    Keeps R (usersController X env r) := by
  have profile : ∀ id, Keeps R (UsersService.profile id) :=
    fun _ => .bind (.query _) fun _ => .orThrow _ _
  have unique : ∀ self username email, Keeps R (UsersService.uniqueColumns self username email) :=
    fun _ _ _ => .bind (.query _) fun _ => .bind (.throwIf _ _) fun _ =>
      .bind (.query _) fun _ => .throwIf _ _
  cases r with
  | create d =>
    refine .map (.bind (keeps_texts _) fun _ => .bind (keeps_column _ _) fun _ => ?_)
    refine .bind (keeps_column _ _) fun _ => .bind (.bind (unique _ _ _) fun _ => ?_)
      fun _ => .pure _
    exact .write fun _ => husers _ _ Rows.subset_append
  | findAll => exact .map (.query _)
  | search q => exact .map (.bind (keeps_texts _) fun _ => .query _)
  | findOne id => exact .map (.bind (keeps_uuidOf _) profile)
  | update id d =>
    refine .map (.bind (keeps_uuidOf _) fun key => .bind ?_ fun _ => profile key)
    apply Keeps.bind (keeps_texts _)
    intro _
    apply Keeps.bind (.query _)
    intro old
    cases old with
    | none => exact .pure _
    | some old =>
      refine .bind (keeps_column _ _) fun _ => .bind (keeps_column _ _) fun _ => ?_
      refine .bind (unique _ _ _) fun _ => .write fun _ => ?_
      exact husers _ _ (Rows.subset_modify fun _ _ => rfl)
  | remove id =>
    refine .map (.bind (keeps_uuidOf _) fun _ => .bind (.query _) fun _ => ?_)
    refine .bind (.throwIf _ _) fun _ => .bind (.query _) fun _ => .bind (.throwIf _ _) fun _ => ?_
    exact .write fun _ => hremove id rfl _ _

/-! ### Administration -/

namespace AdminService

variable {user : Profile}

/-- The rows with the id take the role. -/
def RoleSet (db : Database) (id : Uuid) (role : String) (db' : Database) : Prop :=
  ∃ f, (∀ u : User, (f u).id = u.id ∧ (f u).role = role) ∧
    db' = { db with users := Rows.modify (·.id = id) f db.users }

theorem banUser_wp {text : String} {reason : Option Json} :
    wp (banUser env text user reason)
      (fun _ db' => user.role = "admin" ∧ ∃ id, RoleSet db id "banned" db')
      (fun _ db' => db' = db) db := by
  simp only [banUser, requireAdmin, setRole, wp_bind, wp_throwIf, wp_uuidOf, wp_texts, wp_write,
    implies_true, and_true]
  intro hadmin id _ _
  refine ⟨by simpa using hadmin, id, _, ?_, rfl⟩
  exact fun _ => ⟨rfl, rfl⟩

theorem unbanUser_wp {text : String} :
    wp (unbanUser env text user)
      (fun _ db' => user.role = "admin" ∧ ∃ id, RoleSet db id "member" db')
      (fun _ db' => db' = db) db := by
  simp only [unbanUser, requireAdmin, setRole, wp_bind, wp_throwIf, wp_uuidOf, wp_write,
    implies_true, and_true]
  intro hadmin id _
  refine ⟨by simpa using hadmin, id, _, ?_, rfl⟩
  exact fun _ => ⟨rfl, rfl⟩

end AdminService

/-! ### The guard -/

/-- The request carries a valid token of the account `p`. -/
def Authenticated (env : Env) (s : Server) (token : Option Jwt) (p : Profile) : Prop :=
  ∃ j, token = some j ∧ AuthService.verify env s j = true ∧
    (s.db.userById j.sub).map User.toProfile = some p

/-- The account whose valid token a request carries. -/
def callerOf (env : Env) (s : Server) (token : Option Jwt) : Option Profile :=
  (token.filter (AuthService.verify env s)).bind fun j =>
    (s.db.userById j.sub).map User.toProfile

theorem authenticated_iff {s : Server} {token : Option Jwt} {p : Profile} :
    Authenticated env s token p ↔ callerOf env s token = some p := by
  simp only [Authenticated, callerOf, Option.bind_eq_some_iff, Option.filter_eq_some_iff, and_assoc]

theorem wp_onDb {α : Type} {m : Service α} {s : Server} {Q : α → Server → Prop}
    {E : Exception → Server → Prop} :
    wp (onDb m) Q E s ↔
      wp m (fun a db => Q a { s with db }) (fun e db => E e { s with db }) s.db :=
  wp_within

theorem final_onDb {α : Type} {m : Service α} {s : Server} :
    (onDb m).final s = { s with db := m.final s.db } :=
  final_within

theorem authenticate_wp {s : Server} {token : Option Jwt} :
    wp (AuthService.authenticate env token)
      (fun p s' => s' = s ∧ Authenticated env s token p) (fun _ s' => s' = s) s := by
  simp only [AuthService.authenticate, wp_bind, wp_query, wp_orThrow, wp_onDb, implies_true,
    and_true]
  intro j hj
  obtain ⟨rfl, hverify⟩ := Option.filter_eq_some_iff.mp hj
  refine UsersService.profile_wp.mono ?_ ?_
  · rintro p _ ⟨rfl, hp⟩
    exact ⟨rfl, j, rfl, hverify, hp⟩
  · rintro _ _ ⟨rfl, -⟩
    rfl

/-- The guard lets the caller of the request through. -/
theorem authenticate_at {s : Server} {token : Option Jwt} {p : Profile}
    (h : callerOf env s token = some p) : AuthService.authenticate env token s = .ok p s := by
  obtain ⟨j, hj, hp⟩ := Option.bind_eq_some_iff.mp h
  obtain ⟨u, hu, -⟩ := Option.map_eq_some_iff.mp hp
  have hpasses : (AuthService.authenticate env token).passes s = true := by
    simp [AuthService.authenticate, passes_iff, wp_orThrow, hj, UsersService.profile, wp_onDb, hu]
  obtain ⟨q, s', hq, rfl, hauth⟩ := authenticate_wp.ok_of_passes hpasses
  rw [hq, Option.some.inj ((authenticated_iff.mp hauth).symm.trans h)]

/-- A request of an authenticated caller is validated, and then is what its route does. -/
theorem handle_eq {s : Server} {token : Option Jwt} {route : Route} {p : Profile}
    (hp : callerOf env s token = some p) (hroute : ∀ r, route ≠ .auth r) :
    handle X env ⟨token, route⟩ s =
      (do
        validate X route
        onDb (guarded X env p route)) s := by
  have hguarded : (do
      let user ← AuthService.authenticate env token
      validate X route
      onDb (guarded X env user route)) s = _ := bind_at (authenticate_at hp)
  cases route with
  | auth r => exact absurd rfl (hroute r)
  | _ => exact hguarded

theorem handle_at {s : Server} {token : Option Jwt} {route : Route} {p : Profile}
    (hp : callerOf env s token = some p) (hvalid : route.valid X = true)
    (hroute : ∀ r, route ≠ .auth r) :
    handle X env ⟨token, route⟩ s = onDb (guarded X env p route) s := by
  rw [handle_eq hp hroute, validate, hvalid]
  rfl

/-- The tables after a valid request of an authenticated caller. -/
theorem serve_db {s : Server} {token : Option Jwt} {route : Route} {p : Profile}
    (hp : callerOf env s token = some p) (hvalid : route.valid X = true)
    (hroute : ∀ r, route ≠ .auth r) :
    (serve X s (env, ⟨token, route⟩)).2.db = (guarded X env p route).final s.db := by
  show ((handle X env ⟨token, route⟩).final s).db = _
  rw [Prog.final, handle_at hp hvalid hroute]
  show ((onDb (guarded X env p route)).final s).db = _
  rw [final_onDb]

/-- A request is refused by the guard or the validation, or its route runs for the authenticated
caller. -/
theorem wp_handle {s : Server} {req : Request} {Q : Body → Server → Prop}
    {E : Exception → Server → Prop}
    (hauth : ∀ r, req.route = .auth r → wp (authController X env req.token r) Q E s)
    (hguarded : ∀ user, Authenticated env s req.token user → req.route.valid X = true →
      wp (guarded X env user req.route) (fun b db => Q b { s with db })
        (fun e db => E e { s with db }) s.db)
    (hrefused : ∀ e, E e s) : wp (handle X env req) Q E s := by
  obtain ⟨token, route⟩ := req
  have guardedCase : wp (do
      let user ← AuthService.authenticate env token
      validate X route
      onDb (guarded X env user route)) Q E s := by
    refine (authenticate_wp.mono (fun _ _ h => h) fun _ _ h => h ▸ hrefused _).seq ?_
    intro user s' ⟨hs', huser⟩
    subst hs'
    simp only [validate, wp_bind, wp_throwIf, wp_onDb, Bool.not_eq_false']
    exact ⟨fun hvalid => hguarded user huser hvalid, fun _ => hrefused _⟩
  cases route with
  | auth r => exact hauth r rfl
  | _ => exact guardedCase

end VoxLink
