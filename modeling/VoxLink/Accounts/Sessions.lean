import VoxLink.Accounts.Effects

/-! Who is signed in, and on what grounds. `Signed` lists the ways in which a request comes by an
access token. -/

namespace VoxLink

open ProofKit Prog

variable {X : Externals} {env : Env} {s : Server}

/-- The tables as they were, or with a new account of role `member`. -/
def Enrolled (env : Env) (db db' : Database) : Prop :=
  db' = db ∨ ∃ u : User, u.id = env.uuids 0 ∧ u.role = "member" ∧
    db' = { db with users := db.users ++ [u] }

/-- The invite under a token still has a use left. -/
def InviteOpen (env : Env) (s : Server) (token : String) : Prop :=
  ∃ d : InviteData, s.redis.get env.now (AuthService.inviteKey token) = some (.invite d) ∧
    (d.maxUses = 0 ∨ (d.uses : ℚ) < d.maxUses)

/-- The email under a magic token is that of the account `u`. -/
def MagicFor (env : Env) (s : Server) (token : String) (u : Uuid) : Prop :=
  ∃ email, s.redis.get env.now (AuthService.magicKey token) = some (.text email) ∧
    ∃ x ∈ s.db.users, x.id = u ∧ x.email = some email

/-- The routes of `auth` behind `JwtAuthGuard`. -/
def AuthRoute.guarded : AuthRoute → Bool
  | .createInvite _ | .getProfile | .refreshToken => true
  | _ => false

/-- A login that presents no invite token. -/
def WithoutInvite (d : LoginDto) : Prop := d.inviteToken.truthy = none

/-- The ways in which a request to `auth` comes by a token of the account `u`. -/
inductive Signed (X : Externals) (env : Env) (s : Server) (token : Option Jwt) (s' : Server)
    (u : Uuid) : AuthRoute → Prop
  | created {r : AuthRoute} (x : User) : x.id = u → u = env.uuids 0 → x ∈ s'.db.users →
      Signed X env s token s' u r
  | magic {t : String} : MagicFor env s t u → Signed X env s token s' u (.verifyMagicLink t)
  | invite {d : LoginDto} {t : String} : d.inviteToken.truthy = some t → InviteOpen env s t →
      (∃ p, AuthService.loginUser d s.db = some p ∧ p.id = u) → Signed X env s token s' u (.login d)
  | emailOnly {d : LoginDto} : d.valid X = true → WithoutInvite d → d.email.truthy.isSome = true →
      (∃ p, AuthService.loginUser d s.db = some p ∧ p.id = u) → Signed X env s token s' u (.login d)
  | bearer {r : AuthRoute} {p : Profile} : r.guarded = true → Authenticated env s token p →
      p.id = u → Signed X env s token s' u r

namespace AuthService

theorem signUser_wp {p : Profile} :
    wp (signUser X env p) (fun session s' => session.accessToken.sub = p.id ∧ s'.db = s.db)
      (fun _ _ => False) s :=
  ⟨rfl, rfl⟩

theorem setex_wp {site : Nat} {key : String} {ttl : Int} {v : RedisValue} :
    wp (setex env site key ttl v) (fun _ s' => s'.db = s.db) (fun _ _ => False) s := by
  unfold setex
  split
  · rfl
  · rfl

theorem redisGet_wp {site : Nat} {key : String} :
    wp (redisGet env site key) (fun v s' => s' = s ∧ v = s.redis.get env.now key)
      (fun _ s' => s' = s) s := by
  simp only [redisGet, wp_bind, wp_throwIf, wp_query, implies_true, and_self]

theorem enrol_wp {d : UsersService.UserData} :
    wp (do let user ← onDb (UsersService.create env d); signUser X env user.toProfile)
      (fun session s' => ∃ u : User, UsersService.Created env s.db d u ∧
        session.accessToken.sub = u.id ∧ s'.db = { s.db with users := s.db.users ++ [u] })
      (fun _ s' => s'.db = s.db) s := by
  rw [wp_bind, wp_onDb]
  refine UsersService.create_wp.mono ?_ ?_
  · rintro u _ ⟨hu, rfl⟩
    refine signUser_wp.mono ?_ nofun
    rintro session s' ⟨hsub, hdb⟩
    exact ⟨u, hu, hsub, hdb⟩
  · rintro _ _ ⟨rfl, -⟩
    rfl

/-- What a registration stores. -/
def registered (X : Externals) (env : Env) (d : RegisterDto) : UsersService.UserData :=
  { username := d.username, email := .value d.email
    password := .value (X.bcryptHash env.salt d.password), role := .value "member"
    avatar := .absent, status := .value "online" }

/-- What a sign-in by email stores when there is no account. -/
def visitor (env : Env) (email : String) : UsersService.UserData :=
  { username := "user_" ++ toString env.now, email := .value email, password := .absent
    role := .value "member", avatar := .absent, status := .value "online" }

theorem register_wp {d : RegisterDto} :
    wp (register X env d)
      (fun session s' => ∃ u : User, UsersService.Created env s.db (registered X env d) u ∧
        session.accessToken.sub = u.id ∧ s'.db = { s.db with users := s.db.users ++ [u] })
      (fun _ s' => s'.db = s.db) s := by
  simp only [register]
  rw [wp_bind, wp_texts]
  refine ⟨fun _ => ?_, fun _ => rfl⟩
  rw [wp_bind, wp_query, wp_bind, wp_throwIf]
  refine ⟨fun _ => ?_, fun _ => rfl⟩
  rw [wp_bind, wp_query, wp_bind, wp_throwIf]
  exact ⟨fun _ => enrol_wp, fun _ => rfl⟩

theorem createInvite_wp {d : CreateInviteDto} :
    wp (createInvite X env d) (fun _ s' => s'.db = s.db) (fun _ s' => s'.db = s.db) s := by
  simp only [createInvite, wp_bind]
  refine setex_wp.mono ?_ (fun _ _ => False.elim)
  intro stored s' hdb
  rw [wp_throwIf]
  exact ⟨fun _ => hdb, fun _ => hdb⟩

theorem sendMagicLink_wp {email : String} :
    wp (sendMagicLink env email) (fun _ s' => s'.db = s.db) (fun _ s' => s'.db = s.db) s := by
  simp only [sendMagicLink, wp_bind]
  refine setex_wp.mono ?_ (fun _ _ => False.elim)
  intro stored s' hdb
  simp only [wp_throwIf, wp_pure]
  exact ⟨fun _ => ⟨fun _ => hdb, fun _ => hdb⟩, fun _ => hdb⟩

theorem findByEmail_mem {email : String} {db : Database} {p : Profile}
    (h : findByEmail email db = some p) : ∃ x ∈ db.users, x.id = p.id ∧ x.email = some email := by
  obtain ⟨x, hx, rfl⟩ := Option.map_eq_some_iff.mp h
  exact ⟨x, List.mem_of_find?_eq_some hx, rfl, by simpa using List.find?_some hx⟩

theorem magicEmail_eq_some {stored : Option RedisValue} {email : String}
    (h : magicEmail stored = some email) : stored = some (.text email) := by
  unfold magicEmail at h
  split at h
  · split at h
    · exact nomatch h
    · rw [Option.some.inj h]
  · exact nomatch h

/-- A sign-in by email is a sign-in of the account with that email, or creates it. -/
theorem signInByEmail_wp {email : String} :
    wp (signInByEmail X env email)
      (fun session s' =>
        (s'.db = s.db ∧ ∃ x ∈ s.db.users, x.id = session.accessToken.sub ∧ x.email = some email) ∨
        ∃ u : User, UsersService.Created env s.db (visitor env email) u ∧
          session.accessToken.sub = u.id ∧ s'.db = { s.db with users := s.db.users ++ [u] })
      (fun _ s' => s'.db = s.db) s := by
  simp only [signInByEmail]
  rw [wp_bind, wp_query]
  split
  · rename_i p hp
    refine signUser_wp.mono ?_ nofun
    rintro session s' ⟨hsub, hdb⟩
    exact .inl ⟨hdb, hsub ▸ findByEmail_mem hp⟩
  · exact enrol_wp.mono (fun _ _ h => .inr h) fun _ _ h => h

/-- What a request to `auth` that succeeds makes of the tables. -/
inductive Enrolment (X : Externals) (env : Env) (db : Database) : AuthRoute → Database → Prop
  | registered {d : RegisterDto} {u : User} : UsersService.Created env db (registered X env d) u →
      Enrolment X env db (.register d) { db with users := db.users ++ [u] }
  | visited {t email : String} {u : User} : UsersService.Created env db (visitor env email) u →
      Enrolment X env db (.verifyMagicLink t) { db with users := db.users ++ [u] }
  | same {r : AuthRoute} : (∀ d, r ≠ .register d) → Enrolment X env db r db

theorem Enrolment.enrolled {db db' : Database} {r : AuthRoute} (h : Enrolment X env db r db') :
    Enrolled env db db' := by
  cases h with
  | registered hu => exact .inr ⟨_, hu.id, (Option.some.inj hu.role).symm, rfl⟩
  | visited hu => exact .inr ⟨_, hu.id, (Option.some.inj hu.role).symm, rfl⟩
  | same => exact .inl rfl

theorem verifyMagicLink_wp (token : Option Jwt) {t : String} :
    wp (verifyMagicLink X env t)
      (fun session s' => Enrolment X env s.db (.verifyMagicLink t) s'.db ∧
        Signed X env s token s' session.accessToken.sub (.verifyMagicLink t))
      (fun _ s' => s'.db = s.db) s := by
  simp only [verifyMagicLink]
  refine (redisGet_wp.mono (fun _ _ h => h) fun _ _ h => congrArg Server.db h).seq ?_
  rintro stored s ⟨rfl, hstored⟩
  rw [wp_bind, wp_orThrow]
  refine ⟨fun email hemail => ?_, fun _ => rfl⟩
  have hmagic := hstored.symm.trans (magicEmail_eq_some hemail)
  have signIn : ∀ s₁ : Server, s₁.db = s.db → wp (signInByEmail X env email)
      (fun session s' => Enrolment X env s.db (.verifyMagicLink t) s'.db ∧
        Signed X env s token s' session.accessToken.sub (.verifyMagicLink t))
      (fun _ s' => s'.db = s.db) s₁ := by
    intro s₁ hs₁
    refine signInByEmail_wp.mono ?_ fun _ _ h => h.trans hs₁
    rw [hs₁]
    rintro session s' (⟨hdb, hfound⟩ | ⟨x, hx, hsub, hdb⟩)
    · rw [hdb]
      exact ⟨.same nofun, .magic ⟨email, hmagic, hfound⟩⟩
    · refine ⟨hdb ▸ .visited hx, .created x hsub.symm (hsub.trans hx.id) ?_⟩
      rw [hdb]
      exact List.mem_append_right _ (List.mem_singleton.mpr rfl)
  split
  · exact signIn s rfl
  · exact signIn _ rfl

theorem useInvite_wp {t : String} :
    wp (useInvite env t) (fun _ s' => s'.db = s.db ∧ InviteOpen env s t)
      (fun _ s' => s'.db = s.db) s := by
  simp only [useInvite]
  refine (redisGet_wp.mono (fun _ _ h => h) fun _ _ h => congrArg Server.db h).seq ?_
  rintro stored s ⟨rfl, hstored⟩
  split
  · rfl
  · rename_i invite
    rw [wp_bind, wp_throwIf]
    refine ⟨fun huses => ?_, fun _ => rfl⟩
    have hopen : InviteOpen env s t := by
      refine ⟨invite, hstored.symm, ?_⟩
      by_cases h : invite.maxUses = 0
      · exact .inl h
      · exact .inr (by simpa [h] using huses)
    split
    · exact ⟨rfl, hopen⟩
    · rw [wp_bind, wp_query, wp_bind]
      exact setex_wp.mono (fun _ _ h => ⟨h, hopen⟩) nofun
  · rfl

theorem login_wp (token : Option Jwt) {d : LoginDto} (hvalid : d.valid X = true) :
    wp (login X env d)
      (fun session s' => s'.db = s.db ∧ Signed X env s token s' session.accessToken.sub (.login d))
      (fun _ s' => s'.db = s.db) s := by
  simp only [login]
  rw [wp_bind, wp_throwIf]
  refine ⟨fun hflow => ?_, fun _ => rfl⟩
  -- what follows the check of the invite token, from a state with the same tables
  have signIn : ∀ s₁ : Server, s₁.db = s.db →
      (∀ s' u, (∃ p, loginUser d s.db = some p ∧ p.id = u) → Signed X env s token s' u (.login d)) →
      wp (do let found ← query fun s => loginUser d s.db
             let user ← orThrow (.unauthorized "User not found") found
             signUser X env user)
        (fun session s' => s'.db = s.db ∧
          Signed X env s token s' session.accessToken.sub (.login d))
        (fun _ s' => s'.db = s.db) s₁ := by
    intro s₁ hs₁ hsigned
    rw [wp_bind, wp_query, wp_bind, wp_orThrow, hs₁]
    refine ⟨fun p hp => signUser_wp.mono ?_ nofun, fun _ => rfl⟩
    rintro session s' ⟨hsub, hdb⟩
    exact ⟨hdb.trans hs₁, hsigned _ _ ⟨p, hp, hsub.symm⟩⟩
  split
  · rename_i t ht
    refine useInvite_wp.seq ?_
    rintro _ s₁ ⟨hdb, hopen⟩
    exact signIn s₁ hdb fun _ _ h => .invite ht hopen h
  · rename_i ht
    have hemail : d.email.truthy.isSome = true := by simpa [ht] using hflow
    exact signIn s rfl fun _ _ h => .emailOnly hvalid ht hemail h

end AuthService

/-- Every request to `auth` that succeeds makes an `Enrolment` of the tables and signs only in the
ways of `Signed`; one that fails keeps the tables. -/
theorem authController_wp {token : Option Jwt} {r : AuthRoute} :
    wp (authController X env token r)
      (fun b s' => AuthService.Enrolment X env s.db r s'.db ∧
        ∀ session, b = .session session → Signed X env s token s' session.accessToken.sub r)
      (fun _ s' => s'.db = s.db) s := by
  have refused : ∀ {s' : Server}, s' = s → s'.db = s.db := fun h => h ▸ rfl
  cases r with
  | register d =>
    simp only [authController, validate, wp_bind, wp_map, wp_throwIf]
    refine ⟨fun _ => AuthService.register_wp.mono ?_ fun _ _ h => h, fun _ => trivial⟩
    rintro session s' ⟨u, hu, hsub, hdb⟩
    refine ⟨hdb ▸ .registered hu, ?_⟩
    rintro _ ⟨⟩
    refine .created u hsub.symm (hsub.trans hu.id) ?_
    rw [hdb]
    exact List.mem_append_right _ (List.mem_singleton.mpr rfl)
  | createInvite d =>
    simp only [authController, validate, wp_bind, wp_map]
    refine authenticate_wp.mono ?_ fun _ _ => refused
    rintro p s ⟨rfl, -⟩
    rw [wp_throwIf]
    refine ⟨fun _ => AuthService.createInvite_wp.mono ?_ fun _ _ h => h, fun _ => rfl⟩
    exact fun _ _ h => ⟨h ▸ .same (fun _ h => by cases h), fun _ hb => Body.noConfusion hb⟩
  | sendMagicLink d =>
    simp only [authController, validate, wp_bind, wp_map, wp_throwIf]
    refine ⟨fun _ => AuthService.sendMagicLink_wp.mono ?_ fun _ _ h => h, fun _ => trivial⟩
    exact fun _ _ h => ⟨h ▸ .same (fun _ h => by cases h), fun _ hb => Body.noConfusion hb⟩
  | verifyMagicLink t =>
    simp only [authController, wp_map]
    refine (AuthService.verifyMagicLink_wp token).mono ?_ fun _ _ h => h
    rintro session s' ⟨hdb, hsigned⟩
    refine ⟨hdb, ?_⟩
    rintro _ ⟨⟩
    exact hsigned
  | login d =>
    simp only [authController, validate, wp_bind, wp_map, wp_throwIf]
    refine ⟨fun hvalid => ?_, fun _ => trivial⟩
    refine (AuthService.login_wp token (by simpa [Route.valid] using hvalid)).mono ?_
      fun _ _ h => h
    rintro session s' ⟨hdb, hsigned⟩
    refine ⟨hdb ▸ .same (fun _ h => by cases h), ?_⟩
    rintro _ ⟨⟩
    exact hsigned
  | getProfile =>
    simp only [authController, wp_map]
    refine authenticate_wp.mono ?_ fun _ _ => refused
    exact fun _ _ h =>
      ⟨refused h.1 ▸ .same (fun _ h => by cases h), fun _ hb => Body.noConfusion hb⟩
  | refreshToken =>
    simp only [authController, AuthService.refreshToken, wp_bind, wp_map]
    refine authenticate_wp.mono ?_ fun _ _ => refused
    rintro p s ⟨rfl, hp⟩
    refine AuthService.signUser_wp.mono ?_ (fun _ _ => False.elim)
    rintro session s' ⟨hsub, hdb⟩
    refine ⟨hdb ▸ .same (fun _ h => by cases h), ?_⟩
    rintro _ ⟨⟩
    exact .bearer rfl hp hsub.symm

theorem authController_enrolled {token : Option Jwt} {r : AuthRoute} :
    wp (authController X env token r) (fun _ s' => Enrolled env s.db s'.db)
      (fun _ s' => Enrolled env s.db s'.db) s :=
  authController_wp.mono (fun _ _ h => h.1.enrolled) fun _ _ h => .inl h

/-! ### Soundness of sign-in -/

/-- The grounds on which a request may be given a token of the account `u`: it created the account,
presented a magic token for its email, presented an invite with a use left, or carried a valid
token of it. -/
def Justified (env : Env) (s : Server) (req : Request) (s' : Server) (u : Uuid) : Prop :=
  (u ∉ s.db.users.map (·.id) ∧ u ∈ s'.db.users.map (·.id)) ∨
  (∃ t, req.route = .auth (.verifyMagicLink t) ∧ MagicFor env s t u) ∨
  (∃ d t, req.route = .auth (.login d) ∧ d.inviteToken.truthy = some t ∧ InviteOpen env s t) ∨
  ∃ r p, req.route = .auth r ∧ r.guarded = true ∧ Authenticated env s req.token p ∧ p.id = u

/-- A request that is answered with a token has grounds for it. -/
def SignsSoundly (X : Externals) (s : Server) (i : Env × Request) : Prop :=
  ∀ session, (serve X s i).1 = .ok (.session session) →
    Justified i.1 s i.2 (serve X s i).2 session.accessToken.sub

/-- A login by email, without an invite token, that finds an account. -/
def emailOnlyLogin (X : Externals) (s : Server) (req : Request) : Bool :=
  match req.route with
  | .auth (.login d) => d.valid X && d.inviteToken.truthy.isNone && d.email.truthy.isSome &&
      (AuthService.loginUser d s.db).isSome
  | _ => false

theorem emailOnlyLogin_iff {req : Request} : emailOnlyLogin X s req = true ↔
    ∃ d, req.route = .auth (.login d) ∧ d.valid X = true ∧ WithoutInvite d ∧
      d.email.truthy.isSome = true ∧ (AuthService.loginUser d s.db).isSome = true := by
  unfold emailOnlyLogin
  split
  · rename_i d hroute
    simp [WithoutInvite, hroute, and_assoc]
  · rename_i hroute
    simp only [Bool.false_eq_true, false_iff]
    rintro ⟨d, hd, _⟩
    exact hroute d hd

theorem guarded_not_session {user : Profile} {route : Route} {db : Database} :
    wp (guarded X env user route) (fun b _ => ∀ session, b ≠ .session session) (fun _ _ => True)
      db := by
  rcases route with r | r | r | r | r | r | r
  case auth => trivial
  all_goals
    cases r <;>
      exact wp_map.mpr (.of_forall (fun _ _ _ hb => Body.noConfusion hb) fun _ _ => trivial)

/-- Only the routes of `auth` sign. -/
theorem serve_signed {i : Env × Request} {session : Session}
    (h : (serve X s i).1 = .ok (.session session)) :
    ∃ r, i.2.route = .auth r ∧
      Signed X i.1 s i.2.token (serve X s i).2 session.accessToken.sub r := by
  have hwp : wp (handle X i.1 i.2) (fun b s' => ∀ session, b = .session session →
      ∃ r, i.2.route = .auth r ∧ Signed X i.1 s i.2.token s' session.accessToken.sub r)
      (fun _ _ => True) s := by
    refine wp_handle ?_ ?_ fun _ => trivial
    · intro r hroute
      refine authController_wp.mono ?_ fun _ _ _ => trivial
      exact fun _ _ h session hb => ⟨r, hroute, h.2 session hb⟩
    · intro user _ _
      refine guarded_not_session.mono ?_ fun _ _ _ => trivial
      exact fun _ _ h session hb => absurd hb (h session)
  exact hwp.of_returned h session rfl

theorem loginUser_mem {d : LoginDto} {db : Database} {p : Profile}
    (h : AuthService.loginUser d db = some p) : p.id ∈ db.users.map (·.id) := by
  have found : ∀ {q : User → Bool}, (db.users.find? q).map User.toProfile = some p →
      p.id ∈ db.users.map (·.id) := by
    intro q hq
    obtain ⟨x, hx, rfl⟩ := Option.map_eq_some_iff.mp hq
    exact List.mem_map.mpr ⟨x, List.mem_of_find?_eq_some hx, rfl⟩
  rcases Option.or_eq_some_iff.mp h with h | ⟨-, h⟩
  · obtain ⟨email, -, h⟩ := Option.bind_eq_some_iff.mp h
    exact found h
  · obtain ⟨name, -, h⟩ := Option.bind_eq_some_iff.mp h
    exact found h

/-- A login by email alone signs in the account it finds. -/
theorem emailOnlyLogin_signed {i : Env × Request} (h : emailOnlyLogin X s i.2 = true) :
    ∃ d p session, i.2.route = .auth (.login d) ∧ WithoutInvite d ∧
      AuthService.loginUser d s.db = some p ∧
      (serve X s i).1 = .ok (.session session) ∧ (serve X s i).2.db = s.db ∧
      session.accessToken.sub = p.id := by
  obtain ⟨env, token, route⟩ := i
  obtain ⟨d, hroute, hvalid, hinvite, hemail, hfound⟩ := emailOnlyLogin_iff.mp h
  obtain ⟨p, hp⟩ := Option.isSome_iff_exists.mp hfound
  have hroute : route = .auth (.login d) := hroute
  have hinvite' : d.inviteToken.truthy = none := hinvite
  have hnone : d.email.truthy.isNone = false := by simpa using hemail
  have hwp : wp (authController X env token (.login d))
      (fun b s' => ∃ session, b = .session session ∧ s'.db = s.db ∧
        session.accessToken.sub = p.id) (fun _ _ => False) s := by
    simp only [authController, validate, AuthService.login, Route.valid, hvalid, hinvite', hnone,
      wp_bind, wp_map, wp_throwIf, wp_query, wp_orThrow, hp]
    refine ⟨fun _ => ⟨fun _ => ⟨?_, fun h => by cases h⟩, fun h => by cases h⟩, fun h => by cases h⟩
    rintro _ ⟨⟩
    refine AuthService.signUser_wp.mono ?_ fun _ _ => id
    rintro session s' ⟨hsub, hdb⟩
    exact ⟨session, rfl, hdb, hsub⟩
  subst hroute
  obtain ⟨_, hout, session, rfl, hdb, hsub⟩ := hwp.returns
  exact ⟨d, p, session, rfl, hinvite, hp, hout, hdb, hsub⟩

/-- A step with fresh ids signs soundly exactly when it is no login by email alone. -/
theorem signsSoundly_iff {i : Env × Request} (hfresh : FreshStep s i) :
    SignsSoundly X s i ↔ emailOnlyLogin X s i.2 = false := by
  constructor
  · intro hsound
    by_contra honly
    rw [Bool.not_eq_false] at honly
    obtain ⟨d, p, session, hroute, hinvite, hp, hout, hdb, hsub⟩ := emailOnlyLogin_signed honly
    have hj := hsound session hout
    rw [hsub] at hj
    rcases hj with ⟨hnew, -⟩ | ⟨t, hmagic, -⟩ | ⟨d', t, hlogin, htoken, -⟩ | ⟨r, _, hr, hg, -⟩
    · exact hnew (loginUser_mem hp)
    · rw [hroute] at hmagic
      simp at hmagic
    · rw [hroute] at hlogin
      obtain rfl : d = d' := by simpa using hlogin
      exact nomatch hinvite.symm.trans htoken
    · rw [hroute] at hr
      obtain rfl : .login d = r := by simpa using hr
      exact nomatch hg
  · intro hnot session hout
    obtain ⟨r, hroute, hsigned⟩ := serve_signed hout
    cases hsigned with
    | created x hid hu hx =>
      refine .inl ⟨?_, List.mem_map.mpr ⟨x, hx, hid⟩⟩
      rw [hu]
      intro hmem
      exact hfresh.2 0 (by decide) (by simp only [Database.keys, List.mem_append, hmem, true_or])
    | magic hm => exact .inr (.inl ⟨_, hroute, hm⟩)
    | invite ht hopen _ => exact .inr (.inr (.inl ⟨_, _, hroute, ht, hopen⟩))
    | emailOnly hvalid hinvite hemail hp =>
      obtain ⟨p, hp, -⟩ := hp
      have honly := emailOnlyLogin_iff.mpr
        ⟨_, hroute, hvalid, hinvite, hemail, Option.isSome_of_eq_some hp⟩
      exact absurd honly (Bool.not_eq_true _ ▸ hnot)
    | bearer hg hp hid => exact .inr (.inr (.inr ⟨r, _, hroute, hg, hp, hid⟩))

/-- In a run with fresh ids every token is given on good grounds exactly when no step is a login by
email alone. -/
theorem run_signsSoundly_iff {is : List (Env × Request)} (hfresh : Along (serve X) FreshStep s is) :
    Along (serve X) (SignsSoundly X) s is ↔
      Along (serve X) (fun s i => emailOnlyLogin X s i.2 = false) s is :=
  hfresh.congr fun _ _ h => signsSoundly_iff h

/-- Alice registers and is then signed in by an invite of her own. -/
def inviteRun : List (Env × Request) :=
  [(sampleEnv 1, ⟨none, .auth (.register ⟨"alice", "alice@mail", "secret"⟩)⟩),
    (sampleEnv 2, ⟨some (sampleToken 1 "alice"),
      .auth (.createInvite ⟨.absent, .absent, .absent, .absent⟩)⟩),
    (sampleEnv 3, ⟨none,
      .auth (.login ⟨.value "alice", .absent, .value (sampleUuid 2 0).toText⟩)⟩)]

theorem inviteRun_signsSoundly :
    Along (serve sampleExternals) (SignsSoundly sampleExternals) Server.empty inviteRun :=
  (run_signsSoundly_iff (by decide +kernel)).mpr (by decide +kernel)

/-- Alice registers, and somebody who knows her email logs in. -/
def emailOnlyRun : List (Env × Request) :=
  [(sampleEnv 1, ⟨none, .auth (.register ⟨"alice", "alice@mail", "secret"⟩)⟩),
    (sampleEnv 2, ⟨none, .auth (.login ⟨.absent, .value "alice@mail", .absent⟩)⟩)]

theorem emailOnlyRun_not_signsSoundly :
    Along (serve sampleExternals) FreshStep Server.empty emailOnlyRun ∧
      ¬Along (serve sampleExternals) (SignsSoundly sampleExternals) Server.empty emailOnlyRun := by
  refine ⟨by decide +kernel, fun h => ?_⟩
  have hstep := (signsSoundly_iff (by decide +kernel)).mp h.2.1
  exact absurd hstep (by decide +kernel)

end VoxLink
