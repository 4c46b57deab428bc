import VoxLink.Accounts.Roles
import VoxLink.Accounts.Sessions
import VoxLink.Content.Writing

/-! What the role `banned` keeps an account from. No way of becoming authenticated consults the
role, so a ban holds as far as the banned account does not try. -/

namespace VoxLink

open ProofKit Prog

variable {X : Externals} {env : Env} {user : Profile} {u : Uuid} {g : Gateway} {s : Server}

/-! ### Requests that only read -/

/-- The routes that write a table. -/
def Route.writes : Route → Bool
  | .auth _ => false
  | .users .findAll | .users (.search _) | .users (.findOne _) => false
  | .channels .findAll | .channels (.search _) | .channels (.findOne _) => false
  | .messages (.findAll _ _ _) | .messages (.search _ _) | .messages (.findOne _) => false
  | .events (.findAll _) | .events (.findUpcoming _) | .events (.findOne _) => false
  | .admin .getStats | .admin (.getUserActivity _) => false
  | .guilds .findAll | .guilds (.findOne _) | .guilds (.previewByInvite _)
  | .guilds (.getMembers _) | .guilds (.getRoles _) | .guilds (.getChannels _) => false
  | _ => true

theorem reads_getMemberOrThrow {site : Nat} {guild member : Uuid} :
    Keeps Eq (GuildsService.getMemberOrThrow env site guild member) :=
  .bind (.query _) fun _ => .orThrow _ _

theorem reads_guarded {route : Route} (hroute : route.writes = false) :
    Keeps Eq (guarded X env user route) := by
  have admin : Keeps Eq (AdminService.requireAdmin user) := .throwIf _ _
  cases route with
  | auth r => exact .throw _
  | users r =>
    cases r with
    | findAll => exact .map (.query _)
    | search q => exact .map (.bind (keeps_texts _) fun _ => .query _)
    | findOne id => exact .map (.bind (keeps_uuidOf _) keeps_profile)
    | _ => exact Bool.noConfusion hroute
  | channels r =>
    cases r with
    | findAll => exact .map (.query _)
    | search q => exact .map (.bind (keeps_texts _) fun _ => .query _)
    | findOne id => exact .map (keeps_channels_findOne id)
    | _ => exact Bool.noConfusion hroute
  | messages r =>
    cases r with
    | findAll channelId limit offset => exact .map (keeps_messages_findAll channelId limit offset)
    | search channelId q =>
      exact .map (.bind (keeps_texts _) fun _ => .bind (keeps_uuidOf _) fun _ => .query _)
    | findOne id => exact .map (keeps_messages_findOne id)
    | _ => exact Bool.noConfusion hroute
  | events r =>
    cases r with
    | findAll channelId => exact .map (.bind (keeps_selection channelId) fun _ => .query _)
    | findUpcoming days => exact .map (.query _)
    | findOne id => exact .map (keeps_events_findOne id)
    | _ => exact Bool.noConfusion hroute
  | admin r =>
    cases r with
    | getStats => exact .map (.bind admin fun _ => .query _)
    | getUserActivity id =>
      exact .map (.bind admin fun _ => .bind (keeps_uuidOf _) fun _ => .query _)
    | _ => exact Bool.noConfusion hroute
  | guilds r =>
    cases r with
    | findAll => exact .map (.query _)
    | findOne id =>
      refine .map (.bind (keeps_uuidOf _) fun _ => .bind (.query _) fun _ => ?_)
      exact .bind (.orThrow _ _) fun _ => .bind reads_getMemberOrThrow fun _ => .query _
    | previewByInvite code =>
      exact .map (.bind (.query _) fun _ => .bind (.orThrow _ _) fun _ => .query _)
    | getMembers id | getRoles id =>
      exact .map (.bind (keeps_uuidOf _) fun _ => .bind reads_getMemberOrThrow fun _ => .query _)
    | getChannels id =>
      refine .map (.bind (keeps_uuidOf _) fun _ => .bind reads_getMemberOrThrow fun _ => ?_)
      exact .bind (.query _) fun _ => .bind (.orThrow _ _) fun _ => .query _
    | _ => exact Bool.noConfusion hroute

/-! ### What a ban forbids -/

/-- The stored role of the account is `banned`. -/
def banned (u : Uuid) (g : Gateway) : Bool :=
  (g.server.db.userById u).any (·.role = "banned")

/-- An administrator unbans the account. -/
def unbans (u : Uuid) (g : Gateway) : Env × Input → Bool
  | (env, .request ⟨token, .admin (.unbanUser text)⟩) =>
    (callerOf env g.server token).any (·.role = "admin") && Uuid.parse text = some u
  | _ => false

/-- The request passes the guard of its route as one of the account. -/
def authenticatedAs (u : Uuid) (env : Env) (s : Server) : Request → Bool
  | ⟨token, .auth r⟩ => r.guarded && (callerOf env s token).any (·.id = u)
  | ⟨token, _⟩ => (callerOf env s token).any (·.id = u)

/-- The routes that sign a stored account in. -/
def Route.signsIn : Route → Bool
  | .auth (.login _) | .auth (.verifyMagicLink _) | .auth .refreshToken => true
  | _ => false

/-- The account of the token that an answer carries. -/
def tokenSubject : Except Exception Body → Option Uuid
  | .ok (.session session) => some session.accessToken.sub
  | _ => none

def SocketEvent.connects : SocketEvent → Bool
  | .connection _ => true
  | _ => false

/-- The step keeps the account out: no request of it changes a table, none is answered with a token
of it, and no socket that connects is attached to it. -/
def KeptOut (X : Externals) (u : Uuid) (g : Gateway) : Env × Input → Prop
  | (env, .request req) =>
    (authenticatedAs u env g.server req = true →
      (serve X g.server (env, req)).2.db = g.server.db) ∧
    (req.route.signsIn = true → tokenSubject (serve X g.server (env, req)).1 ≠ some u)
  | (env, .event client e) =>
    e.connects = true → (WebsocketGateway.account client
      (Gateway.step X g (env, .event client e)).2).map (·.id) ≠ some u

instance (u : Uuid) (g : Gateway) : (i : Env × Input) → Decidable (KeptOut X u g i)
  | (_, .request _) => inferInstanceAs (Decidable ((_ → _) ∧ (_ → _)))
  | (_, .event _ _) => inferInstanceAs (Decidable (_ → _))

/-- Banned at the start, the account is kept out by every step of the run, unless an administrator
unbans it on the way. -/
def BanEnforced (X : Externals) (u : Uuid) (g : Gateway) (is : List (Env × Input)) : Prop :=
  banned u g = true → Along (Gateway.step X) (fun g i => unbans u g i = false) g is →
    Along (Gateway.step X) (KeptOut X u) g is

/-! ### Ways around a ban -/

/-- A login presents an invite token with a use left, or an email without any. -/
def loginAdmitted (env : Env) (s : Server) (d : LoginDto) : Bool :=
  match d.inviteToken.truthy with
  | some t => (AuthService.useInvite env t).passes s
  | none => d.email.truthy.isSome

/-- The account that a magic link signs in, the new one if there is none with the email. -/
def linkAccount (env : Env) (s : Server) (t : String) : Option Uuid :=
  (AuthService.magicEmail (s.redis.get env.now (AuthService.magicKey t))).map fun email =>
    ((AuthService.findByEmail email s.db).map (·.id)).getD (env.uuids 0)

/-- The account sends a valid request to a route that writes, signs in, or connects a socket. -/
def evadesBan (X : Externals) (u : Uuid) (g : Gateway) : Env × Input → Bool
  | (env, .request ⟨_, .auth (.login d)⟩) =>
    d.valid X && loginAdmitted env g.server d &&
      (AuthService.loginUser d g.server.db).any (·.id = u)
  | (env, .request ⟨_, .auth (.verifyMagicLink t)⟩) => linkAccount env g.server t = some u
  | (env, .request ⟨token, .auth .refreshToken⟩) => (callerOf env g.server token).any (·.id = u)
  | (env, .request ⟨token, route⟩) =>
    route.writes && route.valid X && (callerOf env g.server token).any (·.id = u)
  | (env, .event _ (.connection handshake)) =>
    (callerOf env g.server handshake.token).any (·.id = u)
  | _ => false

/-- The sign-in of a login, on tables that the check of its invite has left alone. -/
theorem loginSigns_subject {d : LoginDto} {db : Database} (hs : s.db = db) :
    wp (do
        let found ← query fun s => AuthService.loginUser d s.db
        let user ← orThrow (.unauthorized "User not found") found
        AuthService.signUser X env user)
      (fun session _ => (AuthService.loginUser d db).map (·.id) = some session.accessToken.sub)
      (fun _ _ => True) s := by
  rw [wp_bind, wp_query, wp_bind, wp_orThrow, hs]
  refine ⟨fun p hp => AuthService.signUser_wp.mono ?_ nofun, fun _ => trivial⟩
  intro session s' ⟨hsub, _⟩
  rw [hp, hsub, Option.map_some]

theorem login_subject {d : LoginDto} :
    wp (AuthService.login X env d)
      (fun session _ => loginAdmitted env s d = true ∧
        (AuthService.loginUser d s.db).map (·.id) = some session.accessToken.sub)
      (fun _ _ => True) s := by
  rw [AuthService.login, wp_bind, wp_throwIf]
  refine ⟨fun hflow => ?_, fun _ => trivial⟩
  cases hinvite : d.inviteToken.truthy with
  | some t =>
    rw [wp_bind]
    apply AuthService.useInvite_wp.and_passes.mono
    · rintro _ s' ⟨hpasses, hdb, _⟩
      apply (loginSigns_subject hdb).mono
      · intro session _ hsub
        refine ⟨?_, hsub⟩
        rw [loginAdmitted, hinvite]
        exact hpasses
      · exact fun _ _ _ => trivial
    · exact fun _ _ _ => trivial
  | none =>
    rw [wp_bind]
    apply (loginSigns_subject rfl).mono
    · intro session _ hsub
      refine ⟨?_, hsub⟩
      rw [loginAdmitted, hinvite]
      simpa [hinvite] using hflow
    · exact fun _ _ _ => trivial

theorem signInByEmail_subject {email : String} {db : Database} (hs : s.db = db) :
    wp (AuthService.signInByEmail X env email)
      (fun session _ => ((AuthService.findByEmail email db).map (·.id)).getD (env.uuids 0) =
        session.accessToken.sub) (fun _ _ => True) s := by
  rw [AuthService.signInByEmail, wp_bind, wp_query, hs]
  cases hfound : AuthService.findByEmail email db with
  | some p =>
    apply AuthService.signUser_wp.mono
    · rintro session s' ⟨hsub, _⟩
      exact hsub.symm
    · exact fun _ _ => False.elim
  | none =>
    apply AuthService.enrol_wp.mono
    · rintro session s' ⟨x, hx, hsub, _⟩
      exact (hsub.trans hx.id).symm
    · exact fun _ _ _ => trivial

theorem verifyMagicLink_subject {t : String} :
    wp (AuthService.verifyMagicLink X env t)
      (fun session _ => linkAccount env s t = some session.accessToken.sub)
        (fun _ _ => True) s := by
  rw [AuthService.verifyMagicLink]
  apply (AuthService.redisGet_wp.mono (fun _ _ h => h) fun _ _ _ => trivial).seq
  rintro stored s' ⟨hs', hstored⟩
  subst hs'
  rw [wp_bind, wp_orThrow]
  refine ⟨fun email hemail => ?_, fun _ => trivial⟩
  have hlink : ∀ sub, ((AuthService.findByEmail email s'.db).map (·.id)).getD (env.uuids 0) = sub →
      linkAccount env s' t = some sub := by
    intro sub hsub
    rw [linkAccount, ← hstored, hemail, Option.map_some, hsub]
  split
  · exact (signInByEmail_subject rfl).mono (fun _ _ h => hlink _ h) fun _ _ _ => trivial
  · exact (signInByEmail_subject rfl).mono (fun _ _ h => hlink _ h) fun _ _ _ => trivial

/-! ### Steps -/

theorem tokenSubject_ne {m : Backend Body}
    (h : wp m (fun b _ => tokenSubject (.ok b) ≠ some u) (fun _ _ => True) s) :
    tokenSubject (m.outcome s) ≠ some u := by
  unfold wp at h
  unfold Prog.outcome
  split at h
  · exact h
  · exact nofun

/-- A sign-in whose session is known not to be of the account. -/
theorem session_ne {m : Backend Session} {P : Uuid → Prop} (hnot : ¬P u)
    (h : wp m (fun session _ => P session.accessToken.sub) (fun _ _ => True) s) :
    wp (Body.session <$> m) (fun b _ => tokenSubject (.ok b) ≠ some u) (fun _ _ => True) s := by
  rw [wp_map]
  apply h.mono
  · intro session _ hP hsub
    exact hnot (Option.some.inj hsub ▸ hP)
  · exact fun _ _ _ => trivial

/-- No token of the account is given to a request that does not evade. -/
theorem request_subject {req : Request} (hsigns : req.route.signsIn = true)
    (hevades : evadesBan X u g (env, .request req) = false) :
    tokenSubject (serve X g.server (env, req)).1 ≠ some u := by
  obtain ⟨token, route⟩ := req
  apply tokenSubject_ne (m := handle X env ⟨token, route⟩)
  cases route with
  | auth r =>
    show wp (authController X env token r) _ _ _
    cases r with
    | login d =>
      rw [authController, wp_bind, validate, wp_throwIf]
      refine ⟨fun hvalid => ?_, fun _ => trivial⟩
      apply session_ne (P := fun sub => loginAdmitted env g.server d = true ∧
        (AuthService.loginUser d g.server.db).map (·.id) = some sub) _ login_subject
      rintro ⟨hadmitted, hsub⟩
      obtain ⟨p, hp, hid⟩ := Option.map_eq_some_iff.mp hsub
      have hbody : d.valid X = true := by simpa [Route.valid] using hvalid
      simp [evadesBan, hbody, hadmitted, hp, hid] at hevades
    | verifyMagicLink t =>
      apply session_ne (P := fun sub => linkAccount env g.server t = some sub) _
        verifyMagicLink_subject
      intro hsub
      simp [evadesBan, hsub] at hevades
    | refreshToken =>
      rw [authController, wp_bind]
      apply authenticate_wp.mono
      · rintro p s' ⟨hs', hauth⟩
        apply session_ne (P := fun sub => sub = p.id) _
        · exact AuthService.signUser_wp.mono (fun _ _ h => h.1) (fun _ _ => False.elim)
        · intro hid
          have hcaller := authenticated_iff.mp hauth
          simp [evadesBan, hcaller, hid] at hevades
      · exact fun _ _ _ => trivial
    | _ => exact Bool.noConfusion hsigns
  | _ => exact Bool.noConfusion hsigns

/-- The routes of `auth` behind the guard write no table. -/
theorem guardedAuth_reads {token : Option Jwt} {r : AuthRoute} (hr : r.guarded = true) :
    wp (authController X env token r) (fun _ s' => s'.db = s.db) (fun _ s' => s'.db = s.db) s := by
  have same : ∀ {s' : Server}, s' = s → s'.db = s.db := fun h => congrArg Server.db h
  cases r with
  | createInvite d =>
    rw [authController, wp_bind]
    apply authenticate_wp.mono _ fun _ _ => same
    rintro p s' ⟨hs', _⟩
    subst hs'
    rw [wp_bind, validate, wp_throwIf, wp_map]
    exact ⟨fun _ => AuthService.createInvite_wp, fun _ => rfl⟩
  | getProfile =>
    rw [authController, wp_map]
    exact authenticate_wp.mono (fun _ _ h => same h.1) fun _ _ => same
  | refreshToken =>
    rw [authController, wp_bind]
    apply authenticate_wp.mono _ fun _ _ => same
    rintro p s' ⟨hs', _⟩
    subst hs'
    rw [wp_map]
    exact AuthService.signUser_wp.mono (fun _ _ h => h.2) (fun _ _ => False.elim)
  | _ => exact Bool.noConfusion hr

/-- A request of the account that does not evade changes no table. -/
theorem request_tables {req : Request} (hcaller : authenticatedAs u env g.server req = true)
    (hevades : evadesBan X u g (env, .request req) = false) :
    (serve X g.server (env, req)).2.db = g.server.db := by
  apply wp.final (P := fun s' : Server => s'.db = g.server.db) (m := handle X env req)
  apply wp_handle
  · intro r hroute
    apply guardedAuth_reads
    obtain ⟨token, route⟩ := req
    obtain rfl : route = .auth r := hroute
    exact (Bool.and_eq_true_iff.mp hcaller).1
  · intro user hauth hvalid
    have hreads : req.route.writes = false := by
      obtain ⟨token, route⟩ := req
      have hvalid : route.valid X = true := hvalid
      cases route with
      | auth r => rfl
      | _ =>
        have hcaller : (callerOf env g.server token).any (·.id = u) = true := hcaller
        simpa [evadesBan, hvalid, hcaller] using hevades
    exact (reads_guarded hreads g.server.db).mono (fun _ _ h => h.symm) fun _ _ h => h.symm
  · exact fun _ => rfl

/-- Every socket of the client is another account's, or nobody's. -/
def NotAttached (u : Uuid) (client : String) (g : Gateway) : Prop :=
  ∀ x ∈ g.sockets, x.id = client → x.user.map (·.id) ≠ some u

theorem NotAttached.account {client : String} (h : NotAttached u client g) :
    (WebsocketGateway.account client g).map (·.id) ≠ some u := by
  unfold WebsocketGateway.account
  cases hfound : g.sockets.find? (·.id = client) with
  | none => exact nofun
  | some x => exact h x (List.mem_of_find?_eq_some hfound) (by simpa using List.find?_some hfound)

theorem notAttached_disconnect {client : String} {g : Gateway} :
    wp (disconnect client) (fun _ g' => NotAttached u client g')
      (fun _ g' => NotAttached u client g') g := by
  intro x hx hid
  have hother := (Rows.mem_remove.mp hx).2
  simp [hid] at hother

/-- A change of the client's sockets. -/
theorem notAttached_update {client : String} {f : Socket → Socket} {g : Gateway}
    (hf : ∀ x ∈ g.sockets, x.id = client → (f x).user.map (·.id) ≠ some u) :
    NotAttached u client { g with sockets := Rows.modify (·.id = client) f g.sockets } := by
  intro x hx hid
  obtain ⟨y, hy, rfl⟩ := Rows.mem_modify.mp hx
  by_cases hclient : y.id = client
  · simp only [hclient, decide_true, if_true]
    exact hf y hy hclient
  · simp only [hclient, decide_false, Bool.false_eq_true, if_false] at hid

theorem connection_notAttached {client : String} {handshake : Handshake} {g : Gateway}
    (hevades : (callerOf env g.server handshake.token).any (·.id = u) = false) :
    wp (WebsocketGateway.handleConnection env client handshake)
      (fun _ g' => NotAttached u client g') (fun _ g' => NotAttached u client g') g := by
  rw [WebsocketGateway.handleConnection, wp_bind, wp_write, wp_recover, wp_bind, wp_onServer]
  apply authenticate_wp.mono
  · intro p s' ⟨hs', hauth⟩
    have hother : p.id ≠ u := by
      have hcaller := authenticated_iff.mp hauth
      simpa [hcaller] using hevades
    rw [wp_bind]
    have hattached : NotAttached u client { g with
        server := s'
        sockets := Rows.modify (·.id = client) (fun s => { s with user := some p })
          (g.sockets ++ [⟨client, none, []⟩]) } := by
      apply notAttached_update (g := { g with
        server := s', sockets := g.sockets ++ [⟨client, none, []⟩] })
      intro x _ _ hid
      exact hother (Option.some.inj hid)
    rw [updateSocket, wp_write, wp_bind, wp_onServer]
    apply wp.of_forall
    · intro _ s''
      rw [wp_bind]
      exact notAttached_update fun x hx hid => hattached x hx hid
    · exact fun _ _ => notAttached_disconnect
  · exact fun _ _ _ => notAttached_disconnect

theorem connection_account {client : String} {handshake : Handshake}
    (hevades : (callerOf env g.server handshake.token).any (·.id = u) = false) :
    (WebsocketGateway.account client
      (Gateway.step X g (env, .event client (.connection handshake))).2).map (·.id) ≠ some u := by
  apply NotAttached.account
  apply wp.final (P := NotAttached u client)
    (m := WebsocketGateway.handleConnection env client handshake)
  exact connection_notAttached hevades

theorem step_keptOut {i : Env × Input} (hevades : evadesBan X u g i = false) : KeptOut X u g i := by
  obtain ⟨env, input⟩ := i
  cases input with
  | request req => exact ⟨fun h => request_tables h hevades, fun h => request_subject h hevades⟩
  | event client e =>
    cases e with
    | connection handshake => exact fun _ => connection_account hevades
    | _ => exact fun h => Bool.noConfusion h

/-- In a run in which the banned account does not try, the ban is enforced. -/
theorem ban_enforced (X : Externals) (u : Uuid) (g : Gateway) (is : List (Env × Input))
    (his : Along (Gateway.step X) (fun g i => evadesBan X u g i = false) g is) :
    BanEnforced X u g is :=
  fun _ _ => his.mono fun _ _ => step_keptOut

/-- Bob has registered, and the administrator has banned him. -/
def bannedBob : Gateway := ⟨run (serve sampleExternals) installed (banRun.take 2), [], []⟩

/-- Bob lists the channels, the administrator opens one, and somebody asks for a session by an email
that no account has. -/
def quietRun : List (Env × Input) :=
  [(sampleEnv 3, .request ⟨some (sampleToken 1 "bob"), .channels .findAll⟩),
    (sampleEnv 4, .request ⟨some (sampleToken 0 "root"), .channels (.create
      { name := "general", type := .text, topic := .absent, description := .absent
        isPrivate := .absent, permissions := .absent })⟩),
    (sampleEnv 5, .request ⟨none, .auth (.login
      ⟨.absent, .value "rob@mail", .absent⟩)⟩)]

theorem quietRun_ban_enforced :
    BanEnforced sampleExternals (sampleUuid 1 0) bannedBob quietRun :=
  ban_enforced sampleExternals (sampleUuid 1 0) bannedBob quietRun (by decide +kernel)

/-- Bob opens a channel although he is banned. -/
def defiantRun : List (Env × Input) :=
  [(sampleEnv 3, .request ⟨some (sampleToken 1 "bob"), .channels (.create
    { name := "general", type := .text, topic := .absent, description := .absent
      isPrivate := .absent, permissions := .absent })⟩)]

theorem defiantRun_not_ban_enforced :
    ¬BanEnforced sampleExternals (sampleUuid 1 0) bannedBob defiantRun := by
  intro henforced
  have hkept := henforced (by decide +kernel) (by decide +kernel)
  exact absurd hkept (by decide +kernel)

end VoxLink
