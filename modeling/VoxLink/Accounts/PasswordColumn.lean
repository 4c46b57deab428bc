import VoxLink.Accounts.Roles

/-! The password column. A registration stores a hash of the password; the requests that create and
update users store the text they carry, which `validateUser` does not accept. -/

namespace VoxLink

open ProofKit Prog AuthService

variable {X : Externals} {env : Env} {s : Server} {db db' : Database} {i : Env × Request}

/-- What is known of bcrypt: which texts a hash accepts, and that a hash is not empty. -/
structure Bcrypt (X : Externals) : Prop where
  compare_iff : ∀ pass hash, X.bcryptCompare pass hash = true ↔
    ∃ salt, hash = X.bcryptHash salt pass
  nonempty : ∀ salt pass, X.bcryptHash salt pass ≠ ""

/-- The password that a request sets, and how it is stored. -/
inductive Setting where
  | hashed (salt pass : String)
  | plain (pass : String)
deriving DecidableEq, Repr

def Setting.pass : Setting → String
  | .hashed _ pass | .plain pass => pass

def Setting.stored (X : Externals) : Setting → String
  | .hashed salt pass => X.bcryptHash salt pass
  | .plain pass => pass

/-- What a request that succeeds makes of the latest setting of an account. -/
def settingBy (i : Env × Request) (id : Uuid) (latest : Option Setting) : Option Setting :=
  match i.2.route with
  | .auth (.register d) =>
    if id = i.1.uuids 0 then some (.hashed i.1.salt d.password) else latest
  | .auth (.verifyMagicLink _) => if id = i.1.uuids 0 then none else latest
  | .users (.create d) => if id = i.1.uuids 0 then d.password.get?.map .plain else latest
  | .users (.update text d) =>
    if Uuid.parse text = some id then
      match d.password with
      | .absent => latest
      | .null => none
      | .value pass => some (.plain pass)
    else latest
  | _ => latest

/-- The latest setting of each account after a run. -/
def settings (X : Externals) : Server → (Uuid → Option Setting) → List (Env × Request) →
    Uuid → Option Setting
  | _, latest, [] => latest
  | s, latest, i :: is =>
    settings X (serve X s i).2
      (if (serve X s i).1.isOk then fun id => settingBy i id (latest id) else latest) is

/-- No two rows have one id, or one name. -/
structure Keyed (db : Database) : Prop where
  ids : (db.users.map (·.id)).Nodup
  names : (db.users.map (·.username)).Nodup

/-- The column holds what the latest settings store. -/
def Holds (X : Externals) (latest : Uuid → Option Setting) (db : Database) : Prop :=
  ∀ x ∈ db.users, ∀ v, latest x.id = some v → x.password = some (v.stored X)

/-! ### Requests that set no password -/

/-- The rows have the credentials that they had, and none is new. -/
def FewerUsers (db db' : Database) : Prop :=
  (db'.users.map User.credentials).Sublist (db.users.map User.credentials)

instance : IsPreorder Database FewerUsers where
  refl _ := List.Sublist.refl _
  trans _ _ _ h h' := List.Sublist.trans h' h

theorem FewerUsers.keyed (hfewer : FewerUsers db db') (h : Keyed db) : Keyed db' := by
  have hids := hfewer.map Prod.fst
  have hnames := hfewer.map fun c => c.2.1
  simp only [List.map_map] at hids hnames
  exact ⟨h.ids.sublist hids, h.names.sublist hnames⟩

theorem FewerUsers.holds {latest : Uuid → Option Setting} (hfewer : FewerUsers db db')
    (h : Holds X latest db) : Holds X latest db' := by
  intro x hx v hv
  obtain ⟨y, hy, heq⟩ := List.mem_map.mp (hfewer.subset (List.mem_map_of_mem hx))
  simp only [User.credentials, Prod.mk.injEq] at heq
  obtain ⟨hid, -, hpass⟩ := heq
  rw [← hpass]
  exact h y hy v (hid ▸ hv)

theorem fewerUsers_of_eq (h : db'.users = db.users) : FewerUsers db db' := by
  rw [FewerUsers, h]

/-- The routes that set a password or create an account. -/
def Route.setsPassword : Route → Bool
  | .auth (.register _) | .auth (.verifyMagicLink _) => true
  | .users (.create _) | .users (.update _ _) => true
  | _ => false

theorem settingBy_of_not (h : i.2.route.setsPassword = false) (id : Uuid)
    (latest : Option Setting) : settingBy i id latest = latest := by
  unfold settingBy
  split <;> simp_all [Route.setsPassword]

theorem guarded_fewerUsers {user : Profile} {route : Route} (h : route.setsPassword = false) :
    Keeps FewerUsers (guarded X env user route) := by
  have ofGuilds : route.ofGuilds = true → Keeps FewerUsers (guarded X env user route) := by
    intro hroute db
    refine (guarded_changes route db).mono ?_ ?_
    · exact fun _ _ hc => fewerUsers_of_eq (hc.users_eq hroute)
    · exact fun _ _ hc => fewerUsers_of_eq (hc.users_eq hroute)
  have same : ∀ {db db' : Database}, db' = db → FewerUsers db db' :=
    fun h => fewerUsers_of_eq (congrArg Database.users h)
  cases route with
  | auth r => exact .throw _
  | users r =>
    intro db
    cases r with
    | create d => exact nomatch h
    | findAll => exact same rfl
    | search q =>
      refine wp_map.mpr (wp_bind.mpr (wp_texts.mpr ?_))
      exact ⟨fun _ => same rfl, fun _ => same rfl⟩
    | findOne id =>
      exact wp_map.mpr (UsersService.findById_wp.mono (fun _ _ => same) fun _ _ => same)
    | update id d => exact nomatch h
    | remove id =>
      refine wp_map.mpr (UsersService.remove_wp.mono ?_ fun _ _ => same)
      rintro _ _ ⟨u, -, rfl⟩
      exact Rows.remove_sublist.map _
  | channels r => exact ofGuilds rfl
  | messages r =>
    exact keeps_messagesController (fun _ _ _ => fewerUsers_of_eq rfl)
      fun _ _ _ _ _ => fewerUsers_of_eq rfl
  | events r => exact keeps_eventsController (fun _ _ => fewerUsers_of_eq rfl) r
  | admin r =>
    refine keeps_adminController (fun db us hsame => ?_) (fun _ _ => fewerUsers_of_eq rfl)
      fun _ _ _ _ _ => fewerUsers_of_eq rfl
    rw [FewerUsers, hsame]
  | guilds r => exact ofGuilds rfl

/-! ### Requests that set one -/

theorem Keyed.added {u : User} (h : Keyed db) (hid : u.id ∉ db.users.map (·.id))
    (hunused : UsersService.Unused db u.id u.username) :
    Keyed { db with users := db.users ++ [u] } := by
  constructor
  · refine Rows.nodup_append_of_fresh h.ids (List.nodup_singleton _) ?_
    intro x hx
    rwa [List.mem_singleton.mp hx]
  · refine Rows.nodup_append_of_fresh h.names (List.nodup_singleton _) ?_
    intro x hx hmem
    obtain rfl := List.mem_singleton.mp hx
    obtain ⟨y, hy, hname⟩ := List.mem_map.mp hmem
    refine hunused y hy ?_ hname
    rintro heq
    exact hid (heq ▸ List.mem_map_of_mem hy)

/-- A new row holds what its creation set. -/
theorem Holds.added {latest latest' : Uuid → Option Setting} {u : User} (h : Holds X latest db)
    (hother : ∀ x ∈ db.users, latest' x.id = latest x.id)
    (hset : ∀ v, latest' u.id = some v → u.password = some (v.stored X)) :
    Holds X latest' { db with users := db.users ++ [u] } := by
  intro x hx v hv
  rcases List.mem_append.mp hx with hx | hx
  · exact h x hx v (hother x hx ▸ hv)
  · obtain rfl := List.mem_singleton.mp hx
    exact hset v hv

theorem Keyed.renamed {id : Uuid} {d : UpdateUserDto} (h : Keyed db)
    (hrenamed : UsersService.Renamed db id d db') : Keyed db' := by
  obtain ⟨name, f, hunused, hf, hdb⟩ := hrenamed
  constructor
  · rw [hdb]
    exact Rows.nodup_modify h.ids fun u _ => (hf u).1
  · rw [hdb, Rows.modify, List.map_map]
    refine h.ids.of_map.map_on ?_
    intro x hx y hy heq
    simp only [Function.comp_apply, decide_eq_true_eq] at heq
    by_cases hxid : x.id = id <;> by_cases hyid : y.id = id <;>
      simp only [hxid, hyid, if_true, if_false, (hf _).2.1] at heq
    · exact Rows.eq_of_nodup h.ids hx hy (hxid.trans hyid.symm)
    · exact absurd heq.symm (hunused y hy hyid)
    · exact absurd heq (hunused x hx hxid)
    · exact Rows.eq_of_nodup h.names hx hy heq

theorem Holds.renamed {latest : Uuid → Option Setting} {text : String} {id : Uuid}
    {d : UpdateUserDto} (h : Holds X latest db) (hroute : i.2.route = .users (.update text d))
    (htext : Uuid.parse text = some id) (hrenamed : UsersService.Renamed db id d db') :
    Holds X (fun id => settingBy i id (latest id)) db' := by
  obtain ⟨name, f, -, hf, hdb⟩ := hrenamed
  intro x hx v hv
  rw [hdb] at hx
  obtain ⟨y, hy, rfl⟩ := Rows.mem_modify.mp hx
  simp only [settingBy, hroute, htext, decide_eq_true_eq] at hv ⊢
  by_cases hid : y.id = id
  · simp only [(hf y).1, hid, if_true] at hv
    rw [if_pos hid, (hf y).2.2]
    cases hpass : d.password with
    | absent =>
      rw [hpass] at hv
      exact h y hy v (hid ▸ hv)
    | null =>
      rw [hpass] at hv
      exact nomatch hv
    | value pass =>
      rw [hpass] at hv
      rw [← Option.some.inj hv]
      rfl
  · simp only [if_neg hid, Option.some_inj, Ne.symm hid, if_false] at hv
    rw [if_neg hid]
    exact h y hy v hv

theorem settingBy_of_mem {x : User} (hfresh : FreshStep s i) (hx : x ∈ s.db.users)
    (hroute : ∀ text d, i.2.route ≠ .users (.update text d)) (latest : Option Setting) :
    settingBy i x.id latest = latest := by
  have hne : x.id ≠ i.1.uuids 0 := by
    intro heq
    exact Fresh.uuid_notMem_users hfresh (heq ▸ List.mem_map_of_mem hx)
  unfold settingBy
  split <;> simp_all

/-- What is stored follows the latest settings through a request. -/
theorem step_holds {latest : Uuid → Option Setting} (hfresh : FreshStep s i) (hkeyed : Keyed s.db)
    (h : Holds X latest s.db) :
    wp (handle X i.1 i.2)
      (fun _ s' => Keyed s'.db ∧ Holds X (fun id => settingBy i id (latest id)) s'.db)
      (fun _ s' => Keyed s'.db ∧ Holds X latest s'.db) s := by
  obtain ⟨env, token, route⟩ := i
  have hfreshId : ∀ {u : User}, u.id = env.uuids 0 → u.id ∉ s.db.users.map (·.id) := by
    intro u hid
    rw [hid]
    exact Fresh.uuid_notMem_users hfresh
  apply wp_handle
  · rintro r rfl
    have hother : ∀ x ∈ s.db.users, ∀ v, settingBy (env, ⟨token, .auth r⟩) x.id v = v :=
      fun x hx v => settingBy_of_mem hfresh hx nofun v
    refine authController_wp.mono ?_ ?_
    · rintro _ s' ⟨henrolment, -⟩
      generalize s'.db = after at henrolment
      cases henrolment with
      | @registered d u hu =>
        refine ⟨hkeyed.added (hfreshId hu.id) hu.unused, h.added (fun x hx => hother x hx _) ?_⟩
        intro v hv
        simp only [settingBy, hu.id, if_true, Option.some.injEq] at hv
        rw [hu.password, ← hv]
        rfl
      | @visited t email u hu =>
        refine ⟨hkeyed.added (hfreshId hu.id) hu.unused, h.added (fun x hx => hother x hx _) ?_⟩
        intro v hv
        simp [settingBy, hu.id] at hv
      | same _ => exact ⟨hkeyed, fun x hx v hv => h x hx v ((hother x hx _).symm.trans hv)⟩
    · rintro _ s' hdb
      rw [hdb]
      exact ⟨hkeyed, h⟩
  · intro user _ _
    by_cases hcreate : ∃ d, route = .users (.create d)
    · obtain ⟨d, rfl⟩ := hcreate
      refine wp_map.mpr (UsersService.create_wp.mono ?_ ?_)
      · rintro u _ ⟨hu, rfl⟩
        refine ⟨hkeyed.added (hfreshId hu.id) hu.unused, h.added ?_ ?_⟩
        · exact fun x hx => settingBy_of_mem hfresh hx nofun _
        · intro v hv
          simp only [settingBy, hu.id, if_true] at hv
          obtain ⟨pass, hpass, rfl⟩ := Option.map_eq_some_iff.mp hv
          rw [hu.password, BodyField.nullable_none]
          exact hpass
      · rintro _ _ ⟨rfl, -⟩
        exact ⟨hkeyed, h⟩
    by_cases hupdate : ∃ text d, route = .users (.update text d)
    · obtain ⟨text, d, rfl⟩ := hupdate
      refine wp_map.mpr (UsersService.update_wp.mono ?_ ?_)
      · rintro _ db' ⟨id, htext, -, hrenamed, -⟩
        exact ⟨hkeyed.renamed hrenamed, h.renamed rfl htext hrenamed⟩
      · rintro _ _ ⟨rfl, -⟩
        exact ⟨hkeyed, h⟩
    by_cases hauth : ∃ r, route = .auth r
    · obtain ⟨r, rfl⟩ := hauth
      exact ⟨hkeyed, h⟩
    have hsets : route.setsPassword = false := by
      cases route with
      | auth r => exact absurd ⟨r, rfl⟩ hauth
      | users r =>
        cases r with
        | create d => exact absurd ⟨d, rfl⟩ hcreate
        | update text d => exact absurd ⟨text, d, rfl⟩ hupdate
        | _ => rfl
      | _ => rfl
    have hkeeps : Keeps FewerUsers (guarded X env user route) := guarded_fewerUsers hsets
    refine (hkeeps s.db).mono ?_ ?_
    · intro _ db' hfewer
      simp only [settingBy_of_not (i := (env, ⟨token, route⟩)) hsets]
      exact ⟨hfewer.keyed hkeyed, hfewer.holds h⟩
    · exact fun _ _ hfewer => ⟨hfewer.keyed hkeyed, hfewer.holds h⟩
  · exact fun _ => ⟨hkeyed, h⟩

/-! ### Runs -/

theorem run_holds {latest : Uuid → Option Setting} {is : List (Env × Request)}
    (hfresh : Along (serve X) FreshStep s is) (hkeyed : Keyed s.db) (h : Holds X latest s.db) :
    Keyed (run (serve X) s is).db ∧ Holds X (settings X s latest is) (run (serve X) s is).db := by
  induction is generalizing s latest with
  | nil => exact ⟨hkeyed, h⟩
  | cons i is ih =>
    have hstep := step_holds (X := X) hfresh.1 hkeyed h
    simp only [settings, run]
    cases hout : (serve X s i).1 with
    | ok body =>
      obtain ⟨hkeyed', h'⟩ := hstep.of_returned hout
      exact ih hfresh.2 hkeyed' h'
    | error e =>
      obtain ⟨hkeyed', h'⟩ := hstep.of_thrown hout
      exact ih hfresh.2 hkeyed' h'

/-- The column holds a hash of `pass`, not the text itself, and `validateUser` accepts it and no
other text for the account. -/
structure Verifiable (X : Externals) (s : Server) (x : User) (pass : String) : Prop where
  hashed : ∃ salt, x.password = some (X.bcryptHash salt pass)
  notPlain : x.password ≠ some pass
  accepts : (validateUser X x.username pass).outcome s = .ok (some x.toProfile)
  refuses : ∀ other ≠ pass, (validateUser X x.username other).outcome s = .ok none

/-- bcrypt tells the text from its hash, and from every other text. -/
def TellsApart (X : Externals) (salt pass : String) : Prop :=
  X.bcryptHash salt pass ≠ pass ∧
    ∀ other ≠ pass, ∀ salt', X.bcryptHash salt pass ≠ X.bcryptHash salt' other

theorem validateUser_eq {x : User} (hkeyed : Keyed s.db) (hx : x ∈ s.db.users) {hash : String}
    (hpass : x.password = some hash) (hne : hash ≠ "") (pass : String) :
    (validateUser X x.username pass).outcome s =
      .ok (if X.bcryptCompare pass hash then some x.toProfile else none) := by
  have hfound : s.db.users.find? (·.username = x.username) = some x := by
    cases hfind : s.db.users.find? (·.username = x.username) with
    | none =>
      have := List.find?_eq_none.mp hfind x hx
      simp at this
    | some y =>
      have hname : y.username = x.username := by simpa using List.find?_some hfind
      rw [Rows.eq_of_nodup hkeyed.names (List.mem_of_find?_eq_some hfind) hx hname]
  show Except.ok _ = _
  simp [hfound, hpass, hne]

/-- In a run with fresh ids from an empty server, the password of an account can be verified exactly
when a registration was the latest request to set it, and bcrypt tells that password from others. -/
theorem password_verifiable_iff (hX : Bcrypt X) {is : List (Env × Request)}
    (hfresh : Along (serve X) FreshStep Server.empty is) {x : User}
    (hx : x ∈ (run (serve X) Server.empty is).db.users) {v : Setting}
    (hlatest : settings X Server.empty (fun _ => none) is x.id = some v) :
    Verifiable X (run (serve X) Server.empty is) x v.pass ↔
      ∃ salt pass, v = .hashed salt pass ∧ TellsApart X salt pass := by
  have hempty : Keyed Server.empty.db := ⟨List.nodup_nil, List.nodup_nil⟩
  have hholds : Holds X (fun _ => none) Server.empty.db := fun _ _ _ hv => nomatch hv
  obtain ⟨hkeyed, hstored⟩ := run_holds hfresh hempty hholds
  have hpassword := hstored x hx v hlatest
  cases v with
  | plain pass =>
    constructor
    · exact fun h => absurd hpassword h.notPlain
    · exact nofun
  | hashed salt pass =>
    have hvalidate := validateUser_eq (X := X) hkeyed hx hpassword (hX.nonempty salt pass)
    constructor
    · intro h
      refine ⟨salt, pass, rfl, fun heq => h.notPlain (heq ▸ hpassword), ?_⟩
      intro other hother salt' hsame
      have haccepted := (hX.compare_iff other (X.bcryptHash salt pass)).mpr ⟨salt', hsame⟩
      have hrefused := h.refuses other hother
      rw [hvalidate, Setting.stored, haccepted] at hrefused
      exact nomatch hrefused
    · rintro ⟨_, _, ⟨rfl, rfl⟩, hself, hapart⟩
      constructor
      · exact ⟨salt, hpassword⟩
      · rw [hpassword]
        exact fun heq => hself (Option.some.inj heq)
      · have haccepted := (hX.compare_iff pass (X.bcryptHash salt pass)).mpr ⟨salt, rfl⟩
        rw [hvalidate, Setting.stored, Setting.pass, haccepted]
        rfl
      · intro other hother
        have hrefused : X.bcryptCompare other (X.bcryptHash salt pass) = false := by
          rw [← Bool.not_eq_true, hX.compare_iff]
          exact fun ⟨salt', hsame⟩ => hapart other hother salt' hsame
        rw [hvalidate, Setting.stored, hrefused]
        rfl

/-- A hash that is the password with a prefix. -/
def prefixedHashes : Externals :=
  { sampleExternals with bcryptHash := fun _ pass => "$2b$" ++ pass }

theorem prefixedHashes_bcrypt : Bcrypt prefixedHashes := by
  constructor
  · intro pass hash
    simp [prefixedHashes, sampleExternals, eq_comm]
  · intro salt pass
    simp [prefixedHashes]

theorem prefixedHashes_tellsApart (salt : String) : TellsApart prefixedHashes salt "secret" := by
  refine ⟨?_, ?_⟩
  · show "$2b$" ++ "secret" ≠ "secret"
    decide +kernel
  intro other hother _ hsame
  have heq : "$2b$" ++ "secret" = "$2b$" ++ other := hsame
  rw [String.ext_iff, String.toList_append, String.toList_append] at heq
  exact hother (String.ext_iff.mpr (List.append_cancel_left heq).symm)

/-- Alice registers. -/
def passwordRun : List (Env × Request) :=
  [(sampleEnv 1, ⟨none, .auth (.register ⟨"alice", "alice@mail", "secret"⟩)⟩)]

/-- Alice registers and then changes her password. -/
def changedPasswordRun : List (Env × Request) :=
  passwordRun ++ [(sampleEnv 2, ⟨some (sampleToken 1 "alice"),
    .users (.update alice.id.toText ⟨.absent, .absent, .value "secret2", .absent, .absent⟩)⟩)]

/-- Alice's row with the given password. -/
def aliceRow (password : String) (updatedAt : Date) : User :=
  { alice with updatedAt, password := some password }

/-- The password that Alice registers with can be verified. -/
theorem registered_password_verifiable :
    Verifiable prefixedHashes (run (serve prefixedHashes) Server.empty passwordRun)
      (aliceRow "$2b$secret" 1000) "secret" := by
  have hfresh : Along (serve prefixedHashes) FreshStep Server.empty passwordRun := by
    decide +kernel
  exact (password_verifiable_iff prefixedHashes_bcrypt hfresh (by decide +kernel)
    (v := .hashed "$2b$" "secret") (by decide +kernel)).mpr
    ⟨"$2b$", "secret", rfl, prefixedHashes_tellsApart "$2b$"⟩

/-- The password that Alice changes hers to is stored as it is, and is refused. -/
theorem changed_password_refused :
    let s := run (serve prefixedHashes) Server.empty changedPasswordRun
    aliceRow "secret2" 2000 ∈ s.db.users ∧
      settings prefixedHashes Server.empty (fun _ => none) changedPasswordRun alice.id =
        some (.plain "secret2") ∧
      (validateUser prefixedHashes "alice" "secret2").outcome s = .ok none ∧
      ¬Verifiable prefixedHashes s (aliceRow "secret2" 2000) "secret2" := by
  intro s
  refine ⟨by decide +kernel, by decide +kernel, by decide +kernel, fun h => ?_⟩
  exact absurd rfl h.notPlain

end VoxLink
