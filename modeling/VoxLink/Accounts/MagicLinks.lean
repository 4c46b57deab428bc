import VoxLink.Accounts.Sessions
import VoxLink.Accounts.Clock

/-! `verifyMagicLink` cut at its `await`s. Calls that carry one token may all read it before the
first of them deletes it. -/

namespace VoxLink

open ProofKit Prog AuthService

/-! ### The turns of a call -/

/-- A call of `verifyMagicLink`. -/
structure Verification where
  env : Env
  token : String

/-- What a call awaits, with what it has loaded. -/
inductive VerificationAwaits where
  | get
  | del (email : String)
  | find (email : String)
  | create (email username : String)
deriving DecidableEq, Repr

namespace Verification

variable (X : Externals)

/-- The insertion of an account by its email, and the token for it. -/
def enrol (env : Env) (email username : String) : Backend Session := do
  let user ← onDb (UsersService.create env
    { username, email := .value email, password := .absent, role := .value "member"
      avatar := .absent, status := .value "online" })
  signUser X env user.toProfile

/-- What a call does when what it awaits is there, up to the next `await`. -/
def turnAt (v : Verification) (now : Date) :
    VerificationAwaits → Backend (VerificationAwaits ⊕ Session)
  | .get => do
    let stored ← redisGet (v.env.at now) 0 (magicKey v.token)
    let email ← orThrow (.unauthorized "Invalid or expired magic link") (magicEmail stored)
    pure (.inl (.del email))
  | .del email => do
    if v.env.redisFails 1 then pure ()
    else write fun s => { s with redis := s.redis.del (magicKey v.token) }
    pure (.inl (.find email))
  | .find email => do
    let found ← query fun s => findByEmail email s.db
    match found with
    | some user => .inr <$> signUser X (v.env.at now) user
    | none => pure (.inl (.create email ("user_" ++ toString now)))
  | .create email username => .inr <$> enrol X (v.env.at now) email username

def turn (v : Verification) (w : VerificationAwaits) :
    Prog Exception Clocked (VerificationAwaits ⊕ Session) :=
  clocked (v.turnAt X · w)

/-- The rest of a call from where it stands. -/
def restAt (v : Verification) (now : Date) : VerificationAwaits → Backend Session
  | .get => verifyMagicLink X (v.env.at now) v.token
  | .del email => do
    if v.env.redisFails 1 then pure ()
    else write fun s => { s with redis := s.redis.del (magicKey v.token) }
    signInByEmail X (v.env.at now) email
  | .find email => signInByEmail X (v.env.at now) email
  | .create email username => enrol X (v.env.at now) email username

/-- The turns that a call still needs after the next. -/
def left : VerificationAwaits → Nat
  | .get => 3
  | .del _ => 2
  | .find _ => 1
  | .create _ _ => 0

abbrev move := advance (turn X)

variable {X} {c : Clocked} {v : Verification} {w : VerificationAwaits}

theorem restAt_turn (now : Date) (w : VerificationAwaits) :
    v.restAt X now w = v.turnAt X now w >>= fun x => Sum.elim (v.restAt X now) pure x := by
  cases w with
  | get =>
    simp only [turnAt, restAt, verifyMagicLink, bind_assoc, pure_bind,
      Sum.elim_inl]
    rfl
  | del email =>
    simp only [turnAt, restAt]
    split <;> rfl
  | find email =>
    simp only [turnAt, restAt, signInByEmail, bind_assoc]
    refine bind_congr fun found => ?_
    cases found with
    | some user => simp only [bind_map_left, Sum.elim_inr, bind_pure]
    | none =>
      simp only [pure_bind, Sum.elim_inl]
      rfl
  | create email username =>
    simp only [turnAt, restAt, bind_map_left, Sum.elim_inr, bind_pure]

/-! ### What a turn does -/

/-- The email that a call finds under its token. -/
def finds (v : Verification) (c : Clocked) : Option String :=
  magicEmail (c.server.redis.get c.now (magicKey v.token))

theorem get_wp :
    wp (v.turn X .get) (fun x c' => c' = c ∧ ∃ email, x = .inl (.del email) ∧
      v.finds c = some email) (fun _ c' => c' = c) c := by
  apply wp_clocked.mpr
  simp only [turnAt, redisGet, wp_bind, wp_throwIf, wp_query, wp_orThrow, wp_pure,
    implies_true, and_true, true_and]
  exact fun _ email hemail => ⟨email, rfl, hemail⟩

theorem del_wp {email : String} :
    wp (v.turn X (.del email)) (fun x c' => x = .inl (.find email) ∧
        c' = if v.env.redisFails 1 then c else c.del (magicKey v.token))
      (fun _ _ => False) c := by
  apply wp_clocked.mpr
  simp only [turnAt]
  split
  · exact ⟨rfl, rfl⟩
  · exact ⟨rfl, rfl⟩

/-- A turn that leaves Redis and the tables alone. -/
def SameStores (c c' : Clocked) : Prop :=
  c'.server.redis = c.server.redis ∧ c'.server.db = c.server.db

theorem find_wp {email : String} :
    wp (v.turn X (.find email))
      (fun x c' => SameStores c c' ∧ ((∃ s, x = .inr s) ∨ ∃ u, x = .inl (.create email u)))
      (fun _ _ => False) c := by
  apply wp_clocked.mpr
  simp only [turnAt, wp_bind, wp_query]
  split
  · exact ⟨⟨rfl, rfl⟩, .inl ⟨_, rfl⟩⟩
  · exact ⟨⟨rfl, rfl⟩, .inr ⟨_, rfl⟩⟩

/-- The account that a call creates is the first with its email. -/
def Creates (env : Env) (email : String) (db db' : Database) : Prop :=
  (∀ x ∈ db.users, x.id ≠ env.uuids 0 → x.email ≠ some email) ∧
    ∃ u : User, u.email = some email ∧ db' = { db with users := db.users ++ [u] }

theorem insertByEmail_wp (env : Env) {email username : String} {db : Database} :
    wp (UsersService.create env
        ⟨username, .value email, .absent, .value "member", .absent, .value "online"⟩)
      (fun _ db' => Creates env email db db') (fun _ db' => db' = db) db := by
  simp only [UsersService.create, UsersService.insertUser, UsersService.uniqueColumns, wp_bind,
    wp_texts, wp_column, wp_query, wp_throwIf, wp_write, wp_pure, implies_true, and_true]
  intro _ role _ status _ _ htaken
  constructor
  · intro x hx hid hemail
    simp only [List.any_eq_false] at htaken
    exact htaken x hx (by simp [hid, hemail, BodyField.nullable])
  · exact ⟨_, rfl, rfl⟩

theorem create_wp {email username : String} :
    wp (v.turn X (.create email username))
      (fun x c' => (∃ s, x = .inr s) ∧ c'.server.redis = c.server.redis ∧
        Creates v.env email c.server.db c'.server.db)
      (fun _ c' => c' = c) c := by
  apply wp_clocked.mpr
  simp only [turnAt, enrol, wp_map, wp_bind, wp_onDb]
  apply (insertByEmail_wp (v.env.at c.now)).mono
  · intro user db' hcreates
    exact ⟨⟨_, rfl⟩, rfl, hcreates⟩
  · rintro _ _ rfl
    rfl

theorem left_lt {w' : VerificationAwaits} {c c' : Clocked}
    (h : v.turn X w c = .ok (.inl w') c') : left w' < left w := by
  cases w with
  | get =>
    obtain ⟨-, email, hx, -⟩ := get_wp.of_ok h
    rw [Sum.inl.inj hx]
    exact Nat.lt_succ_self _
  | del email =>
    obtain ⟨hx, -⟩ := del_wp.of_ok h
    rw [Sum.inl.inj hx]
    exact Nat.lt_succ_self _
  | find email =>
    rcases (find_wp.of_ok h).2 with ⟨s, hx⟩ | ⟨u, hx⟩
    · exact nomatch hx
    · rw [Sum.inl.inj hx]
      exact Nat.zero_lt_one
  | create email username =>
    obtain ⟨⟨s, hx⟩, -⟩ := create_wp.of_ok h
    exact nomatch hx

/-- A call that is not interrupted does what `verifyMagicLink` does. -/
theorem verification_alone :
    run (Pool.turn (move X)) ⟨[(v, .awaits .get)], c⟩ (List.replicate 4 0) =
      ⟨[(v, .ended ((verifyMagicLink X (v.env.at c.now) v.token).outcome c.server))],
        { c with server := (verifyMagicLink X (v.env.at c.now) v.token).final c.server }⟩ := by
  have hprog : ∀ w, clocked (v.restAt X · w) = v.turn X w >>= fun x =>
      Sum.elim (fun w => clocked (v.restAt X · w)) pure x :=
    clocked_rest fun now w => restAt_turn now w
  rw [run_course hprog (fun _ _ _ _ => left_lt) (show left .get < 4 by decide)]
  simp only [Prog.outcome, Prog.final, clocked, within, restAt]
  cases verifyMagicLink X (v.env.at c.now) v.token c.server <;> rfl

/-- What a turn of a call makes of what it awaits and of the server. -/
inductive Moves (v : Verification) (c : Clocked) :
    VerificationAwaits → Course VerificationAwaits Exception Session → Clocked → Prop
  | found {email : String} : v.finds c = some email → Moves v c .get (.awaits (.del email)) c
  | refused {e : Exception} : Moves v c .get (.ended (.error e)) c
  | deleted {email : String} : Moves v c (.del email) (.awaits (.find email))
      (if v.env.redisFails 1 then c else c.del (magicKey v.token))
  | signed {email : String} {s : Session} {c' : Clocked} : SameStores c c' →
      Moves v c (.find email) (.ended (.ok s)) c'
  | unknown {email username : String} {c' : Clocked} : SameStores c c' →
      Moves v c (.find email) (.awaits (.create email username)) c'
  | created {email username : String} {s : Session} {c' : Clocked} :
      c'.server.redis = c.server.redis → Creates v.env email c.server.db c'.server.db →
      Moves v c (.create email username) (.ended (.ok s)) c'
  | taken {email username : String} {e : Exception} :
      Moves v c (.create email username) (.ended (.error e)) c

theorem move_moves : Moves v c w (move X (v, .awaits w) c).1.2
    (move X (v, .awaits w) c).2 := by
  apply advance_of_wp (C := fun l c' => Moves v c w l.2 c')
  cases w with
  | get =>
    apply get_wp.mono
    · rintro _ _ ⟨rfl, email, rfl, hfinds⟩
      exact .found hfinds
    · rintro _ _ rfl
      exact .refused
  | del email =>
    apply del_wp.mono
    · rintro _ _ ⟨rfl, rfl⟩
      exact .deleted
    · exact fun _ _ h => h.elim
  | find email =>
    apply find_wp.mono
    · rintro _ _ ⟨hsame, ⟨s, rfl⟩ | ⟨u, rfl⟩⟩
      · exact .signed hsame
      · exact .unknown hsame
    · exact fun _ _ h => h.elim
  | create email username =>
    apply create_wp.mono
    · rintro _ _ ⟨⟨s, rfl⟩, hredis, hcreates⟩
      exact .created hredis hcreates
    · rintro _ _ rfl
      exact .taken

/-! ### Calls that take turns -/

abbrev Call := Verification × Course VerificationAwaits Exception Session

namespace Call

/-- The call has read the token and not yet deleted it. -/
def reading (l : Call) : Bool :=
  match l.2 with
  | .awaits (.del _) => true
  | _ => false

/-- The call has deleted the token and goes on to sign, or has signed. -/
def passed (l : Call) : Bool :=
  match l.2 with
  | .awaits (.find _) | .awaits (.create _ _) | .ended (.ok _) => true
  | _ => false

/-- The call has returned an access token. -/
def signed (l : Call) : Bool :=
  match l.2 with
  | .ended (.ok _) => true
  | _ => false

/-- The next turn of the call reads the token. -/
def reads (l : Call) (c : Clocked) : Bool :=
  match l.2 with
  | .awaits .get => (l.1.finds c).isSome
  | _ => false

/-- The id for an account of the call, unless it has ended, is not taken. -/
def fresh (l : Call) (c : Clocked) : Bool :=
  match l.2 with
  | .awaits _ => l.1.env.uuids 0 ∉ c.server.db.users.map (·.id)
  | .ended _ => true

end Call

/-- Calls that have not been started. -/
def calls (vs : List Verification) (c : Clocked) : Pool Call Clocked :=
  ⟨vs.map (·, .awaits .get), c⟩

/-- Call `k` takes its turn, or time passes. -/
abbrev step (X : Externals) : Pool Call Clocked → Nat ⊕ Nat → Unit × Pool Call Clocked :=
  Pool.step (move X) Clocked.pass

/-- A call reads the token while another has read it and not yet deleted it. -/
def readsAgain (p : Pool Call Clocked) : Nat ⊕ Nat → Bool
  | .inl k => p.jobs[k]?.any (·.reads p.state) && p.jobs.any Call.reading
  | .inr _ => false

/-- The call whose turn it is has an id of its own for an account. -/
def FreshCall (p : Pool Call Clocked) : Nat ⊕ Nat → Prop
  | .inl k => ∀ l ∈ p.jobs[k]?, l.fresh p.state = true
  | .inr _ => True

instance : ∀ (p : Pool Call Clocked) (i : Nat ⊕ Nat), Decidable (FreshCall p i)
  | p, .inl k => inferInstanceAs (Decidable (∀ l ∈ p.jobs[k]?, l.fresh p.state = true))
  | _, .inr _ => inferInstanceAs (Decidable True)

/-- Of the calls with the token, at most one has read it; when that one goes on, the token is
gone. -/
structure OnePasses (token : String) (p : Pool Call Clocked) : Prop where
  calls : ∀ l ∈ p.jobs, l.1.token = token ∧ l.1.env.redisFails 1 = false
  one : p.jobs.countP Call.reading + p.jobs.countP Call.passed ≤ 1
  gone : 0 < p.jobs.countP Call.passed → magicKey token ∉ p.state.server.redis.map (·.1)

variable {p : Pool Call Clocked} {token : String}

theorem finds_of_notMem (h : magicKey v.token ∉ c.server.redis.map (·.1)) : v.finds c = none := by
  rw [finds, Keyspace.get, Keyspace.entry, List.find?_eq_none.mpr]
  · rfl
  · intro e he hkey
    have hkey := (by simpa using hkey : e.1 = magicKey v.token ∧ _).1
    exact h (List.mem_map.mpr ⟨e, he, hkey⟩)

theorem notMem_del : magicKey token ∉ (c.del (magicKey token)).server.redis.map (·.1) := by
  simp [Clocked.del, Keyspace.del]

theorem turn_onePasses {k : Nat} (h : OnePasses token p) (hreads : readsAgain p (.inl k) = false) :
    OnePasses token (p.turn (move X) k).2 := by
  apply turn_moves (M := Moves) (fun _ _ _ => move_moves) h
  intro v w course c hk hmoves
  obtain ⟨htoken, havailable⟩ := h.calls _ (List.mem_of_getElem? hk)
  have hcalls : ∀ l ∈ p.jobs.set k (v, course),
      l.1.token = token ∧ l.1.env.redisFails 1 = false := by
    intro l hl
    rcases List.mem_or_eq_of_mem_set hl with hold | rfl
    · exact h.calls l hold
    · exact ⟨htoken, havailable⟩
  have hreading := set_countP (v, course) Call.reading hk
  have hpassed := set_countP (v, course) Call.passed hk
  have hone := h.one
  have hgone := h.gone
  suffices hnext : (p.jobs.set k (v, course)).countP Call.reading +
      (p.jobs.set k (v, course)).countP Call.passed ≤ 1 ∧
      (0 < (p.jobs.set k (v, course)).countP Call.passed →
        magicKey token ∉ c.server.redis.map (·.1)) from ⟨hcalls, hnext.1, hnext.2⟩
  dsimp only at htoken havailable
  subst htoken
  cases hmoves with
  | found hfinds =>
    -- the token is there, and no other call has read it
    have hnone : p.jobs.countP Call.reading = 0 := by
      apply List.countP_eq_zero.mpr
      intro l hl hlreading
      have hany : p.jobs.any Call.reading = true := List.any_eq_true.mpr ⟨l, hl, hlreading⟩
      simp [readsAgain, hk, Call.reads, hfinds, hany] at hreads
    have hnobody : ¬0 < p.jobs.countP Call.passed := by
      intro hpos
      rw [finds_of_notMem (hgone hpos)] at hfinds
      exact nomatch hfinds
    simp [Call.reading, Call.passed] at hreading hpassed
    exact ⟨by omega, fun hpos => absurd hpos (by omega)⟩
  | refused =>
    simp [Call.reading, Call.passed] at hreading hpassed
    exact ⟨by omega, fun hpos => hgone (by omega)⟩
  | deleted =>
    simp [Call.reading, Call.passed] at hreading hpassed
    rw [havailable]
    exact ⟨by omega, fun _ => notMem_del⟩
  | signed hsame =>
    simp [Call.reading, Call.passed] at hreading hpassed
    exact ⟨by omega, fun hpos => hsame.1 ▸ hgone (by omega)⟩
  | unknown hsame =>
    simp [Call.reading, Call.passed] at hreading hpassed
    exact ⟨by omega, fun hpos => hsame.1 ▸ hgone (by omega)⟩
  | created hredis =>
    simp [Call.reading, Call.passed] at hreading hpassed
    exact ⟨by omega, fun hpos => hredis ▸ hgone (by omega)⟩
  | taken =>
    simp [Call.reading, Call.passed] at hreading hpassed
    exact ⟨by omega, fun hpos => hgone (by omega)⟩

theorem step_onePasses (h : OnePasses token p) (i : Nat ⊕ Nat) (hreads : readsAgain p i = false) :
    OnePasses token (step X p i).2 := by
  cases i with
  | inl k => exact turn_onePasses h hreads
  | inr ms => exact ⟨h.calls, h.one, h.gone⟩

/-- The accounts of `us` and new ones, no two of these with one email. -/
def Enrols (us : List User) (p : Pool Call Clocked) : Prop :=
  ∃ created, p.state.server.db.users = us ++ created ∧
    ∀ email, created.countP (·.email = some email) ≤ 1

theorem enrols_creates {us : List User} {db db' : Database} {env : Env} {email : String}
    (hcreates : Creates env email db db') (hfresh : env.uuids 0 ∉ db.users.map (·.id))
    {created : List User} (husers : db.users = us ++ created)
    (hone : ∀ email, created.countP (·.email = some email) ≤ 1) :
    ∃ created, db'.users = us ++ created ∧ ∀ email, created.countP (·.email = some email) ≤ 1 := by
  obtain ⟨hfirst, u, hu, rfl⟩ := hcreates
  refine ⟨created ++ [u], by simp [husers], fun email' => ?_⟩
  rw [List.countP_append, List.countP_singleton]
  by_cases heq : email = email'
  · subst heq
    have hnone : created.countP (·.email = some email) = 0 := by
      apply List.countP_eq_zero.mpr
      intro x hx hemail
      have hmem : x ∈ db.users := by
        rw [husers]
        exact List.mem_append_right _ hx
      have hid : x.id ≠ env.uuids 0 := fun hid => hfresh (List.mem_map.mpr ⟨x, hmem, hid⟩)
      exact hfirst x hmem hid (by simpa using hemail)
    simp [hnone, hu]
  · simpa [hu, heq] using hone email'

theorem step_enrols {us : List User} (h : Enrols us p) (i : Nat ⊕ Nat) (hfresh : FreshCall p i) :
    Enrols us (step X p i).2 := by
  cases i with
  | inr ms => exact h
  | inl k =>
    apply turn_moves (M := Moves) (fun _ _ _ => move_moves) h
    intro v w course c hk hmoves
    obtain ⟨created, husers, hone⟩ := h
    cases hmoves with
    | found | refused | taken => exact ⟨created, husers, hone⟩
    | deleted =>
      refine ⟨created, ?_, hone⟩
      dsimp only
      split
      · exact husers
      · exact husers
    | signed hsame => exact ⟨created, hsame.2 ▸ husers, hone⟩
    | unknown hsame => exact ⟨created, hsame.2 ▸ husers, hone⟩
    | created hredis hcreates =>
      exact enrols_creates hcreates (of_decide_eq_true (hfresh _ hk)) husers hone

variable {vs : List Verification} {is : List (Nat ⊕ Nat)}

theorem onePasses_calls (hvs : ∀ v ∈ vs, v.token = token ∧ v.env.redisFails 1 = false) :
    OnePasses token (calls vs c) := by
  have hnone : ∀ f : Call → Bool, (∀ v, f (v, .awaits .get) = false) →
      (calls vs c).jobs.countP f = 0 := by
    intro f hf
    simp [calls, List.countP_map, List.countP_eq_zero, hf]
  constructor
  · intro l hl
    obtain ⟨v, hv, rfl⟩ := List.mem_map.mp hl
    exact hvs v hv
  · rw [hnone _ fun _ => rfl, hnone _ fun _ => rfl]
    exact Nat.zero_le 1
  · rw [hnone _ fun _ => rfl]
    exact fun hpos => absurd hpos (Nat.lt_irrefl 0)

theorem signed_le_passed (jobs : List Call) :
    jobs.countP Call.signed ≤ jobs.countP Call.passed := by
  apply List.countP_mono_left
  rintro ⟨v, course⟩ _ hsigned
  unfold Call.signed at hsigned
  split at hsigned
  · next o ho =>
    dsimp only at ho
    rw [ho]
    rfl
  · exact nomatch hsigned

/-- A magic token signs in one call when no call reads it between another's reading and deletion of
it, and it creates one account whatever the order. -/
theorem magic_link_single_use (X : Externals) (token : String) (vs : List Verification)
    (c : Clocked) (is : List (Nat ⊕ Nat))
    (hvs : ∀ v ∈ vs, v.token = token ∧ ∀ site, v.env.redisFails site = false)
    (hfresh : Along (step X) FreshCall (calls vs c) is) :
    (Along (step X) (fun p i => readsAgain p i = false) (calls vs c) is →
      (run (step X) (calls vs c) is).jobs.countP Call.signed ≤ 1) ∧
    ∃ created, (run (step X) (calls vs c) is).state.server.db.users = c.server.db.users ++ created ∧
      ∀ email, created.countP (·.email = some email) ≤ 1 := by
  constructor
  · intro hreads
    have h : OnePasses token (run (step X) (calls vs c) is) :=
      hreads.invariant (fun p i h hi => step_onePasses h i hi)
        (onePasses_calls fun v hv => ⟨(hvs v hv).1, (hvs v hv).2 1⟩)
    have hsigned := signed_le_passed (run (step X) (calls vs c) is).jobs
    have hone := h.one
    omega
  · apply hfresh.invariant (I := Enrols c.server.db.users) (fun p i h hi => step_enrols h i hi)
    exact ⟨[], (List.append_nil _).symm, fun email => Nat.zero_le 1⟩

/-- A magic link has been sent to Alice, who has no account. -/
def linkSent : Clocked :=
  ⟨1000, (sendMagicLink (sampleEnv 1) "alice@mail").final Server.empty⟩

/-- The link is opened twice. -/
def openedTwice : List Verification :=
  [⟨sampleEnv 2, (sampleUuid 1 0).toText⟩, ⟨sampleEnv 3, (sampleUuid 1 0).toText⟩]

theorem openedTwice_token : ∀ v ∈ openedTwice,
    v.token = (sampleUuid 1 0).toText ∧ ∀ site, v.env.redisFails site = false := by
  intro v hv
  rcases List.mem_cons.mp hv with rfl | hv
  · exact ⟨rfl, fun _ => rfl⟩
  · rw [List.mem_singleton.mp hv]
    exact ⟨rfl, fun _ => rfl⟩

/-- The second call begins when the first has deleted the token. -/
def oneAfterAnother : List (Nat ⊕ Nat) :=
  [.inr 1000, .inl 0, .inl 0, .inl 1, .inl 0, .inr 1000, .inl 0]

theorem oneAfterAnother_signsOnce :
    (run (step sampleExternals) (calls openedTwice linkSent) oneAfterAnother).jobs.countP
      Call.signed ≤ 1 :=
  (magic_link_single_use sampleExternals (sampleUuid 1 0).toText openedTwice linkSent
    oneAfterAnother openedTwice_token (by decide +kernel)).1 (by decide +kernel)

/-- Both calls read the token before either deletes it. -/
def bothAtOnce : List (Nat ⊕ Nat) :=
  [.inr 1000, .inl 0, .inl 1, .inl 0, .inl 1, .inl 0, .inl 0, .inl 1]

theorem bothAtOnce_signsTwice :
    (∀ v ∈ openedTwice, v.token = (sampleUuid 1 0).toText ∧
      ∀ site, v.env.redisFails site = false) ∧
    Along (step sampleExternals) FreshCall (calls openedTwice linkSent) bothAtOnce ∧
    ¬(run (step sampleExternals) (calls openedTwice linkSent) bothAtOnce).jobs.countP
      Call.signed ≤ 1 :=
  ⟨openedTwice_token, by decide +kernel, by decide +kernel⟩

end Verification

end VoxLink
