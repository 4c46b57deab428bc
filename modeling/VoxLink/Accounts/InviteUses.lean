import VoxLink.Accounts.Clock
import VoxLink.Accounts.Sessions

/-! `login` cut at its `await`s. The uses of an invite are read in one turn and stored two turns
later; what another request stores in between is lost. -/

namespace VoxLink

open ProofKit Prog AuthService

/-- A request to log in. -/
structure Login where
  env : Env
  body : LoginDto

/-- What a login awaits, with what it has loaded. -/
inductive LoginAwaits where
  | check
  | ttl (token : String) (counted : InviteData)
  | save (token : String) (counted : InviteData) (ttl : Int)
  | email (email : String)
  | username (username : String)
deriving DecidableEq, Repr

namespace Login

variable (X : Externals)

/-! ### The turns of a login -/

def countUse (d : InviteData) : InviteData := { d with uses := d.uses + 1 }

/-- The search by username, when the body has one. -/
def seekByUsername (r : Login) : Backend (LoginAwaits ⊕ Session) :=
  match r.body.username.truthy with
  | some username => pure (.inl (.username username))
  | none => throw (.unauthorized "User not found")

/-- The search for the account, first by email. -/
def seek (r : Login) : Backend (LoginAwaits ⊕ Session) :=
  match r.body.email.truthy with
  | some email => pure (.inl (.email email))
  | none => r.seekByUsername

/-- The check of an invite, when the body has its token. -/
def checkInvite (r : Login) (now : Date) (token : String) : Backend (LoginAwaits ⊕ Session) := do
  let stored ← redisGet (r.env.at now) 0 (inviteKey token)
  match stored with
  | none => throw (.unauthorized "Invalid or expired invite token")
  | some (.invite invite) =>
    throwIf (invite.maxUses ≠ 0 && invite.maxUses ≤ invite.uses)
      (.unauthorized "Invite has reached maximum uses")
    pure (.inl (.ttl token (countUse invite)))
  | some _ => throw .syntaxError

/-- What a login does when what it awaits is there, up to the next `await`. -/
def turnAt (r : Login) (now : Date) : LoginAwaits → Backend (LoginAwaits ⊕ Session)
  | .check => do
    throwIf (r.body.inviteToken.truthy.isNone && r.body.email.truthy.isNone)
      (.unauthorized "Invalid login flow")
    match r.body.inviteToken.truthy with
    | some token => r.checkInvite now token
    | none => r.seek
  | .ttl token counted =>
    if r.env.redisFails 1 then r.seek
    else do
      let ttl ← query fun s => s.redis.ttl now (inviteKey token)
      pure (.inl (.save token counted ttl))
  | .save token counted ttl => do
    let _ ← setex (r.env.at now) 2 (inviteKey token) ttl (.invite counted)
    r.seek
  | .email email => do
    let found ← query fun s => findByEmail email s.db
    match found with
    | some user => .inr <$> signUser X (r.env.at now) user
    | none => r.seekByUsername
  | .username username => do
    let found ← query fun s => findByUsername username s.db
    let user ← orThrow (.unauthorized "User not found") found
    .inr <$> signUser X (r.env.at now) user

def turn (r : Login) (w : LoginAwaits) : Prog Exception Clocked (LoginAwaits ⊕ Session) :=
  clocked (r.turnAt X · w)

/-- The search for the account and the token for it. -/
def signFound (r : Login) (now : Date) (find : Database → Option Profile) : Backend Session := do
  let found ← query fun s => find s.db
  let user ← orThrow (.unauthorized "User not found") found
  signUser X (r.env.at now) user

/-- Stores the count of an invite for its remaining lifetime. -/
def storeCount (r : Login) (now : Date) (token : String) (counted : InviteData) :
    Backend Unit := do
  if r.env.redisFails 1 then pure ()
  else
    let ttl ← query fun s => s.redis.ttl now (inviteKey token)
    let _ ← setex (r.env.at now) 2 (inviteKey token) ttl (.invite counted)

/-- The rest of a login from where it stands. -/
def restAt (r : Login) (now : Date) : LoginAwaits → Backend Session
  | .check => login X (r.env.at now) r.body
  | .ttl token counted => do
    r.storeCount now token counted
    r.signFound X now (loginUser r.body)
  | .save token counted ttl => do
    let _ ← setex (r.env.at now) 2 (inviteKey token) ttl (.invite counted)
    r.signFound X now (loginUser r.body)
  | .email email => r.signFound X now fun db =>
      (findByEmail email db).or (r.body.username.truthy.bind fun username =>
        findByUsername username db)
  | .username username => r.signFound X now (findByUsername username)

/-- The turns that a login still needs after the next. -/
def left : LoginAwaits → Nat
  | .check => 4
  | .ttl _ _ => 3
  | .save _ _ _ => 2
  | .email _ => 1
  | .username _ => 0

abbrev move := advance (turn X)

variable {X} {r : Login} {w : LoginAwaits} {c : Clocked} {now : Date}

theorem signFound_at {find : Database → Option Profile} {s : Server} {found : Option Profile}
    (h : find s.db = found) : r.signFound X now find s =
      (orThrow (.unauthorized "User not found") found >>= fun user =>
        signUser X (r.env.at now) user) s := by
  subst h
  rfl

theorem seekByUsername_rest : (r.seekByUsername >>= fun x => Sum.elim (r.restAt X now) pure x) =
    r.signFound X now fun db => r.body.username.truthy.bind fun username =>
      findByUsername username db := by
  unfold seekByUsername
  cases r.body.username.truthy with
  | some username => rfl
  | none => rfl

theorem seek_rest : (r.seek >>= fun x => Sum.elim (r.restAt X now) pure x) =
    r.signFound X now (loginUser r.body) := by
  unfold seek loginUser
  cases hemail : r.body.email.truthy with
  | some email => rfl
  | none =>
    dsimp only
    rw [seekByUsername_rest]
    rfl

theorem restAt_turn (now : Date) (w : LoginAwaits) :
    r.restAt X now w = r.turnAt X now w >>= fun x => Sum.elim (r.restAt X now) pure x := by
  cases w with
  | check =>
    simp only [restAt, turnAt, login, bind_assoc]
    congr 1
    funext _
    cases r.body.inviteToken.truthy with
    | none =>
      dsimp only
      rw [seek_rest]
      rfl
    | some token =>
      simp only [checkInvite, useInvite, bind_assoc]
      congr 1
      funext stored
      rcases stored with _ | _ | invite | _
      · rfl
      · rfl
      · simp only [bind_assoc, pure_bind, Sum.elim_inl]
        rfl
      · rfl
  | ttl token counted =>
    simp only [restAt, turnAt, storeCount]
    split
    · rw [seek_rest]
      rfl
    · simp only [bind_assoc, pure_bind, Sum.elim_inl]
      rfl
  | save token counted ttl =>
    simp only [restAt, turnAt, bind_assoc, seek_rest]
  | email email =>
    funext s
    simp only [restAt, turnAt, bind_assoc]
    have hquery := query_at (ε := Exception) (q := fun s : Server => findByEmail email s.db)
      (s := s) rfl
    rw [bind_at hquery]
    cases hfound : findByEmail email s.db with
    | some user =>
      rw [signFound_at (by rw [hfound, Option.some_or])]
      simp only [bind_map_left, Sum.elim_inr, bind_pure]
      rfl
    | none =>
      rw [seekByUsername_rest, signFound_at (by rw [hfound, Option.none_or]), signFound_at rfl]
  | username username =>
    simp only [restAt, turnAt, signFound, bind_assoc, bind_map_left, Sum.elim_inr, bind_pure]

/-! ### What a turn does -/

/-- The login has passed the check of its invite and stored the count. -/
def past : Course LoginAwaits Exception Session → Bool
  | .awaits (.email _) | .awaits (.username _) | .ended (.ok _) => true
  | .ended (.error e) => e = .unauthorized "User not found"
  | _ => false

/-- The use of an invite that a login has counted and not stored. -/
def counts : Course LoginAwaits Exception Session → Option (String × InviteData)
  | .awaits (.ttl token counted) | .awaits (.save token counted _) => some (token, counted)
  | _ => none

/-- A use is left. -/
def UseLeft (d : InviteData) : Prop := d.maxUses = 0 ∨ (d.uses : ℚ) < d.maxUses

/-- A login that presents an invite token while Redis is available. -/
def Presents (token : String) (r : Login) : Prop :=
  r.body.inviteToken.truthy = some token ∧ ∀ site, r.env.redisFails site = false

/-- What a turn of a login that presents `token` makes of what it awaits and of the server. -/
inductive Moves (token : String) (c : Clocked) :
    LoginAwaits → Course LoginAwaits Exception Session → Clocked → Prop
  | refused {e : Exception} : e ≠ .unauthorized "User not found" →
      Moves token c .check (.ended (.error e)) c
  | counted {d : InviteData} : c.server.redis.get c.now (inviteKey token) = some (.invite d) →
      UseLeft d → Moves token c .check (.awaits (.ttl token (countUse d))) c
  | timed {t : String} {d : InviteData} {ttl : Int} :
      Moves token c (.ttl t d) (.awaits (.save t d ttl)) c
  | stored {t : String} {d : InviteData} {ttl : Int}
      {course : Course LoginAwaits Exception Session} :
      0 < ttl → past course = true →
      Moves token c (.save t d ttl) course (c.put (inviteKey t) (.invite d) ttl)
  | unstored {t : String} {d : InviteData} {ttl : Int}
      {course : Course LoginAwaits Exception Session} : ttl ≤ 0 → past course = true →
      Moves token c (.save t d ttl) course c
  | sought {w : LoginAwaits} {course : Course LoginAwaits Exception Session} {c' : Clocked} :
      past (.awaits w : Course LoginAwaits Exception Session) = true → past course = true →
      c'.now = c.now → c'.server.redis = c.server.redis → Moves token c w course c'

variable {token : String} {s : Server}

theorem seekByUsername_wp :
    wp r.seekByUsername (fun x s' => s' = s ∧ past (.next x) = true)
      (fun e s' => s' = s ∧ past (.ended (.error e)) = true) s := by
  unfold seekByUsername
  split
  · exact ⟨rfl, rfl⟩
  · exact ⟨rfl, by decide⟩

theorem seek_wp :
    wp r.seek (fun x s' => s' = s ∧ past (.next x) = true)
      (fun e s' => s' = s ∧ past (.ended (.error e)) = true) s := by
  unfold seek
  split
  · exact ⟨rfl, rfl⟩
  · exact seekByUsername_wp

theorem checkInvite_wp :
    wp (r.checkInvite now token)
      (fun x s' => s' = s ∧ ∃ d, s.redis.get now (inviteKey token) = some (.invite d) ∧
        UseLeft d ∧ x = .inl (.ttl token (countUse d)))
      (fun e s' => s' = s ∧ e ≠ .unauthorized "User not found") s := by
  simp only [checkInvite, redisGet, wp_bind, wp_throwIf, wp_query]
  constructor
  · intro _
    split
    · exact ⟨rfl, by decide⟩
    · rename_i d hstored
      simp only [wp_bind, wp_throwIf, wp_pure]
      constructor
      · intro hleft
        refine ⟨trivial, d, hstored, ?_, rfl⟩
        by_contra hused
        simp only [UseLeft, not_or, not_lt] at hused
        simp [hused] at hleft
      · exact fun _ => ⟨trivial, by decide⟩
    · exact ⟨rfl, fun h => by cases h⟩
  · exact fun _ => ⟨trivial, by decide⟩

theorem move_moves (hr : Presents token r) : Moves token c w (move X (r, .awaits w) c).1.2
    (move X (r, .awaits w) c).2 := by
  apply advance_of_wp (C := fun l c' => Moves token c w l.2 c')
  apply wp_clocked.mpr
  cases w with
  | check =>
    simp only [turnAt, hr.1]
    apply checkInvite_wp.mono
    · rintro _ _ ⟨rfl, d, hget, hleft, rfl⟩
      exact .counted hget hleft
    · rintro _ _ ⟨rfl, he⟩
      exact .refused he
  | ttl t d =>
    simp only [turnAt, hr.2 1]
    exact .timed
  | save t d ttl =>
    simp only [turnAt, setex, wp_bind]
    split
    · rename_i hfails
      have httl : ttl ≤ 0 := by simpa [Env.at, hr.2 2] using hfails
      apply seek_wp.mono
      · rintro x _ ⟨rfl, hpast⟩
        exact .unstored httl hpast
      · rintro e _ ⟨rfl, hpast⟩
        exact .unstored httl hpast
    · rename_i hfails
      have httl : 0 < ttl := by simpa [Env.at, hr.2 2] using hfails
      apply seek_wp.mono
      · rintro x _ ⟨rfl, hpast⟩
        exact .stored httl hpast
      · rintro e _ ⟨rfl, hpast⟩
        exact .stored httl hpast
  | email email =>
    simp only [turnAt, wp_bind, wp_query]
    split
    · exact .sought rfl rfl rfl rfl
    · apply seekByUsername_wp.mono
      · rintro x _ ⟨rfl, hpast⟩
        exact .sought rfl hpast rfl rfl
      · rintro e _ ⟨rfl, hpast⟩
        exact .sought rfl hpast rfl rfl
  | username username =>
    simp only [turnAt, wp_bind, wp_query, wp_orThrow]
    constructor
    · exact fun user _ => .sought rfl rfl rfl rfl
    · exact fun _ => .sought rfl (by decide) rfl rfl

/-- The login needs fewer than `n` turns after the next, if any. -/
def EndsWithin (n : Nat) : LoginAwaits ⊕ Session → Prop
  | .inl w => left w < n
  | .inr _ => True

theorem EndsWithin.mono {n k : Nat} {x : LoginAwaits ⊕ Session} (hx : EndsWithin n x)
    (h : n ≤ k) : EndsWithin k x := by
  cases x with
  | inl w => exact Nat.lt_of_lt_of_le hx h
  | inr _ => trivial

theorem seekByUsername_ends :
    wp r.seekByUsername (fun x _ => EndsWithin 1 x) (fun _ _ => True) s := by
  unfold seekByUsername
  split
  · exact Nat.zero_lt_one
  · trivial

theorem seek_ends : wp r.seek (fun x _ => EndsWithin 2 x) (fun _ _ => True) s := by
  unfold seek
  split
  · exact Nat.one_lt_two
  · exact seekByUsername_ends.mono (fun _ _ hx => hx.mono (Nat.le_succ 1)) fun _ _ h => h

theorem turn_ends : wp (r.turn X w) (fun x _ => EndsWithin (left w) x) (fun _ _ => True) c := by
  apply wp_clocked.mpr
  cases w with
  | check =>
    simp only [turnAt, wp_bind, wp_throwIf]
    refine ⟨fun _ => ?_, fun _ => trivial⟩
    split
    · apply checkInvite_wp.mono
      · rintro _ _ ⟨-, d, -, -, rfl⟩
        exact (by decide : 3 < 4)
      · exact fun _ _ _ => trivial
    · exact seek_ends.mono (fun _ _ hx => hx.mono (by decide)) fun _ _ h => h
  | ttl t d =>
    simp only [turnAt]
    split
    · exact seek_ends.mono (fun _ _ hx => hx.mono (Nat.le_succ 2)) fun _ _ h => h
    · exact (by decide : 2 < 3)
  | save t d ttl =>
    simp only [turnAt, setex, wp_bind]
    split
    · exact seek_ends
    · exact seek_ends
  | email email =>
    simp only [turnAt, wp_bind, wp_query]
    split
    · trivial
    · exact seekByUsername_ends
  | username username =>
    simp only [turnAt, wp_bind, wp_query, wp_orThrow]
    exact ⟨fun _ _ => trivial, fun _ => trivial⟩

/-- A login that is not interrupted does what `login` does. -/
theorem login_alone :
    run (Pool.turn (move X)) ⟨[(r, .awaits .check)], c⟩ (List.replicate 5 0) =
      ⟨[(r, .ended ((login X (r.env.at c.now) r.body).outcome c.server))],
        { c with server := (login X (r.env.at c.now) r.body).final c.server }⟩ := by
  have hprog : ∀ w, clocked (r.restAt X · w) = r.turn X w >>= fun x =>
      Sum.elim (fun w => clocked (r.restAt X · w)) pure x :=
    clocked_rest fun now w => restAt_turn now w
  rw [run_course hprog (fun _ _ _ _ => turn_ends.of_ok) (show left .check < 5 by decide)]
  simp only [Prog.outcome, Prog.final, clocked, within, restAt]
  cases login X (r.env.at c.now) r.body c.server <;> rfl

/-! ### Logins that take turns -/

abbrev Attempt := Login × Course LoginAwaits Exception Session

namespace Attempt

/-- The login has counted a use and not stored it. -/
def inside (l : Attempt) : Bool := (counts l.2).isSome

/-- The login has passed the check of its invite and stored the count. -/
def done (l : Attempt) : Bool := past l.2

/-- The login has passed the check of its invite. -/
def passed (l : Attempt) : Bool := l.inside || l.done

/-- The invite of the login is there. -/
def finds (l : Attempt) (c : Clocked) : Bool :=
  l.1.body.inviteToken.truthy.any fun token =>
    (c.server.redis.get c.now (inviteKey token)).isSome

/-- The next turn of the login reads its invite. -/
def reads (l : Attempt) (c : Clocked) : Bool :=
  match l.2 with
  | .awaits .check => l.finds c
  | _ => false

/-- The next turn of the login is to store a count and cannot, while the invite is there. -/
def drops (l : Attempt) (c : Clocked) : Bool :=
  match l.2 with
  | .awaits (.save _ _ ttl) => ttl ≤ 0 && l.finds c
  | _ => false

end Attempt

/-- Logins that have not been started. -/
def logins (rs : List Login) (c : Clocked) : Pool Attempt Clocked :=
  ⟨rs.map (·, .awaits .check), c⟩

/-- Login `k` takes its turn, or time passes. -/
abbrev step (X : Externals) : Pool Attempt Clocked → Nat ⊕ Nat → Unit × Pool Attempt Clocked :=
  Pool.step (move X) Clocked.pass

/-- A login reads the invite while another has counted a use that is not stored, or a count cannot
be stored. -/
def losesUse (p : Pool Attempt Clocked) : Nat ⊕ Nat → Bool
  | .inl k => p.jobs[k]?.any fun l =>
      l.reads p.state && p.jobs.any Attempt.inside || l.drops p.state
  | .inr _ => false

/-- What is stored under a key and still there. -/
def Stored (c : Clocked) (key : String) (v : RedisValue) : Prop :=
  ∃ e ∈ c.server.redis, e.1 = key ∧ e.2.live c.now = true ∧ e.2.value = v

/-- Of `n` uses, those taken are counted in the invite, or by the one login that is to store it. -/
structure Counted (m : ℚ) (token : String) (p : Pool Attempt Clocked) : Prop where
  present : ∀ l ∈ p.jobs, Presents token l.1
  one : p.jobs.countP Attempt.inside ≤ 1
  bound : p.jobs.countP Attempt.done + p.jobs.countP Attempt.inside ≤ ⌈m⌉₊
  held : ∀ l ∈ p.jobs, ∀ t d, counts l.2 = some (t, d) →
    t = token ∧ d.maxUses = m ∧ d.uses ≤ ⌈m⌉₊ ∧ p.jobs.countP Attempt.done + 1 ≤ d.uses
  stored : p.jobs.countP Attempt.inside = 0 → ∀ v, Stored p.state (inviteKey token) v →
    ∃ d, v = .invite d ∧ d.maxUses = m ∧ p.jobs.countP Attempt.done ≤ d.uses

theorem stored_of_get {key : String} {v : RedisValue}
    (h : c.server.redis.get c.now key = some v) : Stored c key v := by
  obtain ⟨entry, hentry, hvalue⟩ := Option.map_eq_some_iff.mp h
  obtain ⟨e, he, rfl⟩ := Option.map_eq_some_iff.mp hentry
  have hlive : e.1 = key ∧ e.2.live c.now = true := by simpa using List.find?_some he
  exact ⟨e, List.mem_of_find?_eq_some he, hlive.1, hlive.2, hvalue⟩

theorem stored_get {key : String} {v : RedisValue} (h : Stored c key v) :
    (c.server.redis.get c.now key).isSome = true := by
  obtain ⟨e, he, hkey, hlive, -⟩ := h
  simp only [Keyspace.get, Keyspace.entry, Option.isSome_map, List.find?_isSome]
  exact ⟨e, he, by simp [hkey, hlive]⟩

theorem stored_put {key : String} {v v' : RedisValue} {deadline : Option Nat} {redis : Redis}
    (hput : c.server.redis = redis.put key v deadline) (h : Stored c key v') : v' = v := by
  obtain ⟨e, he, hkey, -, hvalue⟩ := h
  simp only [hput, Keyspace.put, Keyspace.del, List.mem_cons, List.mem_filter] at he
  rcases he with rfl | ⟨-, hother⟩
  · exact hvalue.symm
  · exact absurd hkey (by simpa using hother)

theorem live_mono {e : Entry RedisValue} {t : Nat} (ms : Nat) (h : e.live (t + ms) = true) :
    e.live t = true := by
  unfold Entry.live at h ⊢
  split
  · rfl
  · simp_all
    omega

theorem stored_pass {key : String} {v : RedisValue} {ms : Nat} (h : Stored (c.pass ms) key v) :
    Stored c key v := by
  obtain ⟨e, he, hkey, hlive, hvalue⟩ := h
  exact ⟨e, he, hkey, live_mono ms hlive, hvalue⟩

variable {m : ℚ} {p : Pool Attempt Clocked}

theorem counts_of_inside {jobs : List Attempt} (h : jobs.countP Attempt.inside = 0) {l : Attempt}
    (hl : l ∈ jobs) : counts l.2 = none := by
  have hout := List.countP_eq_zero.mp h l hl
  simpa [Attempt.inside] using hout

theorem counts_of_past {course : Course LoginAwaits Exception Session} (h : past course = true) :
    counts course = none := by
  unfold past at h
  split at h
  · rfl
  · rfl
  · rfl
  · rfl
  · exact nomatch h

theorem past_of_counts {course : Course LoginAwaits Exception Session} {x : String × InviteData}
    (h : counts course = some x) : past course = false := by
  cases hpast : past course with
  | false => rfl
  | true =>
    rw [counts_of_past hpast] at h
    exact nomatch h

theorem present_set {jobs : List Attempt} {k : Nat}
    {course course' : Course LoginAwaits Exception Session}
    (h : ∀ l ∈ jobs, Presents token l.1) (hk : jobs[k]? = some (r, course)) :
    ∀ l ∈ jobs.set k (r, course'), Presents token l.1 := by
  intro l hl
  rcases List.mem_or_eq_of_mem_set hl with hold | rfl
  · exact h l hold
  · exact h (r, course) (List.mem_of_getElem? hk)

/-- A turn that neither takes a use nor stores one. -/
theorem Counted.set {k : Nat} {course : Course LoginAwaits Exception Session}
    (h : Counted m token p) (hk : p.jobs[k]? = some (r, .awaits w))
    (hpast : past course = past (.awaits w)) (hcounts : counts course = counts (.awaits w))
    (hredis : ∀ v, Stored c (inviteKey token) v → Stored p.state (inviteKey token) v) :
    Counted m token ⟨p.jobs.set k (r, course), c⟩ := by
  have hdone : (p.jobs.set k (r, course)).countP Attempt.done = p.jobs.countP Attempt.done :=
    set_countP_eq hk hpast
  have hinside : (p.jobs.set k (r, course)).countP Attempt.inside =
      p.jobs.countP Attempt.inside := by
    apply set_countP_eq hk
    simp [Attempt.inside, hcounts]
  constructor
  · exact present_set h.present hk
  · exact hinside ▸ h.one
  · exact hdone ▸ hinside ▸ h.bound
  · intro l hl t d hcount
    dsimp only
    rw [hdone]
    rcases List.mem_or_eq_of_mem_set hl with hold | rfl
    · exact h.held l hold t d hcount
    · exact h.held _ (List.mem_of_getElem? hk) t d (hcounts ▸ hcount)
  · intro hnone v hv
    dsimp only at hnone ⊢
    rw [hinside] at hnone
    rw [hdone]
    exact h.stored hnone v (hredis v hv)

/-- A login takes a use while no other holds one. -/
theorem Counted.take {k : Nat} {d : InviteData} (hm : m ≠ 0) (h : Counted m token p)
    (hk : p.jobs[k]? = some (r, .awaits .check)) (hnone : p.jobs.countP Attempt.inside = 0)
    (hget : p.state.server.redis.get p.state.now (inviteKey token) = some (.invite d))
    (hleft : UseLeft d) :
    Counted m token ⟨p.jobs.set k (r, .awaits (.ttl token (countUse d))), p.state⟩ := by
  obtain ⟨_, hd, hmax, huses⟩ := h.stored hnone _ (stored_of_get hget)
  cases hd
  have hcap : d.uses < ⌈m⌉₊ := by
    rcases hleft with hzero | hlt
    · exact absurd (hmax ▸ hzero) hm
    · exact Nat.lt_ceil.mpr (hmax ▸ hlt)
  have hdone : (p.jobs.set k (r, .awaits (.ttl token (countUse d)))).countP
      Attempt.done = p.jobs.countP Attempt.done := set_countP_eq hk rfl
  have hinside : (p.jobs.set k (r, .awaits (.ttl token (countUse d)))).countP
      Attempt.inside = 1 := by
    have hcount := set_countP (r, .awaits (.ttl token (countUse d)))
      Attempt.inside hk
    simpa [Attempt.inside, counts, hnone] using hcount
  constructor
  · exact present_set h.present hk
  · exact hinside.le
  · dsimp only
    omega
  · intro l hl t d' hcount
    dsimp only
    rcases List.mem_or_eq_of_mem_set hl with hold | rfl
    · rw [counts_of_inside hnone hold] at hcount
      exact nomatch hcount
    · cases hcount
      exact ⟨rfl, hmax, hcap, by rw [hdone]; exact Nat.succ_le_succ huses⟩
  · intro hzero
    dsimp only at hzero
    omega

/-- The login that holds a use goes on; what it leaves under the key counts the use. -/
theorem Counted.settle {k : Nat} {t : String} {d : InviteData}
    {course : Course LoginAwaits Exception Session} (h : Counted m token p)
    (hk : p.jobs[k]? = some (r, .awaits w)) (hcounts : counts (.awaits w) = some (t, d))
    (hpast : past course = true) (hstored : ∀ v, Stored c (inviteKey token) v → v = .invite d) :
    Counted m token ⟨p.jobs.set k (r, course), c⟩ := by
  obtain ⟨-, hmax, hcap, huses⟩ := h.held _ (List.mem_of_getElem? hk) t d hcounts
  have hone := h.one
  have hdone : (p.jobs.set k (r, course)).countP Attempt.done =
      p.jobs.countP Attempt.done + 1 := by
    have hcount := set_countP (r, course) Attempt.done hk
    simpa [Attempt.done, hpast, past_of_counts hcounts] using hcount
  have hinside : (p.jobs.set k (r, course)).countP Attempt.inside = 0 := by
    have hbefore : Attempt.inside (r, .awaits w) = true := by simp [Attempt.inside, hcounts]
    have hafter : Attempt.inside (r, course) = false := by
      simp [Attempt.inside, counts_of_past hpast]
    have hcount := set_countP (r, course) Attempt.inside hk
    simp only [hbefore, hafter, if_true, Bool.false_eq_true, if_false] at hcount
    omega
  constructor
  · exact present_set h.present hk
  · exact hinside ▸ Nat.zero_le 1
  · dsimp only
    omega
  · intro l hl t' d' hcount
    rw [counts_of_inside hinside hl] at hcount
    exact nomatch hcount
  · intro _ v hv
    exact ⟨d, hstored v hv, hmax, by dsimp only; omega⟩

theorem finds_of_stored {v : RedisValue} (hr : Presents token r) (h : Stored c (inviteKey token) v)
    (w : LoginAwaits) : Attempt.finds (r, .awaits w) c = true := by
  simpa [Attempt.finds, hr.1] using stored_get h

theorem turn_counted {k : Nat} (hm : m ≠ 0) (h : Counted m token p)
    (hloses : losesUse p (.inl k) = false) : Counted m token (p.turn (move X) k).2 := by
  apply turn_moves (M := fun _ c => Moves token c) _ h
  · intro r w course c hk hmoves
    have hr : Presents token r := h.present _ (List.mem_of_getElem? hk)
    cases hmoves with
    | refused he => exact h.set hk (by simp [past, he]) rfl fun _ hv => hv
    | counted hget hleft =>
      have hnone : p.jobs.countP Attempt.inside = 0 := by
        apply List.countP_eq_zero.mpr
        intro l hl hinside
        have hany : p.jobs.any Attempt.inside = true := List.any_eq_true.mpr ⟨l, hl, hinside⟩
        have hfinds := finds_of_stored hr (stored_of_get hget) .check
        simp [losesUse, hk, Attempt.reads, hfinds, hany] at hloses
      exact h.take hm hk hnone hget hleft
    | timed => exact h.set hk rfl rfl fun _ hv => hv
    | stored httl hpast =>
      have ht := (h.held _ (List.mem_of_getElem? hk) _ _ rfl).1
      exact h.settle hk rfl hpast fun v hv => stored_put rfl (ht ▸ hv)
    | @unstored t d ttl _ httl hpast =>
      apply h.settle hk rfl hpast
      intro v hv
      have hfinds := finds_of_stored hr hv (.save t d ttl)
      simp [losesUse, hk, Attempt.drops, httl, hfinds] at hloses
    | sought hbefore hafter hnow hredis =>
      apply h.set hk (hafter.trans hbefore.symm)
      · rw [counts_of_past hbefore, counts_of_past hafter]
      · intro v hv
        unfold Stored at hv
        rwa [hnow, hredis] at hv
  · intro r w hk
    exact move_moves (h.present _ (List.mem_of_getElem? hk))

theorem step_counted (hm : m ≠ 0) (h : Counted m token p) (i : Nat ⊕ Nat)
    (hloses : losesUse p i = false) : Counted m token (step X p i).2 := by
  cases i with
  | inl k => exact turn_counted hm h hloses
  | inr ms =>
    exact ⟨h.present, h.one, h.bound, h.held, fun hnone v hv => h.stored hnone v (stored_pass hv)⟩

/-- What is under the key of a new invite. -/
theorem createInvite_stored {env : Env} {body : CreateInviteDto} :
    wp (createInvite X env body) (fun invite s' => ∀ now v,
        Stored ⟨now, s'⟩ (inviteKey invite.inviteToken) v →
          ∃ d : InviteData, v = .invite d ∧ d.maxUses = body.maxUses.get?.getD 1)
      (fun _ _ => True) s := by
  simp only [createInvite, setex, wp_bind]
  split
  · simp [wp_throwIf]
  · simp only [wp_write, wp_pure, wp_bind, wp_throwIf]
    constructor
    · intro _ now v hv
      exact ⟨_, stored_put rfl hv, rfl⟩
    · exact fun _ => trivial

theorem counted_logins {rs : List Login} (hrs : ∀ r ∈ rs, Presents token r)
    (hstored : ∀ v, Stored c (inviteKey token) v →
      ∃ d : InviteData, v = .invite d ∧ d.maxUses = m) :
    Counted m token (logins rs c) := by
  have hnone : ∀ f : Attempt → Bool, (∀ r, f (r, .awaits .check) = false) →
      (logins rs c).jobs.countP f = 0 := by
    intro f hf
    simp [logins, List.countP_map, List.countP_eq_zero, hf]
  have hdone := hnone Attempt.done fun _ => rfl
  have hinside := hnone Attempt.inside fun _ => rfl
  constructor
  · intro l hl
    obtain ⟨r, hr, rfl⟩ := List.mem_map.mp hl
    exact hrs r hr
  · omega
  · omega
  · intro l hl t d hcount
    obtain ⟨r, hr, rfl⟩ := List.mem_map.mp hl
    exact nomatch hcount
  · intro _ v hv
    obtain ⟨d, rfl, hd⟩ := hstored v hv
    exact ⟨d, rfl, hd, by omega⟩

theorem passed_le (jobs : List Attempt) :
    jobs.countP Attempt.passed ≤ jobs.countP Attempt.done + jobs.countP Attempt.inside := by
  induction jobs with
  | nil => exact Nat.zero_le _
  | cons l jobs ih =>
    simp only [List.countP_cons, Attempt.passed, Bool.or_eq_true]
    by_cases hinside : l.inside = true
    · simp only [hinside, true_or, if_true]
      omega
    · simp only [hinside, Bool.false_eq_true, false_or, if_false]
      omega

/-- No more logins pass the check of an invite than it has uses, when these are a whole number, no
login reads the invite between another's count of a use and the storing of it, and every count is
stored while the invite is there. -/
theorem invite_use_limit (X : Externals) (maker : Env) (s : Server) (body : CreateInviteDto)
    (invite : Invite) (now : Date) (m : ℚ) (rs : List Login) (is : List (Nat ⊕ Nat))
    (hmade : (createInvite X maker body).outcome s = .ok invite)
    (hmax : body.maxUses.get?.getD 1 = m) (hm : 1 ≤ m) (hwhole : ∃ n : ℕ, m = n)
    (hrs : ∀ r ∈ rs, Presents invite.inviteToken r) :
    let start := logins rs ⟨now, (createInvite X maker body).final s⟩
    Along (step X) (fun p i => losesUse p i = false) start is →
      ((run (step X) start is).jobs.countP Attempt.passed : ℚ) ≤ m := by
  intro start hloses
  have hstart : Counted m invite.inviteToken start := by
    apply counted_logins hrs
    intro v hv
    rw [← hmax]
    exact createInvite_stored.of_returned hmade now v hv
  have hpos : m ≠ 0 := (zero_lt_one.trans_le hm).ne'
  have h : Counted m invite.inviteToken (run (step X) start is) :=
    hloses.invariant (fun p i h hi => step_counted hpos h i hi) hstart
  obtain ⟨n, rfl⟩ := hwhole
  have hbound := h.bound
  have hpassed := passed_le (run (step X) start is).jobs
  rw [Nat.ceil_natCast] at hbound
  exact_mod_cast hpassed.trans hbound

/-- An invite for one use. -/
def singleUse : CreateInviteDto := ⟨.absent, .absent, .absent, .value 1⟩

/-- Alice has an account. -/
def aliceRegistered : Server :=
  (register sampleExternals (sampleEnv 1) ⟨"alice", "alice@mail", "secret"⟩).final Server.empty

def madeInvite : Invite :=
  ⟨(sampleUuid 2 0).toText, "http://localhost:3000/join?invite=" ++ (sampleUuid 2 0).toText,
    2000 + 1000 * inviteTtl, none, "member"⟩

def inviteMade : Server :=
  (createInvite sampleExternals (sampleEnv 2) singleUse).final aliceRegistered

theorem inviteMade_ok :
    (createInvite sampleExternals (sampleEnv 2) singleUse).outcome aliceRegistered =
      .ok madeInvite := by
  decide +kernel

/-- Alice logs in twice with the invite. -/
def twoLogins : List Login :=
  [⟨sampleEnv 3, ⟨.absent, .value "alice@mail", .value madeInvite.inviteToken⟩⟩,
    ⟨sampleEnv 4, ⟨.absent, .value "alice@mail", .value madeInvite.inviteToken⟩⟩]

theorem twoLogins_present : ∀ r ∈ twoLogins, Presents madeInvite.inviteToken r := by
  intro r hr
  rcases List.mem_cons.mp hr with rfl | hr
  · exact ⟨by decide +kernel, fun _ => rfl⟩
  · rw [List.mem_singleton.mp hr]
    exact ⟨by decide +kernel, fun _ => rfl⟩

/-- The second login checks the invite when the first has stored its count. -/
def inTurn : List (Nat ⊕ Nat) := [.inl 0, .inl 0, .inl 0, .inr 1000, .inl 1, .inl 0]

theorem inTurn_passOne :
    ((run (step sampleExternals) (logins twoLogins ⟨2000, inviteMade⟩) inTurn).jobs.countP
      Attempt.passed : ℚ) ≤ 1 :=
  invite_use_limit sampleExternals (sampleEnv 2) aliceRegistered singleUse madeInvite 2000 1
    twoLogins inTurn inviteMade_ok rfl le_rfl ⟨1, by norm_num⟩ twoLogins_present (by decide +kernel)

/-- Both logins check the invite before either stores its count. -/
def together : List (Nat ⊕ Nat) := [.inl 0, .inl 1, .inl 0, .inl 0, .inl 1, .inl 1]

theorem together_passBoth :
    (createInvite sampleExternals (sampleEnv 2) singleUse).outcome aliceRegistered =
        .ok madeInvite ∧
      singleUse.maxUses.get?.getD 1 = 1 ∧
      (∀ r ∈ twoLogins, Presents madeInvite.inviteToken r) ∧
      ¬((run (step sampleExternals) (logins twoLogins ⟨2000, inviteMade⟩) together).jobs.countP
        Attempt.passed : ℚ) ≤ 1 := by
  refine ⟨inviteMade_ok, rfl, twoLogins_present, ?_⟩
  have htwo : (run (step sampleExternals) (logins twoLogins ⟨2000, inviteMade⟩)
      together).jobs.countP Attempt.passed = 2 := by decide +kernel
  rw [htwo]
  norm_num

end Login

end VoxLink
