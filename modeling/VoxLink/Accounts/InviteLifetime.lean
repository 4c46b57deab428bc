import VoxLink.Accounts.FailedLogins
import VoxLink.Accounts.Storage

/-! How long an invite lasts. Its key is stored for seven days whatever expiry is announced, and
each use that is counted stores the remaining lifetime again, in whole seconds. -/

namespace VoxLink

open ProofKit Prog AuthService

variable {X : Externals} {env : Env} {s : Server} {token : String} {d : LoginDto}
  {i : Env × Request}

/-! ### The deadline of the key -/

/-- The deadline after the remaining lifetime is stored again at time `u`. -/
def renewed (deadline u : Nat) : Nat := u + 1000 * ((deadline - u + 500) / 1000)

/-- The deadline of the key of an invite created at `created` after uses counted at `us`. -/
def keyDeadline (created : Nat) (us : List Nat) : Nat :=
  us.foldl renewed (created + 1000 * inviteTtl)

/-- A use moves the deadline by half a second at most. -/
theorem renewed_near {deadline u : Nat} (h : u < deadline) :
    renewed deadline u ≤ deadline + 500 ∧ deadline ≤ renewed deadline u + 500 := by
  unfold renewed
  omega

/-! ### The uses that are counted -/

instance {invite : InviteData} : Decidable (Login.UseLeft invite) :=
  inferInstanceAs (Decidable (_ ∨ _))

/-- The invite of which a login with the token counts a use. -/
def countedInvite (env : Env) (s : Server) (token : String) : Option InviteData :=
  match s.redis.get env.now (inviteKey token) with
  | some (.invite invite) =>
    if (∀ site : Nat, site < 3 → env.redisFails site = false) ∧ Login.UseLeft invite ∧
      0 < s.redis.ttl env.now (inviteKey token) then some invite else none
  | _ => none

theorem countedInvite_eq_some {invite : InviteData} :
    countedInvite env s token = some invite ↔ Counts env s token invite := by
  unfold countedInvite
  constructor
  · intro h
    split at h
    · rename_i other hfound
      rw [Option.ite_none_right_eq_some] at h
      obtain ⟨⟨havailable, hleft, httl⟩, heq⟩ := h
      cases heq
      exact ⟨havailable, hfound, hleft, httl⟩
    · exact nomatch h
  · intro h
    rw [h.found]
    exact if_pos ⟨h.available, h.left, h.ttl⟩

/-- The request is a login that counts a use of the invite. -/
def countsUse (X : Externals) (token : String) (s : Server) (i : Env × Request) : Bool :=
  match i.2.route with
  | .auth (.login d) =>
    d.valid X && d.inviteToken.truthy = some token && (countedInvite i.1 s token).isSome
  | _ => false

/-- The times at which a run counts uses of the invite. -/
def useTimes (X : Externals) (token : String) : Server → List (Env × Request) → List Date
  | _, [] => []
  | s, i :: is =>
    (if countsUse X token s i then [i.1.now] else []) ++ useTimes X token (serve X s i).2 is

/-! ### What is under the key -/

/-- An invite is stored under its key until the deadline. -/
def Until (token : String) (deadline : Date) (s : Server) : Prop :=
  ∃ invite, s.redis.slots (inviteKey token) =
    [(inviteKey token, ⟨.invite invite, some deadline⟩)]

/-- The key holds what it held. -/
def SameSlots (key : String) (r r' : Redis) : Prop := r'.slots key = r.slots key

instance {key : String} : IsPreorder Redis (SameSlots key) where
  refl _ := rfl
  trans _ _ _ h h' := h'.trans h

theorem inviteKey_ne {token' : String} (h : token' ≠ token) :
    inviteKey token ≠ inviteKey token' := by
  intro heq
  exact h (String.append_right_inj "invite:" |>.mp heq.symm)

theorem inviteKey_ne_magicKey {token' : String} : inviteKey token ≠ magicKey token' := by
  intro heq
  have hchars := congrArg String.toList heq
  simp [inviteKey, magicKey] at hchars

theorem sameSlots_handle {req : Request} (h : req.inviteStored env ≠ some token) :
    Keeps (OnRedis (SameSlots (inviteKey token))) (handle X env req) := by
  apply onRedis_handle
  · intro token' htoken' redis v deadline
    refine Keyspace.slots_put_of_ne (inviteKey_ne ?_)
    rintro rfl
    exact h htoken'
  · exact fun _ _ _ _ => Keyspace.slots_put_of_ne inviteKey_ne_magicKey
  · exact fun _ _ => Keyspace.slots_del_of_ne inviteKey_ne_magicKey

theorem Until.of_same {deadline : Date} {s' : Server} (h : Until token deadline s)
    (hsame : OnRedis (SameSlots (inviteKey token)) s s') : Until token deadline s' := by
  obtain ⟨invite, hslots⟩ := h
  exact ⟨invite, hsame.trans hslots⟩

theorem Until.ttl_of_get {deadline : Date} {now : Nat} {v : RedisValue} (h : Until token deadline s)
    (hget : s.redis.get now (inviteKey token) = some v) :
    s.redis.ttl now (inviteKey token) = ((deadline - now + 500) / 1000 : Nat) := by
  obtain ⟨invite, hslots⟩ := h
  have hentry := Keyspace.entry_of_slots now hslots
  unfold Keyspace.ttl
  rw [Keyspace.get] at hget
  split at hentry
  · rw [hentry]
  · rw [hentry] at hget
    cases hget

theorem Until.get {deadline : Date} (h : Until token deadline s) (env : Env) :
    ∃ invite, s.redis.get env.now (inviteKey token) =
      if env.now < deadline then some (.invite invite) else none := by
  obtain ⟨invite, hslots⟩ := h
  refine ⟨invite, ?_⟩
  rw [Keyspace.get, Keyspace.entry_of_slots _ hslots]
  simp only [Entry.live, decide_eq_true_eq]
  split <;> rfl

/-- What a login makes of the deadline of the invite it presents. -/
theorem login_until {deadline : Date} (htoken : d.inviteToken.truthy = some token)
    (h : Until token deadline s) :
    wp (login X env d)
      (fun _ s' => Until token
        (if (countedInvite env s token).isSome then renewed deadline env.now else deadline) s')
      (fun _ s' => Until token
        (if (countedInvite env s token).isSome then renewed deadline env.now else deadline) s')
      s := by
  have search : ∀ {s' : Server} {deadline : Date}, Until token deadline s' →
      wp (Login.signFound X ⟨env, d⟩ env.now (loginUser d)) (fun _ s' => Until token deadline s')
        (fun _ s' => Until token deadline s') s' := by
    intro s' deadline huntil
    have hkeeps : Keeps (OnRedis (SameSlots (inviteKey token)))
        (Login.signFound X ⟨env, d⟩ env.now (loginUser d)) :=
      .bind (.query _) fun _ => .bind (.orThrow _ _) fun _ => onRedis_signUser
    exact (hkeeps s').mono (fun _ _ h => huntil.of_same h) fun _ _ h => huntil.of_same h
  simp only [login, htoken]
  rw [wp_bind, wp_throwIf]
  refine ⟨fun _ => ?_, fun h => by cases h⟩
  cases hcounted : countedInvite env s token with
  | some invite =>
    have hcounts := countedInvite_eq_some.mp hcounted
    refine ((useInvite_counted hcounts).mono (fun _ _ h => h) fun _ _ h => h.elim).seq ?_
    rintro _ s' rfl
    refine search ⟨Login.countUse invite, ?_⟩
    rw [withUse, h.ttl_of_get hcounts.found]
    exact Keyspace.slots_put
  | none =>
    have hnone : ∀ invite, ¬Counts env s token invite := by
      intro invite hcounts
      cases hcounted.symm.trans (countedInvite_eq_some.mpr hcounts)
    refine ((useInvite_uncounted hnone).mono (fun _ _ h => h) fun _ _ hs' => hs' ▸ h).seq ?_
    rintro _ s' rfl
    exact search h

/-- A request makes the deadline another only when it counts a use. -/
theorem step_until {deadline : Date} (hother : (i.1.uuids 0).toText ≠ token)
    (h : Until token deadline s) :
    Until token (if countsUse X token s i then renewed deadline i.1.now else deadline)
      (serve X s i).2 := by
  obtain ⟨env, bearer, route⟩ := i
  by_cases hlogin : ∃ d, route = .auth (.login d) ∧ d.inviteToken.truthy = some token
  · obtain ⟨d, rfl, htoken⟩ := hlogin
    cases hvalid : d.valid X with
    | true =>
      have hcounts : countsUse X token s (env, ⟨bearer, .auth (.login d)⟩) =
          (countedInvite env s token).isSome := by
        simp [countsUse, hvalid, htoken]
      rw [hcounts]
      apply wp.final
      simp only [handle, authController, validate, wp_bind, wp_map, wp_throwIf]
      refine ⟨fun _ => login_until htoken h, fun hinvalid => ?_⟩
      simp [Route.valid, hvalid] at hinvalid
    | false =>
      have hcounts : countsUse X token s (env, ⟨bearer, .auth (.login d)⟩) = false := by
        simp [countsUse, hvalid]
      rw [hcounts]
      apply wp.final
      simp only [handle, authController, validate, wp_bind, wp_map, wp_throwIf]
      refine ⟨fun hok => ?_, fun _ => h⟩
      simp [Route.valid, hvalid] at hok
  · have hstored : (Request.mk bearer route).inviteStored env ≠ some token := by
      unfold Request.inviteStored
      split
      · simpa using hother
      · rename_i d hroute
        exact fun htoken => hlogin ⟨d, hroute, htoken⟩
      · simp
    have hcounts : countsUse X token s (env, ⟨bearer, route⟩) = false := by
      unfold countsUse
      split
      · rename_i d hroute
        have htoken : d.inviteToken.truthy ≠ some token := fun htoken => hlogin ⟨d, hroute, htoken⟩
        simp [htoken]
      · rfl
    rw [hcounts]
    exact h.of_same (sameSlots_handle hstored s).final

/-- After a run the key is stored until the deadline that its uses make. -/
theorem run_until {us : List Date} {created : Date} {is : List (Env × Request)}
    (hother : ∀ i ∈ is, (i.1.uuids 0).toText ≠ token) (h : Until token (keyDeadline created us) s) :
    Until token (keyDeadline created (us ++ useTimes X token s is)) (run (serve X) s is) := by
  induction is generalizing s us with
  | nil => simpa [useTimes, run] using h
  | cons i is ih =>
    obtain ⟨hfirst, hrest⟩ := List.forall_mem_cons.mp hother
    have hnext : Until token
        (keyDeadline created (us ++ if countsUse X token s i then [i.1.now] else []))
        (serve X s i).2 := by
      have hstep := step_until (X := X) hfirst h
      cases hcounts : countsUse X token s i with
      | true => simpa [hcounts, keyDeadline] using hstep
      | false => simpa [hcounts] using hstep
    have hlast := ih hrest hnext
    rw [List.append_assoc] at hlast
    exact hlast

theorem live_of_countsUse {deadline : Date} (hcounts : countsUse X token s i = true)
    (h : Until token deadline s) : i.1.now < deadline := by
  unfold countsUse at hcounts
  split at hcounts
  · simp only [Bool.and_eq_true, Option.isSome_iff_exists] at hcounts
    obtain ⟨_, invite, hcounted⟩ := hcounts
    have hfound := (countedInvite_eq_some.mp hcounted).found
    obtain ⟨_, hget⟩ := h.get i.1
    by_contra hpast
    rw [hfound, if_neg hpast] at hget
    exact nomatch hget
  · exact nomatch hcounts

/-- The uses of a run put the deadline off, or bring it forward, by half a second each at most. -/
theorem run_deadline_near {us : List Nat} {created : Nat} {is : List (Env × Request)}
    (hother : ∀ i ∈ is, (i.1.uuids 0).toText ≠ token) (h : Until token (keyDeadline created us) s) :
    let uses := useTimes X token s is
    keyDeadline created (us ++ uses) ≤ keyDeadline created us + 500 * uses.length ∧
      keyDeadline created us ≤ keyDeadline created (us ++ uses) + 500 * uses.length := by
  induction is generalizing s us with
  | nil => simp [useTimes]
  | cons i is ih =>
    obtain ⟨hfirst, hrest⟩ := List.forall_mem_cons.mp hother
    have hstep := step_until (X := X) hfirst h
    cases hcounts : countsUse X token s i with
    | false =>
      rw [hcounts] at hstep
      simpa [useTimes, hcounts] using ih hrest hstep
    | true =>
      have hrenewed : keyDeadline created (us ++ [i.1.now]) =
          renewed (keyDeadline created us) i.1.now := by simp [keyDeadline]
      rw [hcounts, if_pos rfl, ← hrenewed] at hstep
      have hnear := renewed_near (live_of_countsUse hcounts h)
      obtain ⟨hupper, hlower⟩ := ih hrest hstep
      simp only [List.append_assoc, List.singleton_append] at hupper hlower
      simp only [useTimes, hcounts, if_true, List.singleton_append, List.length_cons]
      omega

theorem createInvite_until {maker : Env} {body : CreateInviteDto} :
    wp (createInvite X maker body)
      (fun invite s' => invite.inviteToken = (maker.uuids 0).toText ∧
        invite.expiresAt = expiry maker (body.expiresInHours.get?.getD (24 * 7)) ∧
        Until invite.inviteToken (keyDeadline maker.now []) s')
      (fun _ _ => True) s := by
  simp only [createInvite, setex, wp_bind]
  split
  · simp [wp_throwIf]
  · simp only [wp_write, wp_pure, wp_bind, wp_throwIf, implies_true, and_true, true_and]
    exact fun _ => ⟨_, Keyspace.slots_put⟩

/-! ### When a login is refused -/

/-- What a login with the token is refused with when nothing is under the key. -/
def expired : Exception := .unauthorized "Invalid or expired invite token"

/-- The uses of the invite under the token, if it is there, are not exhausted. -/
def NotExhausted (env : Env) (s : Server) (token : String) : Prop :=
  ∀ invite, s.redis.get env.now (inviteKey token) = some (.invite invite) → Login.UseLeft invite

theorem login_expired (htoken : d.inviteToken.truthy = some token)
    (hread : env.redisFails 0 = false) (hgone : s.redis.get env.now (inviteKey token) = none) :
    wp (login X env d) (fun _ _ => False) (fun e _ => e = expired) s := by
  simp only [login, useInvite, redisGet, htoken, wp_bind, wp_throwIf, wp_query, hgone, hread]
  exact ⟨fun _ => ⟨fun _ => rfl, fun h => by cases h⟩, fun h => by cases h⟩

theorem login_unexpired {invite : InviteData} (htoken : d.inviteToken.truthy = some token)
    (hread : env.redisFails 0 = false)
    (hfound : s.redis.get env.now (inviteKey token) = some (.invite invite))
    (hleft : Login.UseLeft invite) :
    wp (login X env d) (fun _ _ => True) (fun e _ => e ≠ expired) s := by
  have hused : (invite.maxUses ≠ 0 && invite.maxUses ≤ invite.uses) = false := by
    rcases hleft with hzero | hlt
    · simp [hzero]
    · simp [hlt]
  have hcheck : wp (useInvite env token) (fun _ _ => True) (fun _ _ => False) s := by
    simp only [useInvite, redisGet, wp_bind, wp_throwIf, wp_query, hfound, hused, hread]
    refine ⟨fun _ => ⟨fun _ => ?_, fun h => by cases h⟩, fun h => by cases h⟩
    split
    · trivial
    · rw [wp_bind, wp_query, wp_bind]
      exact setex_wp.mono (fun _ _ _ => trivial) fun _ _ h => h
  simp only [login, htoken]
  rw [wp_bind, wp_throwIf]
  refine ⟨fun _ => ?_, fun h => by cases h⟩
  refine (hcheck.mono (fun _ _ h => h) fun _ _ h => h.elim).seq fun _ s' _ => ?_
  simp only [wp_bind, wp_query, wp_orThrow]
  refine ⟨fun user _ => signUser_wp.mono (fun _ _ _ => trivial) fun _ _ h => h.elim, fun _ => ?_⟩
  decide

theorem login_unread (htoken : d.inviteToken.truthy = some token)
    (hread : env.redisFails 0 = true) :
    wp (login X env d) (fun _ _ => False) (fun e _ => e ≠ expired) s := by
  simp only [login, useInvite, redisGet, htoken, wp_bind, wp_throwIf, hread]
  exact ⟨fun _ => ⟨(fun h => by cases h), fun _ => by decide⟩, fun h => by cases h⟩

theorem login_expired_iff {deadline : Date} (htoken : d.inviteToken.truthy = some token)
    (hleft : NotExhausted env s token) (h : Until token deadline s) :
    (login X env d).outcome s = .error expired ↔
      env.redisFails 0 = false ∧ deadline ≤ env.now := by
  obtain ⟨invite, hget⟩ := h.get env
  cases hread : env.redisFails 0 with
  | true =>
    simp only [Bool.true_eq_false, false_and, iff_false]
    exact fun hrefused => (login_unread htoken hread).of_thrown hrefused rfl
  | false =>
    simp only [true_and]
    constructor
    · intro hrefused
      by_contra hlive
      rw [if_pos (not_le.mp hlive)] at hget
      exact (login_unexpired htoken hread hget (hleft invite hget)).of_thrown hrefused rfl
    · intro hpast
      rw [if_neg (not_lt.mpr hpast)] at hget
      obtain ⟨e, hthrown, he⟩ := (login_expired (X := X) htoken hread hget).throws
      rw [hthrown, he]

/-- After an invite is made and any requests are served, a login with its token and uses left is
refused as expired exactly from the announced expiry on, if and only if Redis answers the login and
its time is not between that expiry and the deadline that the key has after the uses so far. -/
theorem invite_lifetime_iff (X : Externals) (maker : Env) (s : Server) (body : CreateInviteDto)
    (invite : Invite) (is : List (Env × Request)) (env : Env) (d : LoginDto)
    (hmade : (createInvite X maker body).outcome s = .ok invite)
    (hother : ∀ i ∈ is, i.1.uuids 0 ≠ maker.uuids 0)
    (htoken : d.inviteToken.truthy = some invite.inviteToken) :
    let made := (createInvite X maker body).final s
    NotExhausted env (run (serve X) made is) invite.inviteToken →
      (((login X env d).outcome (run (serve X) made is) = .error expired ↔
        invite.expiresAt ≤ env.now) ↔
      (env.redisFails 0 = false ∧
          keyDeadline maker.now (useTimes X invite.inviteToken made is) ≤ env.now ↔
        expiry maker (body.expiresInHours.get?.getD (24 * 7)) ≤ env.now)) := by
  intro made hleft
  obtain ⟨htext, hexpires, hmadeUntil⟩ := createInvite_until.of_returned hmade
  have hothers : ∀ i ∈ is, (i.1.uuids 0).toText ≠ invite.inviteToken := by
    intro i hi heq
    exact hother i hi (Uuid.toText_injective (heq.trans htext))
  have huntil := run_until (X := X) hothers hmadeUntil
  rw [List.nil_append] at huntil
  rw [login_expired_iff htoken hleft huntil, hexpires]

/-- An invite for any number of uses, for the given hours or for a week. -/
def inviteFor (hours : BodyField ℚ) : CreateInviteDto := ⟨.absent, .absent, hours, .value 0⟩

/-- What Alice makes in her second request. -/
def aliceInvites (hours : BodyField ℚ) : Server :=
  (createInvite sampleExternals (sampleEnv 2) (inviteFor hours)).final Login.aliceRegistered

def aliceInvited (hours : ℚ) : Invite :=
  { Login.madeInvite with expiresAt := expiry (sampleEnv 2) hours }

def aliceLogin : LoginDto := ⟨.value "alice", .absent, .value Login.madeInvite.inviteToken⟩

/-- An invite for a week is refused when the week is over. -/
theorem week_invite_expires :
    (login sampleExternals (sampleEnv 604802) aliceLogin).outcome
        (run (serve sampleExternals) (aliceInvites .absent)
          [(sampleEnv 3, ⟨none, .auth (.login aliceLogin)⟩)]) = .error expired ↔
      (aliceInvited 168).expiresAt ≤ 604802000 := by
  refine (invite_lifetime_iff sampleExternals (sampleEnv 2) Login.aliceRegistered
    (inviteFor .absent) (aliceInvited 168) [(sampleEnv 3, ⟨none, .auth (.login aliceLogin)⟩)]
    (sampleEnv 604802) aliceLogin (by decide +kernel) (by decide +kernel) (by decide +kernel)
    ?_).mpr (by decide +kernel)
  intro invite hfound
  have hgone : (run (serve sampleExternals) (aliceInvites .absent)
      [(sampleEnv 3, ⟨none, .auth (.login aliceLogin)⟩)]).redis.get (sampleEnv 604802).now
        (inviteKey Login.madeInvite.inviteToken) = none := by decide +kernel
  exact nomatch hgone.symm.trans hfound

/-- An invite for an hour is accepted two hours later. -/
theorem hour_invite_accepted :
    (inviteFor (.value 1)).valid sampleExternals = true ∧
      (createInvite sampleExternals (sampleEnv 2) (inviteFor (.value 1))).outcome
        Login.aliceRegistered = .ok (aliceInvited 1) ∧
      NotExhausted (sampleEnv 7202) (aliceInvites (.value 1)) (aliceInvited 1).inviteToken ∧
      ¬((login sampleExternals (sampleEnv 7202) aliceLogin).outcome (aliceInvites (.value 1)) =
          .error expired ↔ (aliceInvited 1).expiresAt ≤ (sampleEnv 7202).now) := by
  have hfound : (aliceInvites (.value 1)).redis.get (sampleEnv 7202).now
      (inviteKey (aliceInvited 1).inviteToken) =
        some (.invite ⟨none, "member", (aliceInvited 1).expiresAt, 0, 0⟩) := by decide +kernel
  refine ⟨by decide +kernel, by decide +kernel, fun invite h => ?_, by decide +kernel⟩
  have heq := hfound.symm.trans h
  cases heq
  exact .inl rfl

end VoxLink
