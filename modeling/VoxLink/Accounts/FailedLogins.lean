import VoxLink.Accounts.InviteUses

/-! Logins that fail. The use of an invite is counted before the account is looked for, so that a
login with no account takes a use and renews the lifetime of the record. -/

namespace VoxLink

open ProofKit Prog AuthService

variable {X : Externals} {env : Env} {s : Server} {token : String} {d : LoginDto}

/-- Every invite in Redis has the record it had: the uses, their limit and the deadline. -/
def InvitesKept (env : Env) (s s' : Server) : Prop :=
  ∀ token, s'.redis.entry env.now (inviteKey token) = s.redis.entry env.now (inviteKey token)

/-- A use is left of the invite under the token, and Redis answers until the count of one more is
stored. -/
structure Counts (env : Env) (s : Server) (token : String) (invite : InviteData) : Prop where
  available : ∀ site < 3, env.redisFails site = false
  found : s.redis.get env.now (inviteKey token) = some (.invite invite)
  left : Login.UseLeft invite
  ttl : 0 < s.redis.ttl env.now (inviteKey token)

/-- The login presents an invite whose use is counted, and names no account. -/
def BurnsUse (env : Env) (s : Server) (d : LoginDto) : Prop :=
  ∃ token invite, d.inviteToken.truthy = some token ∧ Counts env s token invite ∧
    loginUser d s.db = none

/-- The server after a use of the invite is counted. -/
def withUse (env : Env) (s : Server) (token : String) (invite : InviteData) : Server :=
  let ttl := s.redis.ttl env.now (inviteKey token)
  { s with
    redis := s.redis.put (inviteKey token) (.invite (Login.countUse invite))
      (some (env.now + 1000 * ttl.toNat)) }

theorem useInvite_counted {invite : InviteData} (h : Counts env s token invite) :
    wp (useInvite env token) (fun _ s' => s' = withUse env s token invite)
      (fun _ _ => False) s := by
  have hleft : (invite.maxUses ≠ 0 && invite.maxUses ≤ invite.uses) = false := by
    rcases h.left with hzero | hlt
    · simp [hzero]
    · simp [hlt]
  simp only [useInvite, redisGet, setex, wp_bind, wp_throwIf, wp_query, h.found, hleft,
    h.available 0 (by decide), h.available 1 (by decide), h.available 2 (by decide)]
  have httl : ¬s.redis.ttl env.now (inviteKey token) ≤ 0 := not_le.mpr h.ttl
  refine ⟨fun _ => ⟨fun _ => ?_, fun h => by cases h⟩, fun h => by cases h⟩
  simp only [Bool.false_eq_true, if_false, wp_bind, wp_query, false_or, if_neg httl]
  rfl

theorem useInvite_uncounted (h : ∀ invite, ¬Counts env s token invite) :
    wp (useInvite env token) (fun _ s' => s' = s) (fun _ s' => s' = s) s := by
  simp only [useInvite, redisGet, wp_bind, wp_throwIf, wp_query, implies_true, and_true]
  intro hread
  split
  · rfl
  · rename_i invite hfound
    simp only [wp_bind, wp_throwIf, implies_true, and_true]
    intro hleft
    split
    · rfl
    · rename_i hreached
      simp only [setex, wp_bind, wp_query]
      split
      · rfl
      · rename_i hstored
        simp only [not_or, Bool.not_eq_true, not_le] at hreached hstored
        have havailable : ∀ site < 3, env.redisFails site = false := by
          intro site hsite
          interval_cases site
          · exact hread
          · exact hreached
          · exact hstored.1
        have huse : Login.UseLeft invite := by
          by_contra hused
          simp only [Login.UseLeft, not_or, not_lt] at hused
          simp [hused] at hleft
        exact absurd ⟨havailable, hfound, huse, hstored.2⟩ (h invite)
  · rfl

theorem invitesKept_withUse {invite : InviteData} (h : Counts env s token invite) :
    ¬InvitesKept env s (withUse env s token invite) := by
  intro hkept
  have hentry := hkept token
  have httl := h.ttl
  have hlive : env.now < env.now + 1000 * (s.redis.ttl env.now (inviteKey token)).toNat :=
    Nat.lt_add_of_pos_right (by omega)
  have hafter : (withUse env s token invite).redis.get env.now (inviteKey token) =
      some (.invite (Login.countUse invite)) := by
    rw [Keyspace.get, withUse, Keyspace.entry_put (by simpa [Entry.live] using hlive)]
    rfl
  rw [Keyspace.get, hentry] at hafter
  have huses : Login.countUse invite = invite := by simpa using hafter.symm.trans h.found
  exact absurd (congrArg InviteData.uses huses) (Nat.succ_ne_self _)

theorem signFound_wp :
    wp (Login.signFound X ⟨env, d⟩ env.now (loginUser d)) (fun _ _ => loginUser d s.db ≠ none)
      (fun _ s' => s' = s ∧ loginUser d s.db = none) s := by
  simp only [Login.signFound, wp_bind, wp_query, wp_orThrow, true_and, imp_self, and_true]
  intro user huser
  refine signUser_wp.mono (fun _ _ _ => ?_) fun _ _ h => h.elim
  simp [huser]

theorem login_burns {invite : InviteData} (htoken : d.inviteToken.truthy = some token)
    (hcounts : Counts env s token invite) (hnone : loginUser d s.db = none) :
    wp (login X env d) (fun _ _ => False) (fun _ s' => s' = withUse env s token invite) s := by
  simp only [login, htoken]
  rw [wp_bind, wp_throwIf]
  refine ⟨fun _ => ?_, fun h => by cases h⟩
  refine ((useInvite_counted hcounts).mono (fun _ _ h => h) fun _ _ h => h.elim).seq ?_
  intro _ s' hs'
  have hnone' : loginUser d s'.db = none := hs' ▸ hnone
  exact (signFound_wp (s := s')).mono (fun _ _ h => h hnone') fun _ _ h => h.1.trans hs'

theorem login_spares (hspared : ¬BurnsUse env s d) :
    wp (login X env d) (fun _ _ => True) (fun _ s' => s' = s) s := by
  simp only [login]
  rw [wp_bind, wp_throwIf]
  refine ⟨fun _ => ?_, fun _ => rfl⟩
  split
  · rename_i token htoken
    by_cases hcounts : ∃ invite, Counts env s token invite
    · obtain ⟨invite, hcounts⟩ := hcounts
      have hsome : loginUser d s.db ≠ none := fun hnone => hspared ⟨_, _, htoken, hcounts, hnone⟩
      refine ((useInvite_counted hcounts).mono (fun _ _ h => h) fun _ _ h => h.elim).seq ?_
      intro _ s' hs'
      have hsome' : loginUser d s'.db ≠ none := hs' ▸ hsome
      exact (signFound_wp (s := s')).mono (fun _ _ _ => trivial) fun _ _ h => absurd h.2 hsome'
    · refine (useInvite_uncounted (not_exists.mp hcounts)).seq ?_
      rintro _ s' rfl
      exact signFound_wp.mono (fun _ _ _ => trivial) fun _ _ h => h.1
  · exact signFound_wp.mono (fun _ _ _ => trivial) fun _ _ h => h.1

/-- Where a login throws, every invite has the record it had, exactly when the login is not one that
presents an invite whose use is counted and names no account. -/
theorem failed_login_keeps_invites_iff (X : Externals) (env : Env) (s : Server) (d : LoginDto) :
    (∀ e, (login X env d).outcome s = .error e → InvitesKept env s ((login X env d).final s)) ↔
      ¬BurnsUse env s d := by
  constructor
  · rintro hkept ⟨token, invite, htoken, hcounts, hnone⟩
    obtain ⟨e, hthrown, hafter⟩ := (login_burns (X := X) htoken hcounts hnone).throws
    exact invitesKept_withUse hcounts (hafter ▸ hkept e hthrown)
  · intro hspared e hthrown token
    rw [(login_spares hspared).of_thrown hthrown]

/-- A login that misspells the user's name burns an invite for one use. -/
theorem misspelled_name_burns_invite :
    let d : LoginDto := ⟨.value "alcie", .absent, .value Login.madeInvite.inviteToken⟩
    (login sampleExternals (sampleEnv 3) d).outcome Login.inviteMade =
        .error (.unauthorized "User not found") ∧
      ¬InvitesKept (sampleEnv 3) Login.inviteMade
        ((login sampleExternals (sampleEnv 3) d).final Login.inviteMade) := by
  intro d
  refine ⟨by decide +kernel, fun hkept => ?_⟩
  have := hkept Login.madeInvite.inviteToken
  revert this
  decide +kernel

end VoxLink
