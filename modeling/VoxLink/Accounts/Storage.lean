import VoxLink.Accounts.Effects

/-! What requests do to Redis: they write under the keys of invites and of magic links, and under no
other. -/

namespace VoxLink

open ProofKit Prog

/-- The stores of Redis in two states are related. -/
def OnRedis (R : Redis → Redis → Prop) (s s' : Server) : Prop := R s.redis s'.redis

instance {R : Redis → Redis → Prop} [IsPreorder Redis R] : IsPreorder Server (OnRedis R) where
  refl s := refl_of R s.redis
  trans _ _ _ h h' := trans_of R h h'

variable {X : Externals} {env : Env} {R : Redis → Redis → Prop} [IsPreorder Redis R]

theorem onRedis_service {α : Type} {m : Service α} : Keeps (OnRedis R) (onDb m) :=
  fun s => wp_onDb.mpr (wp.of_forall (fun _ _ => refl_of R s.redis) fun _ _ => refl_of R s.redis)

theorem onRedis_authenticate {token : Option Jwt} :
    Keeps (OnRedis R) (AuthService.authenticate env token) :=
  .bind (.query _) fun _ => .bind (.orThrow _ _) fun _ => onRedis_service

theorem onRedis_signUser {user : Profile} : Keeps (OnRedis R) (AuthService.signUser X env user) :=
  .bind (.write fun s => refl_of R s.redis) fun _ => .pure _

theorem onRedis_setex {site : Nat} {key : String} {ttl : Int} {v : RedisValue}
    (h : ∀ redis deadline, R redis (redis.put key v deadline)) :
    Keeps (OnRedis R) (AuthService.setex env site key ttl v) := by
  unfold AuthService.setex
  split_ifs
  · exact .pure _
  · exact .bind (.write fun s => h s.redis _) fun _ => .pure _

theorem onRedis_validate {route : Route} : Keeps (OnRedis R) (validate X route) := .throwIf _ _

theorem onRedis_redisGet {site : Nat} {key : String} :
    Keeps (OnRedis R) (AuthService.redisGet env site key) :=
  .bind (.throwIf _ _) fun _ => .query _

theorem onRedis_signInByEmail {email : String} :
    Keeps (OnRedis R) (AuthService.signInByEmail X env email) := by
  apply Keeps.bind (.query _)
  intro found
  cases found with
  | some user => exact onRedis_signUser
  | none => exact .bind onRedis_service fun _ => onRedis_signUser

theorem onRedis_useInvite {token : String}
    (h : ∀ redis v deadline, R redis (redis.put (AuthService.inviteKey token) v deadline)) :
    Keeps (OnRedis R) (AuthService.useInvite env token) := by
  apply Keeps.bind onRedis_redisGet
  intro stored
  match stored with
  | none | some (.text _) | some (.members _) => exact .throw _
  | some (.invite invite) =>
    apply Keeps.bind (.throwIf _ _)
    intro _
    cases env.redisFails 1 with
    | true => exact .pure _
    | false =>
      exact .bind (.query _) fun _ => .bind (onRedis_setex fun _ _ => h _ _ _) fun _ => .pure _

/-- The token of the invite that a request may store. -/
def Request.inviteStored (env : Env) (req : Request) : Option String :=
  match req.route with
  | .auth (.createInvite _) => some (env.uuids 0).toText
  | .auth (.login d) => d.inviteToken.truthy
  | _ => none

/-- A request keeps what the keys of its own invite and of its own magic link do not touch. -/
theorem onRedis_handle_own {req : Request}
    (hinvite : ∀ token, req.inviteStored env = some token → ∀ redis v deadline, R redis
      (redis.put (AuthService.inviteKey token) v deadline))
    (hmagic : ∀ redis v deadline, R redis
      (redis.put (AuthService.magicKey (env.uuids 0).toText) v deadline))
    (hdel : ∀ redis token, R redis (redis.del (AuthService.magicKey token))) :
    Keeps (OnRedis R) (handle X env req) := by
  have hguarded : Keeps (OnRedis R) (do
      let user ← AuthService.authenticate env req.token
      validate X req.route
      onDb (guarded X env user req.route)) :=
    .bind onRedis_authenticate fun _ => .bind onRedis_validate fun _ => onRedis_service
  obtain ⟨token, route⟩ := req
  cases route with
  | auth r =>
    cases r with
    | register d =>
      refine .bind onRedis_validate fun _ => .map (.bind (keeps_texts _) fun _ => ?_)
      refine .bind (.query _) fun _ => .bind (.throwIf _ _) fun _ => ?_
      refine .bind (.query _) fun _ => .bind (.throwIf _ _) fun _ => ?_
      exact .bind onRedis_service fun _ => onRedis_signUser
    | createInvite d =>
      refine .bind onRedis_authenticate fun _ => .bind onRedis_validate fun _ => .map ?_
      refine .bind (onRedis_setex fun _ _ => hinvite _ rfl _ _ _) fun _ => ?_
      exact .bind (.throwIf _ _) fun _ => .pure _
    | sendMagicLink d =>
      refine .bind onRedis_validate fun _ => .map ?_
      refine .bind (onRedis_setex fun _ _ => hmagic _ _ _) fun _ => ?_
      exact .bind (.throwIf _ _) fun _ => .bind (.throwIf _ _) fun _ => .pure _
    | verifyMagicLink magicToken =>
      refine .map (.bind onRedis_redisGet fun _ => .bind (.orThrow _ _) fun _ => ?_)
      split_ifs
      · exact onRedis_signInByEmail
      · exact .bind (.write fun s => hdel s.redis _) fun _ => onRedis_signInByEmail
    | login d =>
      refine .bind onRedis_validate fun _ => .map (.bind (.throwIf _ _) fun _ => ?_)
      have hrest : Keeps (OnRedis R) (do
          let found ← query fun s => AuthService.loginUser d s.db
          let user ← orThrow (.unauthorized "User not found") found
          AuthService.signUser X env user) :=
        .bind (.query _) fun _ => .bind (.orThrow _ _) fun _ => onRedis_signUser
      cases htoken : d.inviteToken.truthy with
      | some token =>
        exact .bind (onRedis_useInvite fun _ _ _ => hinvite token htoken _ _ _) fun _ => hrest
      | none => exact hrest
    | getProfile => exact .map onRedis_authenticate
    | refreshToken => exact .bind onRedis_authenticate fun _ => .map onRedis_signUser
  | _ => exact hguarded

/-- A request keeps what the keys of its invite and of magic links do not touch. -/
theorem onRedis_handle {req : Request}
    (hinvite : ∀ token, req.inviteStored env = some token → ∀ redis v deadline, R redis
      (redis.put (AuthService.inviteKey token) v deadline))
    (hmagic : ∀ redis token v deadline, R redis
      (redis.put (AuthService.magicKey token) v deadline))
    (hdel : ∀ redis token, R redis (redis.del (AuthService.magicKey token))) :
    Keeps (OnRedis R) (handle X env req) :=
  onRedis_handle_own hinvite (fun redis => hmagic redis _) hdel

end VoxLink
