import VoxLink.Backend.Users
import VoxLink.ProofKit.Keyspace

/-! `AuthService` and `JwtStrategy`. A token is its payload; the server accepts the tokens it has
issued and no others, until they expire. -/

namespace VoxLink

open ProofKit Prog

/-- The JSON stored under an `invite:` key. -/
structure InviteData where
  channelId : Option String
  role : String
  expiresAt : Date
  uses : Nat
  maxUses : ℚ
deriving DecidableEq, Repr

inductive RedisValue where
  | text (s : String)
  | invite (d : InviteData)
  | members (ids : List String)
deriving DecidableEq, Repr

abbrev Redis := Keyspace String RedisValue

structure Jwt where
  sub : Uuid
  username : String
  role : String
  iat : Nat
  exp : Nat
deriving DecidableEq, Repr

/-- The database, Redis, and the tokens signed so far. -/
structure Server where
  db : Database
  redis : Redis
  issued : List Jwt
deriving DecidableEq

def Server.empty : Server := ⟨Database.empty, [], []⟩

abbrev Backend := Prog Exception Server

/-- A service over the database, run by the server. -/
def onDb {α : Type} (m : Service α) : Backend α :=
  within Server.db (fun db s => { s with db }) m

structure SignedUser where
  id : Uuid
  username : String
  email : Option String
  role : String
  avatar : Option String
  status : String
deriving DecidableEq, Repr

structure Session where
  accessToken : Jwt
  user : SignedUser
deriving DecidableEq, Repr

structure Invite where
  inviteToken : String
  inviteUrl : String
  expiresAt : Date
  channelId : Option String
  role : String
deriving DecidableEq, Repr

namespace AuthService

variable (X : Externals) (env : Env)

def magicLinkTtl : Nat := 60 * 60

def inviteTtl : Nat := 60 * 60 * 24 * 7

def inviteKey (token : String) : String := "invite:" ++ token

def magicKey (token : String) : String := "magic:" ++ token

/-- Stores a value for `ttl` seconds, and whether that worked: Redis may fail, and refuses a
lifetime that is not positive. -/
def setex (site : Nat) (key : String) (ttl : Int) (v : RedisValue) : Backend Bool := do
  if env.redisFails site ∨ ttl ≤ 0 then pure false
  else
    write fun s => { s with
      redis := s.redis.put key v (some (env.now + 1000 * ttl.toNat)) }
    pure true

/-! ### Signing -/

def signUser (user : Profile) : Backend Session := do
  let token : Jwt :=
    { sub := user.id, username := user.username, role := user.role, iat := env.now / 1000
      exp := env.now / 1000 + X.jwtExpiresIn }
  write fun s => { s with issued := token :: s.issued }
  pure ⟨token, ⟨user.id, user.username, user.email, user.role, user.avatar, user.status⟩⟩

/-- Whether a token verifies: it was signed here and has not expired. -/
def verify (s : Server) (token : Jwt) : Bool := token ∈ s.issued && env.now / 1000 < token.exp

/-- `JwtAuthGuard` with `JwtStrategy.validate`: the account of a valid token, read from the
database again. -/
def authenticate (token : Option Jwt) : Backend Profile := do
  let valid ← query fun s => token.filter (verify env s)
  let token ← orThrow (.unauthorized "Unauthorized") valid
  onDb (UsersService.profile token.sub)

/-! ### The endpoints -/

def register (d : RegisterDto) : Backend Session := do
  texts (storable d.username)
  let nameTaken ← query fun s => s.db.users.any (·.username = d.username)
  throwIf nameTaken (.conflict "Username already taken")
  let emailTaken ← query fun s => s.db.users.any (·.email = some d.email)
  throwIf emailTaken (.conflict "Email already registered")
  let user ← onDb (UsersService.create env
    { username := d.username, email := .value d.email
      password := .value (X.bcryptHash env.salt d.password), role := .value "member"
      avatar := .absent, status := .value "online" })
  signUser X env user.toProfile

/-- Whole hours: a fraction is cut off. -/
def expiry (hours : ℚ) : Date := env.now + hours.floor.toNat * 60 * 60 * 1000

def createInvite (d : CreateInviteDto) : Backend Invite := do
  let inviteToken := (env.uuids 0).toText
  let invite : InviteData :=
    { channelId := d.channelId.get?, role := d.role.get?.getD "member"
      expiresAt := expiry env (d.expiresInHours.get?.getD (24 * 7)), uses := 0
      maxUses := d.maxUses.get?.getD 1 }
  let stored ← setex env 0 (inviteKey inviteToken) inviteTtl (.invite invite)
  throwIf (!stored) (.serviceUnavailable "Temporary storage unavailable")
  pure ⟨inviteToken, X.frontendUrl ++ "/join?invite=" ++ inviteToken, invite.expiresAt,
    invite.channelId, invite.role⟩

def sendMagicLink (email : String) : Backend String := do
  let stored ← setex env 0 (magicKey (env.uuids 0).toText) magicLinkTtl (.text email)
  throwIf (!stored) (.serviceUnavailable "Temporary storage unavailable")
  throwIf env.mailFails (.badRequest "Failed to send magic link")
  pure "Magic link sent"

/-- The text stored under a key; `null` when there is none. -/
def redisGet (site : Nat) (key : String) : Backend (Option RedisValue) := do
  throwIf (env.redisFails site) (.serviceUnavailable "Temporary storage unavailable")
  query fun s => s.redis.get env.now key

def findByEmail (email : String) (db : Database) : Option Profile :=
  (db.users.find? (·.email = some email)).map User.toProfile

def findByUsername (username : String) (db : Database) : Option Profile :=
  (db.users.find? (·.username = username)).map User.toProfile

/-- The email under a `magic:` key; an empty one counts as none. -/
def magicEmail : Option RedisValue → Option String
  | some (.text email) => if email = "" then none else some email
  | _ => none

/-- Signs in the account with the email, created first when there is none. -/
def signInByEmail (email : String) : Backend Session := do
  let found ← query fun s => findByEmail email s.db
  match found with
  | some user => signUser X env user
  | none =>
    let user ← onDb (UsersService.create env
      { username := "user_" ++ toString env.now, email := .value email, password := .absent
        role := .value "member", avatar := .absent, status := .value "online" })
    signUser X env user.toProfile

def verifyMagicLink (token : String) : Backend Session := do
  let stored ← redisGet env 0 (magicKey token)
  let email ← orThrow (.unauthorized "Invalid or expired magic link") (magicEmail stored)
  if env.redisFails 1 then pure ()
  else write fun s => { s with redis := s.redis.del (magicKey token) }
  signInByEmail X env email

/-- The check of an invite token, which counts the use. The count is stored for the remaining
lifetime; a failure to store it is ignored. -/
def useInvite (token : String) : Backend Unit := do
  let stored ← redisGet env 0 (inviteKey token)
  match stored with
  | none => throw (.unauthorized "Invalid or expired invite token")
  | some (.invite invite) =>
    throwIf (invite.maxUses ≠ 0 && invite.maxUses ≤ invite.uses)
      (.unauthorized "Invite has reached maximum uses")
    if env.redisFails 1 then pure ()
    else
      let ttl ← query fun s => s.redis.ttl env.now (inviteKey token)
      let _ ← setex env 2 (inviteKey token) ttl (.invite { invite with uses := invite.uses + 1 })
  | some _ => throw .syntaxError

/-- The account with the email of the body, else the one with its username. -/
def loginUser (d : LoginDto) (db : Database) : Option Profile :=
  (d.email.truthy.bind fun email => findByEmail email db).or
    (d.username.truthy.bind fun username => findByUsername username db)

def login (d : LoginDto) : Backend Session := do
  throwIf (d.inviteToken.truthy.isNone && d.email.truthy.isNone)
    (.unauthorized "Invalid login flow")
  match d.inviteToken.truthy with
  | some token => useInvite env token
  | none => pure ()
  let found ← query fun s => loginUser d s.db
  let user ← orThrow (.unauthorized "User not found") found
  signUser X env user

def refreshToken (user : Profile) : Backend Session := signUser X env user

/-- The account, when the password matches the stored hash. -/
def validateUser (username pass : String) : Backend (Option Profile) :=
  query fun s => (s.db.users.find? (·.username = username)).bind fun u =>
    match u.password with
    | some hash => if hash ≠ "" ∧ X.bcryptCompare pass hash then some u.toProfile else none
    | none => none

end AuthService

end VoxLink
