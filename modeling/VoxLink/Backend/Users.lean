import VoxLink.Backend.Dto

/-! `UsersService`. -/

namespace VoxLink

open ProofKit Prog

/-- The columns of a user that the responses of other services select. -/
structure UserSummary where
  id : Uuid
  username : String
  avatar : Option String
deriving DecidableEq, Repr

def Profile.summary (p : Profile) : UserSummary := ⟨p.id, p.username, p.avatar⟩

structure UserListing where
  id : Uuid
  username : String
  email : Option String
  avatar : Option String
  role : String
  status : String
  lastSeen : Option Date
  createdAt : Date
deriving DecidableEq, Repr

structure UserHit where
  id : Uuid
  username : String
  email : Option String
  avatar : Option String
  role : String
  status : String
deriving DecidableEq, Repr

namespace UsersService

variable (X : Externals) (env : Env)

/-- What `create` takes: the fields of `CreateUserDto` and a status. -/
structure UserData where
  username : String
  email : BodyField String
  password : BodyField String
  role : BodyField String
  avatar : BodyField String
  status : BodyField String
deriving DecidableEq, Repr

def UserData.ofDto (d : CreateUserDto) : UserData :=
  ⟨d.username, d.email, d.password, d.role, d.avatar, .absent⟩

def UserData.storable (d : UserData) : Bool :=
  [.value d.username, d.password, d.role, d.avatar, d.status].all
    (·.optional VoxLink.storable)

/-- The unique columns of `users`, for the row `self`. -/
def uniqueColumns (self : Uuid) (username : String) (email : Option String) : Service Unit := do
  let nameTaken ← query fun db => db.users.any fun u => u.id ≠ self ∧ u.username = username
  throwIf nameTaken (.queryFailed (.unique "username"))
  let emailTaken ← query fun db =>
    db.users.any fun u => u.id ≠ self ∧ email.isSome ∧ u.email = email
  throwIf emailTaken (.queryFailed (.unique "email"))

def insertUser (u : User) : Service Unit := do
  uniqueColumns u.id u.username u.email
  write fun db => { db with users := db.users ++ [u] }

def create (d : UserData) : Service User := do
  texts d.storable
  let role ← column "role" (d.role.required "member")
  let status ← column "status" (d.status.required "offline")
  let user : User :=
    { id := env.uuids 0, username := d.username, email := d.email.nullable none
      password := d.password.nullable none, avatar := d.avatar.nullable none, role, status
      lastSeen := none, metadata := none, createdAt := env.now, updatedAt := env.now }
  insertUser user
  pure user

def findAll : Service (List UserListing) :=
  query fun db => db.users.map fun u =>
    ⟨u.id, u.username, u.email, u.avatar, u.role, u.status, u.lastSeen, u.createdAt⟩

/-- The row without its password, as `findById` takes it apart. -/
def profile (id : Uuid) : Service Profile := do
  let user ← query fun db => (db.userById id).map User.toProfile
  orThrow (.notFound "User not found") user

def findById (id : String) : Service Profile := do
  let id ← uuidOf id
  profile id

/-- The row after the fields of the body, when the row is there. -/
def updateRow (id : Uuid) (d : UpdateUserDto) : Service Unit := do
  texts d.storable
  let old ← query fun db => (db.userById id).map User.toProfile
  match old with
  | none => pure ()
  | some old =>
    let username ← column "username" (d.username.required old.username)
    let role ← column "role" (d.role.required old.role)
    uniqueColumns id username (d.email.nullable old.email)
    write fun db => { db with
      users := Rows.modify (·.id = id) (fun u => { u with
        username, role, email := d.email.nullable u.email
        password := d.password.nullable u.password, avatar := d.avatar.nullable u.avatar
        updatedAt := env.now }) db.users }

def update (id : String) (d : UpdateUserDto) : Service Profile := do
  let id ← uuidOf id
  updateRow env id d
  profile id

def updateStatus (id : Uuid) (status : String) : Service Profile := do
  write fun db => { db with
    users := Rows.modify (·.id = id)
      (fun u => { u with status, lastSeen := some env.now, updatedAt := env.now }) db.users }
  profile id

def remove (id : String) : Service Unit := do
  let id ← uuidOf id
  let found ← query fun db => db.users.any (·.id = id)
  throwIf (!found) (.notFound "User not found")
  let referenced ← query fun db => db.userReferenced id
  throwIf referenced (.queryFailed (.foreignKey "users"))
  write fun db => db.deleteUser id

def search (q : String) : Service (List UserHit) := do
  texts (storable q)
  query fun db =>
    (db.users.filter fun u => X.ilike u.username ("%" ++ q ++ "%") ||
      u.email.any (X.ilike · ("%" ++ q ++ "%"))).map fun u =>
        ⟨u.id, u.username, u.email, u.avatar, u.role, u.status⟩

end UsersService

end VoxLink
