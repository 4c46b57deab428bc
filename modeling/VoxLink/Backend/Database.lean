import VoxLink.Backend.Entities
import VoxLink.ProofKit.Programs
import VoxLink.ProofKit.Rows

/-! The tables, what a request draws from its surroundings, and the statements the repositories
issue, with the constraints and cascades that the entities declare. -/

namespace VoxLink

open ProofKit

structure Database where
  users : List User
  guilds : List Guild
  guildMembers : List GuildMember
  guildRoles : List GuildRole
  channelCategories : List ChannelCategory
  channels : List Channel
  messages : List Message
  events : List Event
deriving DecidableEq, Repr

def Database.empty : Database := ⟨[], [], [], [], [], [], [], []⟩

/-- A statement that PostgreSQL refuses. -/
inductive QueryError where
  | uuidSyntax
  | nulCharacter
  | integerSyntax
  | notNull (column : String)
  | unique (column : String)
  | foreignKey (column : String)
deriving DecidableEq, Repr

inductive Exception where
  | badRequest (message : String)
  | unauthorized (message : String)
  | forbidden (message : String)
  | notFound (message : String)
  | conflict (message : String)
  | serviceUnavailable (message : String)
  | queryFailed (error : QueryError)
  | propertyNotFound (property : String)
  | syntaxError
deriving DecidableEq, Repr

/-- What one request finds around it: the clock, the uuids generated while it runs, the code from
`nanoid`, the salt of bcrypt, the row each unordered query for one row returns, and which Redis
commands and mails fail. -/
structure Env where
  now : Date
  uuids : Nat → Uuid
  nanoid : String
  salt : String
  pick : Nat → Nat
  redisFails : Nat → Bool
  mailFails : Bool

/-- The code outside the repository that the backend calls, and its configuration. -/
structure Externals where
  isEmail : String → Bool
  isUUID : String → Bool
  isDateString : String → Bool
  parseDate : String → Date
  ilike : String → String → Bool
  bcryptHash : String → String → String
  bcryptCompare : String → String → Bool
  jwtExpiresIn : Nat
  frontendUrl : String

abbrev Service := Prog Exception Database

/-- A uuid given as text, as a statement reads it. -/
def uuidOf {σ : Type} (s : String) : Prog Exception σ Uuid :=
  Prog.orThrow (.queryFailed .uuidSyntax) (Uuid.parse s)

/-- A text that PostgreSQL takes: one without U+0000. -/
def storable (s : String) : Bool := Char.ofNat 0 ∉ s.toList

/-- Whether no escape of a JSON text stands for U+0000. -/
def nulFree : List Char → Bool
  | [] => true
  | '\\' :: 'u' :: '0' :: '0' :: '0' :: '0' :: _ => false
  | '\\' :: _ :: cs => nulFree cs
  | _ :: cs => nulFree cs

/-- A value that a `jsonb` column takes. -/
def storableJson (j : Json) : Bool := nulFree j.toList

/-- The texts of a statement, which is refused unless all of them are taken. -/
def texts {σ : Type} (ok : Bool) : Prog Exception σ Unit :=
  Prog.throwIf (!ok) (.queryFailed .nulCharacter)

/-- The value of a column that is not nullable. -/
def column {σ α : Type} (name : String) (v : Option α) : Prog Exception σ α :=
  Prog.orThrow (.queryFailed (.notNull name)) v

/-- The value of an integer column. -/
def integerColumn {σ : Type} (name : String) (bits : Nat) (old : Int) :
    BodyField ℚ → Prog Exception σ Int
  | .absent => pure old
  | .null => throw (.queryFailed (.notNull name))
  | .value q => Prog.orThrow (.queryFailed .integerSyntax) (toInteger bits q)

/-- A foreign key whose row has to be there. -/
def references {σ : Type} (name : String) (found : Bool) : Prog Exception σ Unit :=
  Prog.throwIf (!found) (.queryFailed (.foreignKey name))

/-- A nullable column of a body that refers to another row. -/
def nullableReference {σ : Type} (name : String) (found : σ → Uuid → Bool) (old : Option Uuid) :
    BodyField String → Prog Exception σ (Option Uuid)
  | .absent => pure old
  | .null => pure none
  | .value s => do
    let id ← uuidOf s
    let found ← Prog.query fun db => found db id
    references name found
    pure (some id)

/-- A reference to a row that is there. -/
theorem references_at {σ : Type} {name : String} {found : Bool} {s : σ} (h : found = true) :
    (references name found : Prog Exception σ Unit) s = .ok () s := by
  rw [h]
  rfl

section Rules

variable {σ : Type} {st : σ} {E : Exception → σ → Prop}

theorem wp_uuidOf {s : String} {Q : Uuid → σ → Prop} :
    wp (uuidOf s) Q E st ↔ (∀ u, Uuid.parse s = some u → Q u st) ∧
      (Uuid.parse s = none → E (.queryFailed .uuidSyntax) st) :=
  wp_orThrow

theorem uuidOf_ok {text : String} {u : Uuid} {st' : σ}
    (h : (uuidOf text : Prog Exception σ Uuid) st = .ok u st') :
    Uuid.parse text = some u ∧ st' = st := by
  have hwp : wp (uuidOf text : Prog Exception σ Uuid)
      (fun u st' => Uuid.parse text = some u ∧ st' = st) (fun _ _ => True) st :=
    wp_uuidOf.mpr ⟨fun u hu => ⟨hu, rfl⟩, fun _ => trivial⟩
  exact hwp.of_ok h

theorem uuidOf_at {text : String} {u : Uuid} (h : Uuid.parse text = some u) :
    (uuidOf text : Prog Exception σ Uuid) st = .ok u st := by
  rw [uuidOf, h]
  rfl

theorem uuidOf_error_at {text : String} (h : Uuid.parse text = none) :
    (uuidOf text : Prog Exception σ Uuid) st = .error (.queryFailed .uuidSyntax) st := by
  rw [uuidOf, h]
  rfl

theorem wp_texts {ok : Bool} {Q : Unit → σ → Prop} :
    wp (texts ok) Q E st ↔ (ok = true → Q () st) ∧
      (ok = false → E (.queryFailed .nulCharacter) st) := by
  cases ok <;> simp [texts, wp_throwIf]

theorem wp_column {α : Type} {name : String} {v : Option α} {Q : α → σ → Prop} :
    wp (column name v) Q E st ↔ (∀ a, v = some a → Q a st) ∧
      (v = none → E (.queryFailed (.notNull name)) st) :=
  wp_orThrow

theorem wp_references {name : String} {found : Bool} {Q : Unit → σ → Prop} :
    wp (references name found) Q E st ↔ (found = true → Q () st) ∧
      (found = false → E (.queryFailed (.foreignKey name)) st) := by
  cases found <;> simp [references, wp_throwIf]

theorem wp_nullableReference {name : String} {found : σ → Uuid → Bool} {old : Option Uuid}
    {d : BodyField String} :
    wp (nullableReference name found old d) (fun _ st' => st' = st) (fun _ st' => st' = st) st := by
  cases d with
  | absent => rfl
  | null => rfl
  | value s => simp [nullableReference, wp_uuidOf, wp_references]

/-- The reference of a new row is the id of the body, whose row has to be there. -/
theorem newReference_wp {name : String} {found : σ → Uuid → Bool} {d : BodyField String} :
    wp (nullableReference name found none d)
      (fun id st' => st' = st ∧ id = d.get?.bind Uuid.parse ∧
        d.get?.all (fun s => (Uuid.parse s).any (found st)) = true)
      (fun _ st' => st' = st ∧ d.get?.all (fun s => (Uuid.parse s).any (found st)) = false) st := by
  cases d with
  | absent => exact ⟨rfl, rfl, rfl⟩
  | null => exact ⟨rfl, rfl, rfl⟩
  | value s =>
    simp only [nullableReference, wp_bind, wp_uuidOf, wp_query, wp_references, wp_pure,
      BodyField.get?, Option.all_some, Option.bind_some]
    refine ⟨fun id hid => ⟨fun hfound => ?_, fun hmissing => ?_⟩, fun hnone => ?_⟩
    · exact ⟨trivial, hid.symm, by rw [hid, Option.any_some, hfound]⟩
    · exact ⟨trivial, by rw [hid, Option.any_some, hmissing]⟩
    · exact ⟨trivial, by rw [hnone, Option.any_none]⟩

theorem wp_integerColumn {name : String} {bits : Nat} {old : Int} {v : BodyField ℚ}
    {Q : Int → σ → Prop} (hQ : ∀ n, Q n st) (hE : ∀ e, E e st) :
    wp (integerColumn name bits old v) Q E st := by
  cases v with
  | absent => exact hQ _
  | null => exact hE _
  | value q => exact wp_orThrow.mpr ⟨fun n _ => hQ n, fun _ => hE _⟩

variable {R : σ → σ → Prop} [IsPreorder σ R]

theorem keeps_uuidOf (s : String) : Keeps R (uuidOf s : Prog Exception σ Uuid) :=
  .orThrow _ _

theorem keeps_texts (ok : Bool) : Keeps R (texts ok : Prog Exception σ Unit) := .throwIf _ _

theorem keeps_column {α : Type} (name : String) (v : Option α) :
    Keeps R (column name v : Prog Exception σ α) :=
  .orThrow _ _

theorem keeps_references (name : String) (found : Bool) :
    Keeps R (references name found : Prog Exception σ Unit) :=
  .throwIf _ _

theorem keeps_nullableReference (name : String) (found : σ → Uuid → Bool) (old : Option Uuid)
    (d : BodyField String) : Keeps R (nullableReference name found old d) := by
  cases d with
  | absent => exact .pure _
  | null => exact .pure _
  | value s =>
    exact .bind (keeps_uuidOf _) fun _ => .bind (.query _) fun _ =>
      .bind (keeps_references _ _) fun _ => .pure _

end Rules

namespace Database

variable (db : Database)

def userById (id : Uuid) : Option User := db.users.find? (·.id = id)

def guildById (id : Uuid) : Option Guild := db.guilds.find? (·.id = id)

def roleById (id : Uuid) : Option GuildRole := db.guildRoles.find? (·.id = id)

def channelById (id : Uuid) : Option Channel := db.channels.find? (·.id = id)

def messageById (id : Uuid) : Option Message := db.messages.find? (·.id = id)

def eventById (id : Uuid) : Option Event := db.events.find? (·.id = id)

/-- The roles loaded with a member. -/
def rolesOf (m : GuildMember) : List GuildRole := m.roles.filterMap db.roleById

/-- The channels of a category, by position. -/
def channelsOf (c : ChannelCategory) : List Channel :=
  (db.channels.filter (·.categoryId = some c.id)).insertionSort (·.position ≤ ·.position)

/-- The categories of a guild, by position. -/
def categoriesOf (g : Uuid) : List ChannelCategory :=
  (db.channelCategories.filter (·.guildId = g)).insertionSort (·.position ≤ ·.position)

/-! ### Deletions and their cascades -/

/-- Whether a channel, a message or an event refers to the user: these keys have no `onDelete`. -/
def userReferenced (u : Uuid) : Bool :=
  db.channels.any (·.createdById = some u) || db.messages.any (·.authorId = some u) ||
    db.events.any (·.createdById = some u)

/-- Deletes a user with its memberships and leaves its guilds without an owner. -/
def deleteUser (u : Uuid) : Database :=
  { db with
    users := Rows.remove (·.id = u) db.users
    guilds := Rows.modify (·.ownerId = some u) (fun g => { g with ownerId := none }) db.guilds
    guildMembers := Rows.remove (·.userId = u) db.guildMembers }

/-- Whether a message or an event refers to the channel. -/
def channelReferenced (c : Uuid) : Bool :=
  db.messages.any (·.channelId = some c) || db.events.any (·.channelId = some c)

def deleteChannel (c : Uuid) :
    Database := { db with channels := Rows.remove (·.id = c) db.channels }

/-- Deletes a role and the links to it. -/
def deleteRole (r : Uuid) : Database :=
  { db with
    guildRoles := Rows.remove (·.id = r) db.guildRoles
    guildMembers := db.guildMembers.map fun m => { m with roles := m.roles.filter (· ≠ r) } }

/-- Whether something outside the guild refers to one of its channels or categories. -/
def guildReferenced (g : Uuid) : Bool :=
  db.channels.any (fun c => c.guildId = some g ∧ db.channelReferenced c.id) ||
    db.channels.any (fun c => c.guildId ≠ some g ∧
      db.channelCategories.any fun k => k.guildId = g ∧ c.categoryId = some k.id)

/-- Deletes a guild with its members, roles, categories and channels, and the links to its
roles. -/
def deleteGuild (g : Uuid) : Database :=
  let gone := db.guildRoles.filter (·.guildId = g) |>.map (·.id)
  { db with
    guilds := Rows.remove (·.id = g) db.guilds
    guildMembers := (Rows.remove (·.guildId = g) db.guildMembers).map fun m =>
      { m with roles := m.roles.filter (· ∉ gone) }
    guildRoles := Rows.remove (·.guildId = g) db.guildRoles
    channelCategories := Rows.remove (·.guildId = g) db.channelCategories
    channels := Rows.remove (·.guildId = some g) db.channels }

end Database

end VoxLink
