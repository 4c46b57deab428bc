import VoxLink.Backend.Channels

/-! `EventsService` and the conversions of `EventsController`. `findOne`, `update` and
`findUpcoming` load the creator as a whole row of `users`. -/

namespace VoxLink

open ProofKit Prog

/-- An event with its creator, as much of it as the caller loaded. -/
structure EventView (υ : Type) where
  event : Event
  createdBy : Option υ
  channel : Option Channel
deriving DecidableEq, Repr

structure EventListing where
  id : Uuid
  title : String
  description : Option String
  startsAt : Date
  endsAt : Option Date
  metadata : Option Json
  isRecurring : Bool
  createdAt : Date
  createdBy : Option UserSummary
  channel : Option (Uuid × String)
deriving DecidableEq, Repr

namespace EventsService

variable (X : Externals) (env : Env)

-- The controller converts the times; an empty `endsAt` counts as none.
def create (d : CreateEventDto) (user : Profile) : Service (EventView Profile) := do
  texts d.storable
  let isRecurring ← column "isRecurring" (d.isRecurring.required false)
  let creator ← query fun db => (db.userById user.id).isSome
  references "createdById" creator
  let channelId ← channelTarget none d.channelId
  let event : Event :=
    { id := env.uuids 0, title := d.title, description := d.description.nullable none
      startsAt := X.parseDate d.startsAt, endsAt := d.endsAt.truthy.map X.parseDate
      metadata := d.metadata.nullable none, isRecurring, channelId, createdById := some user.id
      createdAt := env.now, updatedAt := env.now }
  write fun db => { db with events := db.events ++ [event] }
  pure ⟨event, some user, none⟩

/-- The channel of the query; an empty parameter counts as none. -/
def selection : Option String → Service (Option Uuid)
  | none => pure none
  | some s => if s = "" then pure none else some <$> uuidOf s

def findAll (channelId : Option String) : Service (List EventListing) := do
  let selected ← selection channelId
  query fun db =>
    ((db.events.filter fun e => selected.all fun id => e.channelId = some id).insertionSort
      (·.startsAt ≤ ·.startsAt)).map fun e =>
        ⟨e.id, e.title, e.description, e.startsAt, e.endsAt, e.metadata, e.isRecurring,
          e.createdAt, db.relatedSummary e.createdById,
          (e.channelId.bind db.channelById).map fun c => (c.id, c.name)⟩

def view (db : Database) (e : Event) : EventView User :=
  ⟨e, db.related e.createdById, e.channelId.bind db.channelById⟩

def findEvent (id : Uuid) : Service Event := do
  let event ← query fun db => db.eventById id
  orThrow (.notFound "Event not found") event

def findOne (id : String) : Service (EventView User) := do
  let id ← uuidOf id
  let event ← findEvent id
  query fun db => view db event

/-- A time of the body: a non-empty text is converted, and an empty one is no time. -/
def timeColumn (d : BodyField String) : BodyField Date :=
  match d with
  | .absent => .absent
  | .null => .null
  | .value s => .value (X.parseDate s)

def update (id : String) (d : UpdateEventDto) (user : Profile) : Service (EventView User) := do
  let key ← uuidOf id
  let event ← findEvent key
  throwIf (event.createdById ≠ some user.id && user.role ≠ "admin")
    (.forbidden "Only event creator or admin can update event")
  texts d.storable
  let title ← column "title" (d.title.required event.title)
  let startsAt ← column "startsAt" ((timeColumn X d.startsAt).required event.startsAt)
  let isRecurring ← column "isRecurring" (d.isRecurring.required event.isRecurring)
  let channelId ← channelTarget event.channelId d.channelId
  write fun db => { db with
    events := Rows.modify (·.id = key) (fun e => { e with
      title, startsAt, isRecurring, channelId, description := d.description.nullable e.description
      endsAt := (timeColumn X d.endsAt).nullable e.endsAt
      metadata := d.metadata.nullable e.metadata, updatedAt := env.now }) db.events }
  findOne id

def remove (id : String) (user : Profile) : Service Unit := do
  let key ← uuidOf id
  let event ← findEvent key
  throwIf (event.createdById ≠ some user.id && user.role ≠ "admin")
    (.forbidden "Only event creator or admin can delete event")
  write fun db => { db with events := Rows.remove (·.id = key) db.events }

/-- The events of the next `days` days. -/
def upcoming (days : Nat) (db : Database) : List Event :=
  (db.events.filter fun e => env.now ≤ e.startsAt ∧
    e.startsAt ≤ env.now + days * 24 * 60 * 60 * 1000).insertionSort (·.startsAt ≤ ·.startsAt)

def findUpcoming (days : Nat) : Service (List (EventView User)) :=
  query fun db => (upcoming env days db).map (view db)

end EventsService

end VoxLink
