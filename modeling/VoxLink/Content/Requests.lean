import VoxLink.Content.Edits

/-! Requests to the controllers of messages, events and administration, cut at their `await`s. The
guard loads the caller first. The services that change a row of somebody read it, check the caller
and write in a later turn; the others have one statement, or read only. -/

namespace VoxLink

open ProofKit Prog

/-! ### Changes of events -/

/-- A request that changes or deletes an event. It awaits what one about a message does. -/
inductive EventChange where
  | update (env : Env) (id : String) (d : UpdateEventDto) (user : Profile)
  | remove (id : String) (user : Profile)

namespace EventChange

open EventsService

/-- The read of the event and the check of the caller. -/
def authorise (message id : String) (user : Profile) : Service Unit := do
  let key ← uuidOf id
  let found ← findEvent key
  throwIf (found.createdById ≠ some user.id && user.role ≠ "admin") (.forbidden message)

/-- The write of `update`. The event may be gone by then, and then no column is written. -/
def storeEdit (X : Externals) (env : Env) (id : String) (d : UpdateEventDto) : Service Unit := do
  let key ← uuidOf id
  let row ← query fun db => db.eventById key
  texts d.storable
  match row with
  | none => pure ()
  | some event => do
    let title ← column "title" (d.title.required event.title)
    let startsAt ← column "startsAt" ((timeColumn X d.startsAt).required event.startsAt)
    let isRecurring ← column "isRecurring" (d.isRecurring.required event.isRecurring)
    let channelId ← channelTarget event.channelId d.channelId
    write fun db => { db with
      events := Rows.modify (·.id = key) (fun e => { e with
        title, startsAt, isRecurring, channelId, description := d.description.nullable e.description
        endsAt := (timeColumn X d.endsAt).nullable e.endsAt
        metadata := d.metadata.nullable e.metadata, updatedAt := env.now }) db.events }

/-- The deletion of `remove`, which throws when there is no event any more. -/
def storeRemoval (id : String) : Service Unit := do
  let key ← uuidOf id
  let affected ← query fun db => (db.eventById key).isSome
  write fun db => { db with events := Rows.remove (·.id = key) db.events }
  throwIf (!affected) (.notFound "Event not found")

/-- What a request does when what it awaits is there, up to the next `await`. -/
def turn (X : Externals) :
    EventChange → MessageAwaits → Service (MessageAwaits ⊕ Option (EventView User))
  | .update _ id _ user, .find => do
    authorise "Only event creator or admin can update event" id user
    pure (.inl .write)
  | .update env id d _, .write => do
    storeEdit X env id d
    pure (.inl .reload)
  | .update _ id _ _, .reload => (.inr ∘ some) <$> findOne id
  | .remove id user, .find => do
    authorise "Only event creator or admin can delete event" id user
    pure (.inl .write)
  | .remove id _, .write => do
    storeRemoval id
    pure (.inr none)
  -- a removal awaits nothing after its write
  | .remove _ _, .reload => throw .syntaxError

/-- The rest of a request from where it stands. -/
def rest (X : Externals) : EventChange → MessageAwaits → Service (Option (EventView User))
  | .update env id d user, .find => some <$> EventsService.update X env id d user
  | .update env id d _, .write => do
    storeEdit X env id d
    some <$> findOne id
  | .update _ id _ _, .reload => some <$> findOne id
  | .remove id user, .find => (fun _ => none) <$> EventsService.remove id user
  | .remove id _, .write => (fun _ => none) <$> storeRemoval id
  | .remove _ _, .reload => throw .syntaxError

variable {X : Externals} {env : Env} {db : Database} {id : String} {d : UpdateEventDto}
  {user : Profile} {r : EventChange} {w : MessageAwaits} {key : Uuid}

theorem authorise_wp {message : String} :
    wp (authorise message id user)
      (fun _ db' => db' = db ∧ ∃ key e, Uuid.parse id = some key ∧ db.eventById key = some e ∧
        mayChange user e.createdById = true)
      (fun _ db' => db' = db) db := by
  simp only [authorise, wp_bind, wp_uuidOf, implies_true, and_true]
  intro key hkey
  apply findEvent_wp.mono
  · rintro e _ ⟨rfl, he⟩
    rw [wp_throwIf]
    refine ⟨fun hrefuses => ⟨rfl, key, e, hkey, he, ?_⟩, fun _ => rfl⟩
    rw [mayChange, hrefuses, Bool.not_false]
  · exact fun _ _ hdb => hdb

/-- An edit changes the event but for its id and its creator. -/
theorem storeEdit_wp :
    wp (storeEdit X env id d)
      (fun _ db' => db' = db ∨ ∃ key f, Uuid.parse id = some key ∧
        (∀ e : Event, (f e).id = e.id ∧ (f e).createdById = e.createdById) ∧
        db' = { db with events := Rows.modify (·.id = key) f db.events })
      (fun _ db' => db' = db) db := by
  simp only [storeEdit, wp_bind, wp_uuidOf, wp_query, wp_texts, implies_true, and_true]
  intro key hkey _
  cases db.eventById key with
  | none => exact .inl rfl
  | some event =>
    simp only [wp_bind, wp_column, wp_write, implies_true, and_true]
    intro title _ startsAt _ isRecurring _
    apply wp_nullableReference.mono
    · rintro channelId _ rfl
      refine .inr ⟨key, _, hkey, ?_, rfl⟩
      exact fun _ => ⟨rfl, rfl⟩
    · exact fun _ _ hdb => hdb

theorem storeRemoval_wp :
    wp (storeRemoval id)
      (fun _ db' => ∃ key, Uuid.parse id = some key ∧
        db' = { db with events := Rows.remove (·.id = key) db.events })
      (fun _ db' => db' = db ∨ ∃ key, Uuid.parse id = some key ∧
        db' = { db with events := Rows.remove (·.id = key) db.events }) db := by
  simp only [storeRemoval, wp_bind, wp_uuidOf, wp_query, wp_write, wp_throwIf]
  constructor
  · exact fun key hkey => ⟨fun _ => ⟨key, hkey, rfl⟩, fun _ => .inr ⟨key, hkey, rfl⟩⟩
  · exact fun _ => .inl trivial

/-- The check in front of a rest that knows the row it has found. -/
theorem authorise_bind {α : Type} {message : String} {f : Uuid → Event → Service α}
    {f' : Service α} (h : ∀ key e, Uuid.parse id = some key → db.eventById key = some e →
      f key e db = f' db) :
    (do
      let key ← uuidOf id
      let found ← findEvent key
      throwIf (found.createdById ≠ some user.id && user.role ≠ "admin") (.forbidden message)
      f key found : Service α) db = (authorise message id user >>= fun _ => f') db := by
  apply check_bind
  · exact fun key e db' he => (findEvent_wp.of_ok he).1
  · exact fun key e hkey he => h key e hkey (findEvent_wp.of_ok he).2

theorem update_eq : EventsService.update X env id d user =
    (authorise "Only event creator or admin can update event" id user >>= fun _ =>
      storeEdit X env id d >>= fun _ => findOne id) := by
  funext db
  refine authorise_bind fun key e hkey he => ?_
  have hrow : (query fun db => db.eventById key : Service _) db = .ok (some e) db := query_at he
  simp only [storeEdit, bind_assoc]
  rw [bind_at (uuidOf_at hkey), bind_at hrow]
  simp only [bind_assoc]

theorem remove_eq : EventsService.remove id user =
    (authorise "Only event creator or admin can delete event" id user >>= fun _ =>
      storeRemoval id) := by
  funext db
  refine authorise_bind fun key e hkey he => ?_
  have haffected : (query fun db => (db.eventById key).isSome : Service _) db = .ok true db := by
    apply query_at
    rw [he, Option.isSome_some]
  rw [storeRemoval, bind_at (uuidOf_at hkey), bind_at haffected]
  rfl

theorem rest_turn (r : EventChange) (w : MessageAwaits) :
    r.rest X w = (r.turn X w >>= fun x => Sum.elim (r.rest X) pure x) := by
  cases r with
  | update env id d user =>
    cases w with
    | find => simp only [rest, turn, update_eq, bind_assoc, pure_bind, Sum.elim_inl, map_bind]
    | write => simp only [rest, turn, bind_assoc, pure_bind, Sum.elim_inl]
    | reload =>
      simp only [rest, turn, bind_map_left, Function.comp_apply, Sum.elim_inr, bind_pure_comp]
  | remove id user =>
    cases w with
    | find => simp only [rest, turn, remove_eq, bind_assoc, pure_bind, Sum.elim_inl, map_bind]
    | write => simp only [rest, turn, ← bind_pure_comp, bind_assoc, pure_bind, Sum.elim_inr]
    | reload => rfl

theorem left_lt {w' : MessageAwaits} {after : Database} (h : r.turn X w db = .ok (.inl w') after) :
    MessageChange.left w' < MessageChange.left w := by
  refine MessageChange.lowers_of_ok ?_ h
  cases r with
  | update env id d user =>
    cases w with
    | find | write => exact MessageChange.lowers_next (by decide)
    | reload => exact MessageChange.lowers_last
  | remove id user =>
    cases w with
    | find => exact MessageChange.lowers_next (by decide)
    | write => exact MessageChange.lowers_last
    | reload => trivial

/-- The event that `create` stores belongs to the caller. -/
theorem create_wp {d : CreateEventDto} :
    wp (EventsService.create X env d user)
      (fun _ db' => ∃ e, e.id = env.uuids 0 ∧ e.createdById = some user.id ∧
        db' = { db with events := db.events ++ [e] })
      (fun _ db' => db' = db) db := by
  simp only [EventsService.create, wp_bind, wp_texts, wp_column, wp_query, wp_references, wp_write,
    wp_pure, implies_true, and_true]
  intro _ isRecurring _ _
  apply wp_nullableReference.mono
  · rintro channelId _ rfl
    exact ⟨_, rfl, rfl, rfl⟩
  · exact fun _ _ hdb => hdb

end EventChange

/-! ### Requests -/

inductive ContentRoute where
  | messages (r : MessageRoute)
  | events (r : EventRoute)
  | admin (r : AdminRoute)

def ContentRoute.route : ContentRoute → Route
  | .messages r => .messages r
  | .events r => .events r
  | .admin r => .admin r

structure ContentRequest where
  env : Env
  token : Option Jwt
  route : ContentRoute

/-- The guard awaits the account of the token; then the service runs for the caller. -/
inductive ContentAwaits where
  | account
  | service (user : Profile) (w : MessageAwaits)
deriving DecidableEq, Repr

/-- How a service does what a request asks for. -/
inductive ContentService where
  | message (c : MessageChange)
  | event (c : EventChange)
  | atOnce

namespace ContentRequest

def service (r : ContentRequest) (user : Profile) : ContentService :=
  match r.route with
  | .messages (.update id d) => .message (.update r.env id d user)
  | .messages (.remove id) => .message (.remove r.env id user)
  | .events (.update id d) => .event (.update r.env id d user)
  | .events (.remove id) => .event (.remove id user)
  | _ => .atOnce

def messageBody (v : Option (MessageView User)) : Body := v.elim .none .message

def eventBody (v : Option (EventView User)) : Body := v.elim .none .event

/-- What a request does when what it awaits is there, up to the next `await`. -/
def turn (X : Externals) (r : ContentRequest) : ContentAwaits → Backend (ContentAwaits ⊕ Body)
  | .account => do
    let user ← AuthService.authenticate r.env r.token
    validate X r.route.route
    pure (.inl (.service user .find))
  | .service user w =>
    match r.service user with
    | .message c => Sum.map (.service user) messageBody <$> onDb (c.turn w)
    | .event c => Sum.map (.service user) eventBody <$> onDb (c.turn X w)
    | .atOnce =>
      if w = .find then .inr <$> onDb (guarded X r.env user r.route.route)
      -- the others await nothing after their statement
      else throw .syntaxError

/-- The rest of a request from where it stands. -/
def rest (X : Externals) (r : ContentRequest) : ContentAwaits → Backend Body
  | .account => handle X r.env ⟨r.token, r.route.route⟩
  | .service user w =>
    match r.service user with
    | .message c => messageBody <$> onDb (c.rest w)
    | .event c => eventBody <$> onDb (c.rest X w)
    | .atOnce =>
      if w = .find then onDb (guarded X r.env user r.route.route) else throw .syntaxError

/-- The turns that a request still needs after the next. -/
def left : ContentAwaits → Nat
  | .account => 3
  | .service _ w => MessageChange.left w

variable {X : Externals} {r : ContentRequest} {user : Profile} {w : ContentAwaits} {s : Server}

theorem onDb_map {α β : Type} {m : Service α} {f : α → β} : onDb (f <$> m) = f <$> onDb m :=
  within_map (fun _ _ => rfl) (fun _ _ _ => rfl) fun _ => rfl

theorem onDb_bind {α β : Type} {m : Service α} {f : α → Service β} :
    onDb (m >>= f) = (onDb m >>= fun a => onDb (f a)) :=
  within_bind (fun _ _ => rfl) fun _ _ _ => rfl

/-- Once the caller is known, the rest of a request is what its route does. -/
theorem rest_find : r.rest X (.service user .find) = onDb (guarded X r.env user r.route.route) := by
  obtain ⟨env, token, route⟩ := r
  cases route with
  | messages r =>
    cases r with
    | update id d | remove id =>
      simp only [rest, service, MessageChange.rest, ← onDb_map, Functor.map_map]
      rfl
    | _ => rfl
  | events r =>
    cases r with
    | update id d | remove id =>
      simp only [rest, service, EventChange.rest, ← onDb_map, Functor.map_map]
      rfl
    | _ => rfl
  | admin r => rfl

/-- A turn of a service, and the rest of the request after it. -/
theorem rest_service {α : Type} {prog : MessageAwaits → Service α}
    {turn : MessageAwaits → Service (MessageAwaits ⊕ α)} {body : α → Body} {w : MessageAwaits}
    (hprog : prog w = (turn w >>= fun x => Sum.elim prog pure x))
    (hrest : ∀ w, r.rest X (.service user w) = body <$> onDb (prog w)) :
    r.rest X (.service user w) = (Sum.map (.service user) body <$> onDb (turn w) >>= fun x =>
      Sum.elim (r.rest X) pure x) := by
  rw [hrest, hprog, onDb_bind, map_bind, bind_map_left]
  congr 1
  funext x
  cases x with
  | inl w' => exact (hrest w').symm
  | inr a => rfl

theorem rest_turn (r : ContentRequest) (w : ContentAwaits) :
    r.rest X w = (r.turn X w >>= fun x => Sum.elim (r.rest X) pure x) := by
  cases w with
  | account =>
    simp only [turn, bind_assoc, pure_bind, Sum.elim_inl, rest_find]
    obtain ⟨env, token, route⟩ := r
    cases route <;> rfl
  | service user w =>
    cases hservice : r.service user with
    | message c =>
      simp only [turn, hservice]
      exact rest_service (c.rest_turn w) fun w => by simp only [rest, hservice]
    | event c =>
      simp only [turn, hservice]
      exact rest_service (c.rest_turn w) fun w => by simp only [rest, hservice]
    | atOnce =>
      simp only [turn, rest, hservice]
      split
      · rw [bind_map_left]
        exact (bind_pure _).symm
      · rfl

theorem service_left {α : Type} {m : Service (MessageAwaits ⊕ α)} {body : α → Body}
    {w : MessageAwaits} (h : ∀ w' db', m s.db = .ok (.inl w') db' →
      MessageChange.left w' < MessageChange.left w) :
    wp (Sum.map (.service user) body <$> onDb m)
      (fun x _ => ∀ w', x = .inl w' → left w' < MessageChange.left w) (fun _ _ => True) s := by
  rw [wp_map, wp_onDb, wp]
  cases hm : m s.db with
  | ok x db' =>
    cases x with
    | inl w' =>
      rintro _ ⟨⟩
      exact h w' db' hm
    | inr a => exact fun _ h => by cases h
  | error e db' => trivial

theorem left_lt {w' : ContentAwaits} {after : Server} (h : r.turn X w s = .ok (.inl w') after) :
    left w' < left w := by
  have hwp : wp (r.turn X w) (fun x _ => ∀ w', x = .inl w' → left w' < left w) (fun _ _ => True)
      s := by
    cases w with
    | account =>
      simp only [turn, wp_bind, wp_pure, Sum.inl.injEq, forall_eq']
      exact .of_forall (fun _ _ => .of_forall (fun _ _ => Nat.lt_succ_self 2) fun _ _ => trivial)
        fun _ _ => trivial
    | service user w =>
      cases hservice : r.service user with
      | message c =>
        simp only [turn, hservice]
        exact service_left fun _ _ => MessageChange.left_lt
      | event c =>
        simp only [turn, hservice]
        exact service_left fun _ _ => EventChange.left_lt
      | atOnce =>
        simp only [turn, hservice]
        split
        · rw [wp_map]
          exact .of_forall (fun _ _ _ h => by cases h) fun _ _ => trivial
        · trivial
  exact hwp.of_ok h w' rfl

/-- Alone, a request does what the backend does with it. -/
theorem alone (r : ContentRequest) (s : Server) :
    run (Pool.turn (advance (turn X))) ⟨[(r, .awaits .account)], s⟩ (List.replicate 4 0) =
      ⟨[(r, .ended ((handle X r.env ⟨r.token, r.route.route⟩).outcome s))],
        (handle X r.env ⟨r.token, r.route.route⟩).final s⟩ :=
  run_course (rest_turn r) (fun _ _ _ _ => left_lt) (by decide)

end ContentRequest

end VoxLink
