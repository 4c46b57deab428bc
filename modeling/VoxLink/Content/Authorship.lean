import VoxLink.Content.Requests
import VoxLink.ProofKit.Custody
import VoxLink.Realtime.Sockets

/-! Whose the messages and events are. Requests to the controllers of messages, events and
administration and the handlers of the gateway take turns. A row keeps the user for whom it was
created, and nobody else but administrators changes or deletes it. -/

namespace VoxLink

open ProofKit Prog

/-! ### Requests and handlers together -/

inductive ContentJob where
  | request (r : ContentRequest) (course : Course ContentAwaits Exception Body)
  | socket (t : Task) (phase : Phase)

def MessageChange.target : MessageChange → String
  | .update _ id _ _ | .remove _ id _ => id

def EventChange.target : EventChange → String
  | .update _ id _ _ | .remove id _ => id

/-- The message that the handler stores in its next turn, and its author. -/
def Phase.stores : Phase → Option (SendMessageData × Profile)
  | .save data user => some (data, user)
  | _ => none

namespace ContentJob

def move (X : Externals) : ContentJob → Gateway → ContentJob × Gateway
  | .request r course, g =>
    let moved := advance (ContentRequest.turn X) (r, course) g.server
    (.request r moved.1.2, { g with server := moved.2 })
  | .socket t phase, g =>
    let moved := Task.move (t, phase) g
    (.socket t moved.1.2, moved.2)

/-- The user for whom the job reads and writes, once it knows the account. -/
def caller : ContentJob → Option Profile
  | .request _ (.awaits (.service user _)) => some user
  | .request _ _ => none
  | .socket _ phase => phase.stores.map (·.2)

/-- The user who is authenticated for the job if it asks in this state: the account of the token, or
the one that the connection has attached to the socket. -/
def authenticated : ContentJob → Gateway → Option Profile
  | .request r _, g => callerOf r.env g.server r.token
  | .socket t _, g => WebsocketGateway.account t.client g

/-- The author of the message that the job is about to create, and the field that names its
channel. -/
def posts : ContentJob → Option (Profile × BodyField String)
  | .request r (.awaits (.service user .find)) =>
    match r.route with
    | .messages (.create channelId _) => some (user, .value channelId)
    | _ => none
  | .socket _ (.save data user) => some (user, data.channelId)
  | _ => none

/-- The creator of the event that the job is about to create. -/
def schedules : ContentJob → Option Profile
  | .request r (.awaits (.service user .find)) =>
    match r.route with
    | .events (.create _) => some user
    | _ => none
  | _ => none

def uuid : ContentJob → Uuid
  | .request r _ => r.env.uuids 0
  | .socket t _ => t.env.uuids 0

/-- Whether the job may still create a row. -/
def early : ContentJob → Bool
  | .request _ (.awaits .account) | .request _ (.awaits (.service _ .find)) => true
  | .request _ _ => false
  | .socket _ (.saved _ _ _) | .socket _ .finished => false
  | .socket _ _ => true

def supply (l : ContentJob) : List Uuid := if l.early then [l.uuid] else []

/-- The message that the job has found and may write to. -/
def checkedMessage : ContentJob → Option Uuid
  | .request r (.awaits (.service user .write)) =>
    match r.service user with
    | .message c => Uuid.parse c.target
    | _ => none
  | _ => none

def checkedEvent : ContentJob → Option Uuid
  | .request r (.awaits (.service user .write)) =>
    match r.service user with
    | .event c => Uuid.parse c.target
    | _ => none
  | _ => none

/-- Messages belong to an author and are in a channel. -/
def messages : Custody ContentJob Gateway Message Uuid (Option Uuid × Option Uuid) where
  rows g := g.server.db.messages
  key m := m.id
  owner m := (m.authorId, m.channelId)
  supply := supply
  checked := checkedMessage
  makes l o := ∃ user c, l.posts = some (user, c) ∧
    o = (some user.id, c.get?.bind Uuid.parse)
  mayTouch l o := ∃ user, l.caller = some user ∧ mayChange user o.1 = true

/-- Events belong to a creator. -/
def events : Custody ContentJob Gateway Event Uuid (Option Uuid) where
  rows g := g.server.db.events
  key e := e.id
  owner e := e.createdById
  supply := supply
  checked := checkedEvent
  makes l o := ∃ user, l.schedules = some user ∧ o = some user.id
  mayTouch l o := ∃ user, l.caller = some user ∧ mayChange user o = true

/-- The turn does to both tables what it may. -/
def Acts (l : ContentJob) (g : Gateway) (l' : ContentJob) (g' : Gateway) : Prop :=
  messages.Proper l g l' g' ∧ events.Proper l g l' g'

/-- The tables of messages and events are the same. -/
def SameContent (db db' : Database) : Prop :=
  db'.messages = db.messages ∧ db'.events = db.events

instance : IsPreorder Database SameContent where
  refl _ := ⟨rfl, rfl⟩
  trans _ _ _ h h' := ⟨h'.1.trans h.1, h'.2.trans h.2⟩

variable {X : Externals} {l l' : ContentJob} {g g' : Gateway} {r : ContentRequest} {user : Profile}
  {w : MessageAwaits} {t : Task} {phase : Phase}

theorem supply_sublist (huuid : l'.uuid = l.uuid) (hearly : l'.early = true → l.early = true) :
    l'.supply.Sublist l.supply := by
  unfold supply
  rw [huuid]
  cases hl' : l'.early with
  | true => rw [hearly hl']
  | false => exact List.nil_sublist _

/-- A turn that leaves both tables alone and has checked nothing. -/
theorem Acts.idle (h : SameContent g.server.db g'.server.db) (hsupply : l'.supply.Sublist l.supply)
    (hmessage : l'.checkedMessage = none) (hevent : l'.checkedEvent = none) : Acts l g l' g' := by
  refine ⟨.leaves h.1 hsupply fun x hx => ?_, .leaves h.2 hsupply fun x hx => ?_⟩
  · exact nomatch hmessage.symm.trans hx
  · exact nomatch hevent.symm.trans hx

/-! ### Handlers of the gateway -/

/-- The handler does not store a message next, or has just received it. -/
def Quiet (t : Task) (phase phase' : Phase) : Prop :=
  phase'.stores = none ∨ phase = .idle ∧ ∃ data, t.event = .sendMessage data

section Yields

variable {R : Database → Database → Prop} [IsPreorder Database R]

theorem yields_emit {p : Socket → Bool} {e : GatewayEvent} {next : Phase}
    (hnext : next.stores = none) :
    Yields (OnDb R) (Quiet t phase) (do
      emitTo p e
      pure next : Handler Phase) :=
  .bind (keeps_sockets fun _ => rfl) fun _ => .pure (.inl hnext)

theorem yields_socket {w : Gateway → Gateway} {next : Phase} (hw : ∀ g, (w g).server = g.server)
    (hnext : next.stores = none) :
    Yields (OnDb R) (Quiet t phase) (do
      write w
      pure next : Handler Phase) :=
  .bind (keeps_sockets hw) fun _ => .pure (.inl hnext)

theorem yields_asUser {k : Profile → Handler Phase}
    (hk : ∀ user, Yields (OnDb R) (Quiet t phase) (k user)) :
    Yields (OnDb R) (Quiet t phase) (t.asUser k) := by
  refine .bind (.query _) fun user => ?_
  cases user with
  | some user => exact hk user
  | none => exact .pure (.inl rfl)

theorem start_yields (husers : ∀ db us, R db { db with users := us }) :
    Yields (OnDb R) (Quiet t .idle) t.start := by
  rw [Task.start]
  cases hevent : t.event with
  | connection handshake =>
    refine .bind (keeps_sockets fun _ => rfl) fun _ => .bind (.query _) fun valid => ?_
    cases valid with
    | some token => exact .pure (.inl rfl)
    | none => exact yields_socket (fun _ => rfl) rfl
  | disconnection =>
    refine .bind (.query _) fun connected => .bind (.query _) fun user => ?_
    cases user with
    | some user => exact yields_socket (fun _ => rfl) rfl
    | none =>
      cases connected with
      | true => exact yields_socket (fun _ => rfl) rfl
      | false => exact yields_socket (fun _ => rfl) rfl
  | joinChannel c => exact yields_asUser fun _ => .pure (.inl rfl)
  | leaveChannel c => exact yields_asUser fun _ => yields_socket (fun _ => rfl) rfl
  | sendMessage data => exact yields_asUser fun _ => .pure (.inr ⟨rfl, data, hevent⟩)
  | _ => exact .bind (keeps_handleEvent husers (fun _ h => by cases h)) fun _ => .pure (.inl rfl)

/-- A turn that stores no message keeps every relation of databases that does not look at users. -/
theorem turn_yields (husers : ∀ db us, R db { db with users := us })
    (hphase : phase.stores = none) : Yields (OnDb R) (Quiet t phase) (t.turn phase) := by
  have profile : ∀ id, Keeps (OnDb R) (onServer (onDb (UsersService.profile id))) :=
    fun id => keeps_onDb (keeps_profile id)
  have status : ∀ id status, Keeps (OnDb R) (onServer (onDb
      (UsersService.writeStatus t.env id status))) := fun _ _ =>
        keeps_onDb (.write fun _ => husers _ _)
  cases phase with
  | idle => exact start_yields husers
  | account sub =>
    apply Yields.recover
    · exact .bind (profile _) fun user => yields_socket (fun _ => rfl) rfl
    · exact fun _ => yields_socket (fun _ => rfl) rfl
  | online user => exact .bind (status _ _) fun _ => .pure (.inl rfl)
  | onlineAgain user =>
    apply Yields.recover
    · exact .bind (profile _) fun _ => .pure (.inl rfl)
    · exact fun _ => yields_socket (fun _ => rfl) rfl
  | ownRoom user => exact yields_socket (fun _ => rfl) rfl
  | welcome user => exact yields_emit rfl
  | offline user => exact .bind (status _ _) fun _ => .pure (.inl rfl)
  | offlineAgain user => exact .bind (profile _) fun _ => yields_emit rfl
  | memberKeys user => exact .bind (keeps_onServer (.query _)) fun _ => .pure (.inl rfl)
  | forget user site keys =>
    cases keys with
    | nil => exact .pure (.inl rfl)
    | cons key keys =>
      refine .bind (keeps_onServer (keeps_attempt _ _)) fun worked => ?_
      cases worked with
      | true => exact .pure (.inl rfl)
      | false => exact .pure (.inl rfl)
  | channel c user =>
    apply Yields.recover
    · exact .bind (keeps_onDb (keeps_channels_findOneOf _)) fun _ => .pure (.inl rfl)
    · exact fun _ => yields_emit rfl
  | room c user => exact yields_socket (fun _ => rfl) rfl
  | addMember c user =>
    refine .bind (keeps_onServer ?_) fun _ => .pure (.inl rfl)
    exact .bind (keeps_attempt _ _) fun _ => .pure _
  | members c user => exact .bind (keeps_onServer (.query _)) fun _ => .pure (.inl rfl)
  | messages c user members =>
    apply Yields.recover
    · exact .bind (keeps_onDb (keeps_messages_findAllOf _ _ _)) fun _ => .pure (.inl rfl)
    · exact fun _ => yields_emit rfl
  | ready c user members messages =>
    exact .bind (keeps_sockets fun _ => rfl) fun _ => yields_emit rfl
  | dropMember c user =>
    refine .bind (keeps_onServer ?_) fun _ => yields_emit rfl
    exact .bind (keeps_attempt _ _) fun _ => .pure _
  | save data user => exact nomatch hphase
  | saved c user m => exact yields_emit rfl
  | finished => exact .pure (.inl rfl)

end Yields

theorem socket_acts : Acts (.socket t phase) g (move X (.socket t phase) g).1
    (move X (.socket t phase) g).2 := by
  apply Task.move_of_wp (C := fun phase' g' => Acts (.socket t phase) g (.socket t phase') g')
  cases hstores : phase.stores with
  | some _ =>
    cases phase with
    | save data user =>
      simp only [Task.turn, wp_recover, wp_bind, wp_onServer, wp_onDb]
      apply create_wp.mono
      · rintro v _ ⟨-, hposted, rfl⟩
        refine ⟨.makes rfl ?_ ⟨user, data.channelId, rfl, ?_⟩ rfl,
          .leaves rfl (List.nil_sublist _) (fun _ h => by cases h)⟩
        · show [t.env.uuids 0] = [v.message.id]
          rw [hposted.id]
        · exact Prod.ext hposted.author hposted.channel
      · rintro e _ ⟨-, rfl⟩
        exact .idle (refl_of _ _) (List.nil_sublist _) rfl rfl
    | _ => cases hstores
  | none =>
    have hquiet : Yields (OnDb SameContent) (Quiet t phase) (t.turn phase) :=
      turn_yields (fun _ _ => ⟨rfl, rfl⟩) hstores
    cases phase with
    | saved c user m => exact .idle (refl_of _ _) (List.nil_sublist _) rfl rfl
    | finished => exact .idle (refl_of _ _) (List.nil_sublist _) rfl rfl
    | save data user => cases hstores
    | _ =>
      apply (hquiet g).mono
      · exact fun _ _ hsame => .idle hsame.1 (supply_sublist rfl fun _ => rfl) rfl rfl
      · exact fun _ _ hsame => .idle hsame (supply_sublist rfl fun _ => rfl) rfl rfl

/-- A handler stores messages for the account that its socket had when it received them. -/
theorem stores_account {data : SendMessageData}
    (h : (Task.move (t, phase) g).1.2.stores = some (data, user)) :
    WebsocketGateway.account t.client g = some user := by
  revert h
  apply Task.move_of_wp (C := fun phase' _ => phase'.stores = some (data, user) →
    WebsocketGateway.account t.client g = some user)
  by_cases hsends : phase = .idle ∧ ∃ data, t.event = .sendMessage data
  · obtain ⟨rfl, data', hevent⟩ := hsends
    simp only [Task.turn, Task.start, hevent, Task.asUser, wp_bind, wp_query]
    cases WebsocketGateway.account t.client g with
    | some user' =>
      rintro ⟨⟩
      rfl
    | none => exact fun h => by cases h
  · cases hstores : phase.stores with
    | some _ =>
      cases phase with
      | save data' user' =>
        simp only [Task.turn, wp_recover, wp_bind]
        exact .of_forall (fun _ _ h => by cases h) fun _ _ h => by cases h
      | _ => cases hstores
    | none =>
      have hquiet : Yields (OnDb SameContent) (Quiet t phase) (t.turn phase) :=
        turn_yields (fun _ _ => ⟨rfl, rfl⟩) hstores
      apply (hquiet g).mono
      · rintro phase' g' ⟨-, hnone | hreceipt⟩ hsome
        · cases hnone.symm.trans hsome
        · exact absurd hreceipt hsends
      · exact fun _ _ _ h => by cases h

/-! ### Requests -/

/-- The job of a request at an `await` of its service. -/
abbrev serving (r : ContentRequest) (user : Profile) (w : MessageAwaits) : ContentJob :=
  .request r (.awaits (.service user w))

/-- The database of a gateway replaced. -/
abbrev withDb (g : Gateway) (db : Database) : Gateway := { g with server := { g.server with db } }

/-- The turn of a service, whose end is a request's or leads to its next `await`, acts. -/
def Serves {α : Type} (g : Gateway) (r : ContentRequest) (user : Profile) (w : MessageAwaits)
    (body : α → Body) (m : Service (MessageAwaits ⊕ α)) : Prop :=
  wp m
    (fun x db => Acts (serving r user w) g
      (.request r (.next (Sum.map (.service user) body x))) (withDb g db))
    (fun e db => Acts (serving r user w) g (.request r (.ended (.error e))) (withDb g db))
    g.server.db

theorem checkedMessage_write {c : MessageChange} (h : r.service user = .message c) :
    (serving r user .write).checkedMessage = Uuid.parse c.target ∧
      (serving r user .write).checkedEvent = none := by
  simp only [checkedMessage, checkedEvent, h, and_self]

theorem checkedEvent_write {c : EventChange} (h : r.service user = .event c) :
    (serving r user .write).checkedEvent = Uuid.parse c.target ∧
      (serving r user .write).checkedMessage = none := by
  simp only [checkedMessage, checkedEvent, h, and_self]

/-- A change of a message by a job that has checked it. -/
theorem changes_message {course : Course ContentAwaits Exception Body} {key : Uuid}
    {f : Message → Message}
    (hf : ∀ m, (f m).id = m.id ∧ (f m).authorId = m.authorId ∧ (f m).channelId = m.channelId)
    (hkey : (serving r user w).checkedMessage = some key)
    (hsupply : (ContentJob.request r course).supply = [])
    (hmessage : (ContentJob.request r course).checkedMessage = none)
    (hevent : (ContentJob.request r course).checkedEvent = none) :
    Acts (serving r user w) g (.request r course) (withDb g { g.server.db with
      messages := Rows.modify (·.id = key) f g.server.db.messages }) := by
  have hnone : (ContentJob.request r course).supply.Sublist (serving r user w).supply := by
    rw [hsupply]
    exact List.nil_sublist _
  refine ⟨.changes rfl ?_ ?_ hnone hmessage, .leaves rfl hnone fun x hx => ?_⟩
  · exact fun m => ⟨(hf m).1, Prod.ext (hf m).2.1 (hf m).2.2⟩
  · intro m _ hid
    have hid : m.id = key := by simpa using hid
    exact .inr (hkey.trans (congrArg some hid.symm))
  · exact nomatch hevent.symm.trans hx

/-- A change or deletion of an event by a job that has checked it. -/
theorem changes_event {course : Course ContentAwaits Exception Body} {key : Uuid}
    {es : List Event}
    (hes : (∃ f : Event → Event, (∀ e, (f e).id = e.id ∧ (f e).createdById = e.createdById) ∧
        es = Rows.modify (·.id = key) f g.server.db.events) ∨
      es = Rows.remove (·.id = key) g.server.db.events)
    (hkey : (serving r user w).checkedEvent = some key)
    (hsupply : (ContentJob.request r course).supply = [])
    (hmessage : (ContentJob.request r course).checkedMessage = none)
    (hevent : (ContentJob.request r course).checkedEvent = none) :
    Acts (serving r user w) g (.request r course) (withDb g { g.server.db with events := es }) := by
  have hnone : (ContentJob.request r course).supply.Sublist (serving r user w).supply := by
    rw [hsupply]
    exact List.nil_sublist _
  have hmay : ∀ e ∈ g.server.db.events, decide (e.id = key) = true →
      events.mayTouch (serving r user w) e.createdById ∨
        (serving r user w).checkedEvent = some e.id := by
    intro e _ hid
    have hid : e.id = key := by simpa using hid
    exact .inr (hkey.trans (congrArg some hid.symm))
  refine ⟨.leaves rfl hnone (fun x hx => nomatch hmessage.symm.trans hx), ?_⟩
  rcases hes with ⟨f, hf, rfl⟩ | rfl
  · exact .changes rfl hf hmay hnone hevent
  · exact .removes rfl hmay hnone hevent

theorem message_serves {c : MessageChange} (hservice : r.service user = .message c)
    (hc : (∃ id d, c = .update r.env id d user) ∨ ∃ id, c = .remove r.env id user) :
    Serves g r user w ContentRequest.messageBody (c.turn w) := by
  obtain ⟨hmessage, hevent⟩ := checkedMessage_write hservice
  cases w with
  | find =>
    have hfind : ∀ message, Serves g r user .find ContentRequest.messageBody (do
        MessageChange.authorise message c.target user
        pure (.inl .write)) := by
      intro message
      unfold Serves
      simp only [wp_bind, wp_pure]
      apply MessageChange.authorise_wp.mono
      · rintro _ _ ⟨rfl, key, m, hkey, hm, hmay⟩
        have hid : m.id = key := by simpa using List.find?_some hm
        refine ⟨.leaves rfl (List.nil_sublist _) fun x hx => ?_,
          .leaves rfl (List.nil_sublist _) fun x hx => by cases hevent.symm.trans hx⟩
        obtain rfl := Option.some.inj ((hkey.symm.trans hmessage.symm).trans hx)
        exact ⟨m, List.mem_of_find?_eq_some hm, hid, user, rfl, hmay⟩
      · rintro e _ rfl
        exact .idle (refl_of _ _) (List.nil_sublist _) rfl rfl
    rcases hc with ⟨id, d, rfl⟩ | ⟨id, rfl⟩
    · exact hfind _
    · exact hfind _
  | write =>
    unfold Serves
    rcases hc with ⟨id, d, rfl⟩ | ⟨id, rfl⟩
    · simp only [MessageChange.turn, wp_bind, wp_pure]
      apply MessageChange.storeEdit_wp.mono
      · rintro _ _ ⟨-, key, replyToId, hkey, rfl⟩
        exact changes_message (fun _ => ⟨rfl, rfl, rfl⟩) (hmessage.trans hkey) rfl rfl rfl
      · rintro e _ ⟨rfl, -⟩
        exact .idle (refl_of _ _) (List.nil_sublist _) rfl rfl
    · simp only [MessageChange.turn, MessageChange.storeRemoval, wp_bind, wp_uuidOf,
        wp_write, wp_pure]
      constructor
      · intro key hkey
        exact changes_message (fun _ => ⟨rfl, rfl, rfl⟩) (hmessage.trans hkey) rfl rfl rfl
      · exact fun _ => .idle (refl_of _ _) (List.nil_sublist _) rfl rfl
  | reload =>
    unfold Serves
    rcases hc with ⟨id, d, rfl⟩ | ⟨id, rfl⟩
    · rw [MessageChange.turn, wp_map]
      have hread : Keeps SameContent (MessagesService.findOne id) := keeps_messages_findOne id
      apply (hread _).mono
      · exact fun _ _ hsame => .idle hsame (List.nil_sublist _) rfl rfl
      · exact fun _ _ hsame => .idle hsame (List.nil_sublist _) rfl rfl
    · exact .idle (refl_of _ _) (List.nil_sublist _) rfl rfl

theorem event_serves {c : EventChange} (hservice : r.service user = .event c)
    (hc : (∃ id d, c = .update r.env id d user) ∨ ∃ id, c = .remove id user) :
    Serves g r user w ContentRequest.eventBody (c.turn X w) := by
  obtain ⟨hevent, hmessage⟩ := checkedEvent_write hservice
  cases w with
  | find =>
    have hfind : ∀ message, Serves g r user .find ContentRequest.eventBody (do
        EventChange.authorise message c.target user
        pure (.inl .write)) := by
      intro message
      unfold Serves
      simp only [wp_bind, wp_pure]
      apply EventChange.authorise_wp.mono
      · rintro _ _ ⟨rfl, key, e, hkey, he, hmay⟩
        have hid : e.id = key := by simpa using List.find?_some he
        refine ⟨.leaves rfl (List.nil_sublist _) (fun x hx => by cases hmessage.symm.trans hx),
          .leaves rfl (List.nil_sublist _) fun x hx => ?_⟩
        obtain rfl := Option.some.inj ((hkey.symm.trans hevent.symm).trans hx)
        exact ⟨e, List.mem_of_find?_eq_some he, hid, user, rfl, hmay⟩
      · rintro e _ rfl
        exact .idle (refl_of _ _) (List.nil_sublist _) rfl rfl
    rcases hc with ⟨id, d, rfl⟩ | ⟨id, rfl⟩
    · exact hfind _
    · exact hfind _
  | write =>
    unfold Serves
    rcases hc with ⟨id, d, rfl⟩ | ⟨id, rfl⟩
    · simp only [EventChange.turn, wp_bind, wp_pure]
      apply EventChange.storeEdit_wp.mono
      · rintro _ _ (rfl | ⟨key, f, hkey, hf, rfl⟩)
        · exact .idle (refl_of _ _) (List.nil_sublist _) rfl rfl
        · exact changes_event (.inl ⟨f, hf, rfl⟩) (hevent.trans hkey) rfl rfl rfl
      · rintro e _ rfl
        exact .idle (refl_of _ _) (List.nil_sublist _) rfl rfl
    · simp only [EventChange.turn, wp_bind, wp_pure]
      apply EventChange.storeRemoval_wp.mono
      · rintro _ _ ⟨key, hkey, rfl⟩
        exact changes_event (.inr rfl) (hevent.trans hkey) rfl rfl rfl
      · rintro e _ (rfl | ⟨key, hkey, rfl⟩)
        · exact .idle (refl_of _ _) (List.nil_sublist _) rfl rfl
        · exact changes_event (.inr rfl) (hevent.trans hkey) rfl rfl rfl
  | reload =>
    unfold Serves
    rcases hc with ⟨id, d, rfl⟩ | ⟨id, rfl⟩
    · rw [EventChange.turn, wp_map]
      have hread : Keeps SameContent (EventsService.findOne id) := keeps_events_findOne id
      apply (hread _).mono
      · exact fun _ _ hsame => .idle hsame (List.nil_sublist _) rfl rfl
      · exact fun _ _ hsame => .idle hsame (List.nil_sublist _) rfl rfl
    · exact .idle (refl_of _ _) (List.nil_sublist _) rfl rfl

theorem created_supply {key : Uuid} (hkey : key = r.env.uuids 0) :
    (serving r user .find).supply = [key] := by
  rw [hkey]
  rfl

theorem atOnce_serves (hservice : r.service user = .atOnce) :
    wp (guarded X r.env user r.route.route)
      (fun b db => Acts (serving r user .find) g (.request r (.ended (.ok b))) (withDb g db))
      (fun e db => Acts (serving r user .find) g (.request r (.ended (.error e))) (withDb g db))
      g.server.db := by
  have idle : ∀ {o : Except Exception Body} {db : Database}, SameContent g.server.db db →
      Acts (serving r user .find) g (.request r (.ended o)) (withDb g db) :=
    fun hsame => .idle hsame (List.nil_sublist _) rfl rfl
  have quiet : ∀ {m : Service Body}, Keeps SameContent m →
      wp m
        (fun b db => Acts (serving r user .find) g (.request r (.ended (.ok b))) (withDb g db))
        (fun e db => Acts (serving r user .find) g (.request r (.ended (.error e))) (withDb g db))
        g.server.db :=
    fun h => (h _).mono (fun _ _ => idle) fun _ _ => idle
  obtain ⟨env, token, route⟩ := r
  cases route with
  | messages r =>
    cases r with
    | create channelId d =>
      apply wp_map.mpr
      apply VoxLink.create_wp.mono
      · rintro v _ ⟨-, hposted, rfl⟩
        refine ⟨.makes rfl (created_supply hposted.id) ⟨user, .value channelId, rfl, ?_⟩ rfl,
          .leaves rfl (List.nil_sublist _) (fun _ h => by cases h)⟩
        exact Prod.ext hposted.author hposted.channel
      · rintro e _ ⟨-, rfl⟩
        exact idle (refl_of _ _)
    | findAll channelId limit offset => exact quiet (.map (keeps_messages_findAll _ _ _))
    | search channelId q =>
      exact quiet (.map (.bind (keeps_texts _) fun _ => .bind (keeps_uuidOf _) fun _ => .query _))
    | findOne id => exact quiet (.map (keeps_messages_findOne _))
    | update id d | remove id => cases hservice
  | events r =>
    cases r with
    | create d =>
      apply wp_map.mpr
      apply EventChange.create_wp.mono
      · rintro v _ ⟨e, hid, hcreator, rfl⟩
        exact ⟨.leaves rfl (List.nil_sublist _) (fun _ h => by cases h),
          .makes rfl (created_supply hid) ⟨user, rfl, hcreator⟩ rfl⟩
      · rintro e _ rfl
        exact idle (refl_of _ _)
    | findAll channelId => exact quiet (.map (.bind (keeps_selection _) fun _ => .query _))
    | findUpcoming days => exact quiet (.map (.query _))
    | findOne id => exact quiet (.map (keeps_events_findOne _))
    | update id d | remove id => cases hservice
  | admin r =>
    by_cases hdelete : ∃ id, r = .deleteMessage id
    · obtain ⟨id, rfl⟩ := hdelete
      simp only [ContentRoute.route, guarded, adminController, AdminService.deleteMessage,
        AdminService.requireAdmin, wp_map, wp_bind, wp_throwIf, wp_uuidOf, wp_write]
      refine ⟨fun hrole => ⟨fun key _ => ?_, fun _ => idle (refl_of _ _)⟩,
        fun _ => idle (refl_of _ _)⟩
      refine ⟨.changes rfl (fun _ => ⟨rfl, rfl⟩) (fun m _ _ => .inl ⟨user, rfl, ?_⟩)
        (List.nil_sublist _) rfl, .leaves rfl (List.nil_sublist _) (fun _ h => by cases h)⟩
      -- an administrator may change whatever there is
      rw [mayChange, hrole, Bool.and_false, Bool.not_false]
    · apply quiet
      apply keeps_adminController
      · exact fun _ _ _ => ⟨rfl, rfl⟩
      · exact fun _ _ => ⟨rfl, rfl⟩
      · exact fun id hid => absurd ⟨id, hid⟩ hdelete

/-- The changes that a request asks for are its caller's. -/
theorem service_cases (r : ContentRequest) (user : Profile) :
    (∃ c, r.service user = .message c ∧
        ((∃ id d, c = .update r.env id d user) ∨ ∃ id, c = .remove r.env id user)) ∨
      (∃ c, r.service user = .event c ∧
        ((∃ id d, c = .update r.env id d user) ∨ ∃ id, c = .remove id user)) ∨
      r.service user = .atOnce := by
  obtain ⟨env, token, route⟩ := r
  cases route with
  | messages r =>
    cases r with
    | update id d => exact .inl ⟨_, rfl, .inl ⟨id, d, rfl⟩⟩
    | remove id => exact .inl ⟨_, rfl, .inr ⟨id, rfl⟩⟩
    | _ => exact .inr (.inr rfl)
  | events r =>
    cases r with
    | update id d => exact .inr (.inl ⟨_, rfl, .inl ⟨id, d, rfl⟩⟩)
    | remove id => exact .inr (.inl ⟨_, rfl, .inr ⟨id, rfl⟩⟩)
    | _ => exact .inr (.inr rfl)
  | admin r => exact .inr (.inr rfl)

theorem service_acts : wp (r.turn X (.service user w))
    (fun x s => Acts (serving r user w) g (.request r (.next x)) { g with server := s })
    (fun e s => Acts (serving r user w) g (.request r (.ended (.error e))) { g with server := s })
    g.server := by
  rcases service_cases r user with ⟨c, hservice, hc⟩ | ⟨c, hservice, hc⟩ | hservice
  · simp only [ContentRequest.turn, hservice, wp_map, wp_onDb]
    exact message_serves hservice hc
  · simp only [ContentRequest.turn, hservice, wp_map, wp_onDb]
    exact event_serves hservice hc
  · simp only [ContentRequest.turn, hservice]
    split
    · rename_i hfind
      subst hfind
      simp only [wp_map, wp_onDb]
      exact atOnce_serves hservice
    · exact .idle (refl_of _ _) (List.nil_sublist _) rfl rfl

theorem account_acts : wp (r.turn X .account)
    (fun x s =>
      Acts (.request r (.awaits .account)) g (.request r (.next x)) { g with server := s })
    (fun e s => Acts (.request r (.awaits .account)) g (.request r (.ended (.error e)))
      { g with server := s })
    g.server := by
  simp only [ContentRequest.turn, wp_bind]
  apply authenticate_wp.mono
  · rintro user _ ⟨rfl, -⟩
    simp only [validate, wp_throwIf, wp_pure]
    constructor
    · exact fun _ => .idle (refl_of _ _) (List.Sublist.refl _) rfl rfl
    · exact fun _ => .idle (refl_of _ _) (List.nil_sublist _) rfl rfl
  · rintro e _ rfl
    exact .idle (refl_of _ _) (List.nil_sublist _) rfl rfl

/-- A turn of a request or a handler, whatever the state it is taken in. -/
theorem move_acts (l : ContentJob) (g : Gateway) : Acts l g (l.move X g).1 (l.move X g).2 := by
  cases l with
  | socket t phase => exact socket_acts
  | request r course =>
    cases course with
    | ended o => exact .idle (refl_of _ _) (List.nil_sublist _) rfl rfl
    | awaits p =>
      apply advance_of_wp (C := fun l s => Acts (.request r (.awaits p)) g (.request r l.2)
        { g with server := s })
      cases p with
      | account => exact account_acts
      | service user w => exact service_acts

/-! ### The caller -/

theorem service_caller : wp (r.turn X (.service user w))
    (fun x _ => ∀ user', (ContentJob.request r (.next x)).caller = some user' → user = user')
    (fun _ _ => True) g.server := by
  have hmap : ∀ {α : Type} {m : Service (MessageAwaits ⊕ α)} {body : α → Body},
      wp (Sum.map (.service user) body <$> onDb m)
        (fun x _ => ∀ user', (ContentJob.request r (.next x)).caller = some user' → user = user')
        (fun _ _ => True) g.server := by
    intro α m body
    rw [wp_map]
    apply wp.of_forall
    · rintro (w' | a) _ user' hcaller
      · exact Option.some.inj hcaller
      · cases hcaller
    · exact fun _ _ => trivial
  cases hservice : r.service user with
  | message c =>
    simp only [ContentRequest.turn, hservice]
    exact hmap
  | event c =>
    simp only [ContentRequest.turn, hservice]
    exact hmap
  | atOnce =>
    simp only [ContentRequest.turn, hservice]
    split
    · rw [wp_map]
      exact .of_forall (fun _ _ _ h => by cases h) fun _ _ => trivial
    · trivial

theorem account_caller : wp (r.turn X .account)
    (fun x _ => ∀ user, (ContentJob.request r (.next x)).caller = some user →
      callerOf r.env g.server r.token = some user) (fun _ _ => True) g.server := by
  simp only [ContentRequest.turn, wp_bind]
  apply authenticate_wp.mono
  · rintro user _ ⟨rfl, hauth⟩
    simp only [validate, wp_throwIf, wp_pure]
    refine ⟨fun _ user' hcaller => ?_, fun _ => trivial⟩
    rw [← Option.some.inj hcaller]
    exact authenticated_iff.mp hauth
  · exact fun _ _ _ => trivial

/-- A job learns its caller in the turn that authenticates the caller. -/
theorem move_caller (h : (l.move X g).1.caller = some user) :
    l.caller = some user ∨ (l.move X g).1.authenticated g = some user := by
  cases l with
  | socket t phase =>
    obtain ⟨⟨data, user'⟩, hstores, rfl⟩ := Option.map_eq_some_iff.mp h
    exact .inr (stores_account hstores)
  | request r course =>
    cases course with
    | ended o => exact nomatch h
    | awaits p =>
      revert h
      apply advance_of_wp (C := fun l _ => (ContentJob.request r l.2).caller = some user →
        (ContentJob.request r (.awaits p)).caller = some user ∨
          callerOf r.env g.server r.token = some user)
      cases p with
      | account =>
        exact account_caller.mono (fun _ _ h hcaller => .inr (h user hcaller)) fun _ _ _ => nofun
      | service user' w =>
        exact service_caller.mono (fun _ _ h hcaller => .inl (congrArg some (h user hcaller)))
          fun _ _ _ => nofun

/-! ### Runs -/

/-- Requests and events of sockets before their first turns. -/
def start (rs : List ContentRequest) (ts : List Task) (g : Gateway) : Pool ContentJob Gateway :=
  ⟨rs.map (.request · (.awaits .account)) ++ ts.map (.socket · .idle), g⟩

/-- The id that each would generate for a row that it creates. -/
def generated (rs : List ContentRequest) (ts : List Task) : List Uuid :=
  rs.map (·.env.uuids 0) ++ ts.map (·.env.uuids 0)

/-- What is left after the jobs `ks` have had their turns. -/
abbrev after (X : Externals) (p : Pool ContentJob Gateway) (ks : List Nat) :
    Pool ContentJob Gateway :=
  run (Pool.turn (move X)) p ks

/-- In the turn that job `k` takes after `ks` it acts for the user, who was authenticated for it in
some state before that. -/
def ActsFor (X : Externals) (p : Pool ContentJob Gateway) (ks : List Nat) (k : Nat) (l : ContentJob)
    (user : Profile) : Prop :=
  (after X p ks).jobs[k]? = some l ∧ l.caller = some user ∧
    ∃ as bs, ks = as ++ bs ∧ l.authenticated (after X p as).state = some user

/-- In its turn after `ks` job `k` creates the message, for its author and in the channel that the
request names, if it names one. -/
def CreatesMessage (X : Externals) (p : Pool ContentJob Gateway) (ks : List Nat) (k : Nat)
    (m : Message) : Prop :=
  ∃ l user c, ActsFor X p ks k l user ∧ l.posts = some (user, c) ∧ m.authorId = some user.id ∧
    m.channelId = c.get?.bind Uuid.parse ∧
    m.id ∉ (after X p ks).state.server.db.messages.map (·.id) ∧
    m.id ∈ (after X p (ks ++ [k])).state.server.db.messages.map (·.id)

def CreatesEvent (X : Externals) (p : Pool ContentJob Gateway) (ks : List Nat) (k : Nat)
    (e : Event) : Prop :=
  ∃ l user, ActsFor X p ks k l user ∧ l.schedules = some user ∧ e.createdById = some user.id ∧
    e.id ∉ (after X p ks).state.server.db.events.map (·.id) ∧
    e.id ∈ (after X p (ks ++ [k])).state.server.db.events.map (·.id)

/-- The author and the channel of a message are those of the row with its id at the start, or those
that it was created with. -/
def MessageOrigin (X : Externals) (p : Pool ContentJob Gateway) (ks : List Nat)
    (m : Message) : Prop :=
  (∃ m₀ ∈ p.state.server.db.messages, m₀.id = m.id ∧ m₀.authorId = m.authorId ∧
    m₀.channelId = m.channelId) ∨
  ∃ as k bs, ks = as ++ k :: bs ∧ CreatesMessage X p as k m

def EventOrigin (X : Externals) (p : Pool ContentJob Gateway) (ks : List Nat) (e : Event) : Prop :=
  (∃ e₀ ∈ p.state.server.db.events, e₀.id = e.id ∧ e₀.createdById = e.createdById) ∨
  ∃ as k bs, ks = as ++ k :: bs ∧ CreatesEvent X p as k e

variable {rs : List ContentRequest} {ts : List Task} {ks : List Nat} {k : Nat} {as : List Nat}

theorem start_cases (hl : l ∈ (start rs ts g).jobs) :
    (∃ r, l = .request r (.awaits .account)) ∨ ∃ t, l = .socket t .idle := by
  rcases List.mem_append.mp hl with hrequest | hsocket
  · obtain ⟨r, -, rfl⟩ := List.mem_map.mp hrequest
    exact .inl ⟨r, rfl⟩
  · obtain ⟨t, -, rfl⟩ := List.mem_map.mp hsocket
    exact .inr ⟨t, rfl⟩

theorem start_supply : (start rs ts g).jobs.flatMap supply = generated rs ts := by
  have hrequests : (rs.map (ContentJob.request · (.awaits .account))).flatMap supply =
      rs.map (·.env.uuids 0) := by
    rw [List.flatMap_map]
    exact List.flatMap_pure_eq_map _ _
  have hsockets : (ts.map (ContentJob.socket · .idle)).flatMap supply = ts.map (·.env.uuids 0) := by
    rw [List.flatMap_map]
    exact List.flatMap_pure_eq_map _ _
  rw [start, List.flatMap_append, hrequests, hsockets, generated]

theorem start_messages
    (h : (g.server.db.messages.map (·.id) ++ generated rs ts).Nodup) :
    messages.Kept (start rs ts g) := by
  refine ⟨?_, fun l hl x hx => ?_⟩
  · show (_ ++ (start rs ts g).jobs.flatMap supply).Nodup
    rw [start_supply]
    exact h
  · rcases start_cases hl with ⟨r, rfl⟩ | ⟨t, rfl⟩ <;> exact nomatch hx

theorem start_events (h : (g.server.db.events.map (·.id) ++ generated rs ts).Nodup) :
    events.Kept (start rs ts g) := by
  refine ⟨?_, fun l hl x hx => ?_⟩
  · show (_ ++ (start rs ts g).jobs.flatMap supply).Nodup
    rw [start_supply]
    exact h
  · rcases start_cases hl with ⟨r, rfl⟩ | ⟨t, rfl⟩ <;> exact nomatch hx

theorem actsFor (hl : (after X (start rs ts g) ks).jobs[k]? = some l)
    (hcaller : l.caller = some user) :
    ActsFor X (start rs ts g) ks k l user := by
  refine ⟨hl, hcaller, ?_⟩
  apply learnt (fun l => l.caller = some user) (fun l g => l.authenticated g = some user) _ _ _ hl
    hcaller
  · exact fun _ _ h => move_caller h
  · rintro (⟨r, course⟩ | ⟨t, phase⟩) _ _ h
    · exact h
    · exact h
  · intro l hl hcaller
    rcases start_cases hl with ⟨r, rfl⟩ | ⟨t, rfl⟩ <;> exact nomatch hcaller

theorem caller_of_posts {c : BodyField String} (h : l.posts = some (user, c)) :
    l.caller = some user := by
  unfold posts at h
  split at h
  · split at h
    · rw [caller, (Prod.mk.inj (Option.some.inj h)).1]
    · exact nomatch h
  · rw [caller, Phase.stores, Option.map_some, (Prod.mk.inj (Option.some.inj h)).1]
  · exact nomatch h

theorem caller_of_schedules (h : l.schedules = some user) : l.caller = some user := by
  unfold schedules at h
  split at h
  · split at h
    · rw [caller, Option.some.inj h]
    · exact nomatch h
  · exact nomatch h

theorem message_origin (h : messages.Kept (start rs ts g)) {m : Message}
    (hm : m ∈ (after X (start rs ts g) ks).state.server.db.messages) :
    MessageOrigin X (start rs ts g) ks m := by
  rcases h.origin (fun l g => (move_acts l g).1) hm with ⟨m₀, hm₀, hid, howner⟩ |
    ⟨as, k, bs, hks, l, hl, ⟨user, c, hposts, howner⟩, hnew, hold⟩
  · exact .inl ⟨m₀, hm₀, hid, (Prod.mk.inj howner).1, (Prod.mk.inj howner).2⟩
  · exact .inr ⟨as, k, bs, hks, l, user, c, actsFor hl (caller_of_posts hposts), hposts,
      (Prod.mk.inj howner).1, (Prod.mk.inj howner).2, hnew, hold⟩

theorem event_origin (h : events.Kept (start rs ts g)) {e : Event}
    (he : e ∈ (after X (start rs ts g) ks).state.server.db.events) :
    EventOrigin X (start rs ts g) ks e := by
  rcases h.origin (fun l g => (move_acts l g).2) he with ⟨e₀, he₀, hid, howner⟩ |
    ⟨as, k, bs, hks, l, hl, ⟨user, hschedules, howner⟩, hnew, hold⟩
  · exact .inl ⟨e₀, he₀, hid, howner⟩
  · exact .inr ⟨as, k, bs, hks, l, user, actsFor hl (caller_of_schedules hschedules), hschedules,
      howner, hnew, hold⟩

theorem mayChange_iff {creator : Option Uuid} :
    mayChange user creator = true ↔ creator = some user.id ∨ user.role = "admin" := by
  rw [mayChange, Bool.not_eq_true', Bool.and_eq_false_iff, decide_eq_false_iff_not,
    decide_eq_false_iff_not, not_not, not_not]

/-- Who made the rows that there are after the turns `ks`, and what the next turn, of job `k`, does
to them. -/
structure Authored (X : Externals) (p : Pool ContentJob Gateway) (ks : List Nat)
    (k : Nat) : Prop where
  messageOrigins : ∀ m ∈ (after X p ks).state.server.db.messages, MessageOrigin X p ks m
  eventOrigins : ∀ e ∈ (after X p ks).state.server.db.events, EventOrigin X p ks e
  messagesKept : ∀ m ∈ (after X p ks).state.server.db.messages,
    ∀ m' ∈ (after X p (ks ++ [k])).state.server.db.messages, m.id = m'.id →
      m.authorId = m'.authorId ∧ m.channelId = m'.channelId
  eventsKept : ∀ e ∈ (after X p ks).state.server.db.events,
    ∀ e' ∈ (after X p (ks ++ [k])).state.server.db.events, e.id = e'.id →
      e.createdById = e'.createdById
  messageChanges : ∀ m ∈ (after X p ks).state.server.db.messages,
    m ∉ (after X p (ks ++ [k])).state.server.db.messages →
      ∃ l user, ActsFor X p ks k l user ∧ (m.authorId = some user.id ∨ user.role = "admin")
  eventChanges : ∀ e ∈ (after X p ks).state.server.db.events,
    e ∉ (after X p (ks ++ [k])).state.server.db.events →
      ∃ l user, ActsFor X p ks k l user ∧ (e.createdById = some user.id ∨ user.role = "admin")

/-- In every run whose generated ids are new, every message keeps the author and the channel of the
request that created it and every event its creator, and only these and administrators change or
delete them. -/
theorem content_authored (X : Externals) (rs : List ContentRequest) (ts : List Task) (g : Gateway)
    (ks : List Nat) (k : Nat)
    (hmessages : (g.server.db.messages.map (·.id) ++ generated rs ts).Nodup)
    (hevents : (g.server.db.events.map (·.id) ++ generated rs ts).Nodup) :
    Authored X (start rs ts g) ks k := by
  have hm := start_messages hmessages
  have he := start_events hevents
  have hmoveMessages : ∀ l g, messages.Proper l g (l.move X g).1 (l.move X g).2 :=
    fun l g => (move_acts l g).1
  have hmoveEvents : ∀ l g, events.Proper l g (l.move X g).1 (l.move X g).2 :=
    fun l g => (move_acts l g).2
  have hnext : after X (start rs ts g) (ks ++ [k]) =
      ((after X (start rs ts g) ks).turn (move X) k).2 := run_append
  constructor
  · exact fun m hmem => message_origin hm hmem
  · exact fun e hmem => event_origin he hmem
  · intro m hmem m' hmem' hid
    rw [hnext] at hmem'
    exact Prod.mk.inj ((hm.run hmoveMessages).same_owner hmoveMessages hmem hmem' hid)
  · intro e hmem e' hmem' hid
    rw [hnext] at hmem'
    exact (he.run hmoveEvents).same_owner hmoveEvents hmem hmem' hid
  · intro m hmem hgone
    rw [hnext] at hgone
    obtain ⟨l, hl, user, hcaller, hmay⟩ := (hm.run hmoveMessages).touched hmoveMessages hmem hgone
    exact ⟨l, user, actsFor hl hcaller, mayChange_iff.mp hmay⟩
  · intro e hmem hgone
    rw [hnext] at hgone
    obtain ⟨l, hl, user, hcaller, hmay⟩ := (he.run hmoveEvents).touched hmoveEvents hmem hgone
    exact ⟨l, user, actsFor hl hcaller, mayChange_iff.mp hmay⟩

/-- Alice writes a message and edits it. -/
def aliceWrites : List ContentRequest :=
  [⟨sampleEnv 4, some (sampleToken 1 "alice"),
      .messages (.create openedChannel ⟨.value "yes", .absent, .absent, .absent⟩)⟩,
    ⟨sampleEnv 5, some (sampleToken 1 "alice"),
      .messages (.update (sampleUuid 4 0).toText ⟨.value "no", .absent, .absent, .absent⟩)⟩]

/-- Bob connects and writes a message. -/
def bobWrites : List Task :=
  [⟨sampleEnv 6, "bob", .connection ⟨some (sampleToken 2 "bob"), none, none⟩⟩,
    ⟨sampleEnv 7, "bob", .sendMessage ⟨.value openedChannel, .value "hello", .absent, .absent⟩⟩]

theorem bothWrite_authored :
    Authored sampleExternals (start aliceWrites bobWrites (channelOpened "secret"))
        [2, 0, 2, 0, 3, 1, 1, 3] 1 ∧
      ((after sampleExternals (start aliceWrites bobWrites (channelOpened "secret"))
        [2, 0, 2, 0, 3, 1, 1, 3, 1]).state.server.db.messages.map (·.content)) =
        [some "no", some "hello"] :=
  ⟨content_authored sampleExternals aliceWrites bobWrites _ _ _ (by decide +kernel)
    (by decide +kernel), by decide +kernel⟩

end ContentJob

end VoxLink
