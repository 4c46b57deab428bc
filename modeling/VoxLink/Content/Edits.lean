import VoxLink.Content.Deletion
import VoxLink.ProofKit.Courses
import VoxLink.Secrecy.PrivateRuns

/-! `update` and `remove` of `MessagesService`, cut at their `await`s. Both read the message, check
the caller and then write without looking at the message again. -/

namespace VoxLink

open ProofKit Prog MessagesService

/-- A check of a row in front of a rest that knows the row it has found. -/
theorem check_bind {ρ α : Type} {find : Uuid → Service ρ} {refuses : ρ → Bool} {e : Exception}
    {f : Uuid → ρ → Service α} {f' : Service α} {id : String} {db : Database}
    (hfind : ∀ key row db', find key db = .ok row db' → db' = db)
    (h : ∀ key row, Uuid.parse id = some key → find key db = .ok row db →
      f key row db = f' db) :
    (do
      let key ← uuidOf id
      let row ← find key
      throwIf (refuses row) e
      f key row : Service α) db =
    ((do
      let key ← uuidOf id
      let row ← find key
      throwIf (refuses row) e : Service Unit) >>= fun _ => f') db := by
  simp only [bind_assoc]
  refine bind_congr_at fun key after hkey => ?_
  obtain ⟨hparse, rfl⟩ := uuidOf_ok hkey
  refine bind_congr_at fun row after' hrow => ?_
  obtain rfl := hfind key row after' hrow
  cases hrefuses : refuses row with
  | true => rfl
  | false => exact h key row hparse hrow

/-! ### The turns of a request -/

/-- A request that changes or deletes a message. -/
inductive MessageChange where
  | update (env : Env) (id : String) (d : UpdateMessageDto) (user : Profile)
  | remove (env : Env) (id : String) (user : Profile)

/-- What a request awaits. -/
inductive MessageAwaits where
  | find
  | write
  | reload
deriving DecidableEq, Repr

namespace MessageChange

/-- The read of the message and the check of the caller. -/
def authorise (message id : String) (user : Profile) : Service Unit := do
  let key ← uuidOf id
  let found ← findMessage key
  throwIf (found.authorId ≠ some user.id && user.role ≠ "admin") (.forbidden message)

/-- The write of `update`, whatever the row is by then. -/
def storeEdit (env : Env) (id : String) (d : UpdateMessageDto) : Service Unit := do
  let key ← uuidOf id
  let row ← query fun db => db.messageById key
  texts d.storable
  let replyToId ← replyTarget (row.bind (·.replyToId)) d.replyToId
  write fun db =>
    { db with messages := Rows.modify (·.id = key) (edited env d replyToId) db.messages }

/-- The write of `remove`, whatever the row is by then. -/
def storeRemoval (env : Env) (id : String) : Service Unit := do
  let key ← uuidOf id
  write fun db => { db with messages := Rows.modify (·.id = key) (·.removed env) db.messages }

/-- What a request does when what it awaits is there, up to the next `await`. -/
def turn : MessageChange → MessageAwaits → Service (MessageAwaits ⊕ Option (MessageView User))
  | .update _ id _ user, .find => do
    authorise "Only message author or admin can edit message" id user
    pure (.inl .write)
  | .update env id d _, .write => do
    storeEdit env id d
    pure (.inl .reload)
  | .update _ id _ _, .reload => (.inr ∘ some) <$> findOne id
  | .remove _ id user, .find => do
    authorise "Only message author or admin can delete message" id user
    pure (.inl .write)
  | .remove env id _, .write => do
    storeRemoval env id
    pure (.inr none)
  -- a removal awaits nothing after its write
  | .remove _ _ _, .reload => throw .syntaxError

/-- The rest of a request from where it stands. -/
def rest : MessageChange → MessageAwaits → Service (Option (MessageView User))
  | .update env id d user, .find => some <$> MessagesService.update env id d user
  | .update env id d _, .write => do
    storeEdit env id d
    some <$> findOne id
  | .update _ id _ _, .reload => some <$> findOne id
  | .remove env id user, .find => (fun _ => none) <$> MessagesService.remove env id user
  | .remove env id _, .write => (fun _ => none) <$> storeRemoval env id
  | .remove _ _ _, .reload => throw .syntaxError

/-- The turns that a request still needs after the next. -/
def left : MessageAwaits → Nat
  | .find => 2
  | .write => 1
  | .reload => 0

abbrev move := advance turn

variable {env : Env} {db : Database} {id : String} {d : UpdateMessageDto} {user : Profile}
  {r : MessageChange} {w : MessageAwaits} {key : Uuid}

theorem authorise_wp {message : String} :
    wp (authorise message id user)
      (fun _ db' => db' = db ∧ ∃ key m, Uuid.parse id = some key ∧ db.messageById key = some m ∧
        mayChange user m.authorId = true)
      (fun _ db' => db' = db) db := by
  simp only [authorise, wp_bind, wp_uuidOf, implies_true, and_true]
  intro key hkey
  apply findMessage_wp.mono
  · rintro m _ ⟨rfl, hm⟩
    rw [wp_throwIf]
    have hfound := (Option.filter_eq_some_iff.mp hm).1
    refine ⟨fun hrefuses => ⟨rfl, key, m, hkey, hfound, ?_⟩, fun _ => rfl⟩
    rw [mayChange, hrefuses, Bool.not_false]
  · exact fun _ _ hdb => hdb

/-- The check in front of a rest that knows the row it has found. -/
theorem authorise_bind {α : Type} {message : String} {f : Uuid → Message → Service α}
    {f' : Service α} (h : ∀ key m, Uuid.parse id = some key → db.messageById key = some m →
      f key m db = f' db) :
    (do
      let key ← uuidOf id
      let found ← findMessage key
      throwIf (found.authorId ≠ some user.id && user.role ≠ "admin") (.forbidden message)
      f key found : Service α) db = (authorise message id user >>= fun _ => f') db := by
  apply check_bind
  · exact fun key m db' hm => (findMessage_wp.of_ok hm).1
  · intro key m hkey hm
    exact h key m hkey (Option.filter_eq_some_iff.mp (findMessage_wp.of_ok hm).2).1

theorem update_eq : MessagesService.update env id d user =
    (authorise "Only message author or admin can edit message" id user >>= fun _ =>
      storeEdit env id d >>= fun _ => findOne id) := by
  funext db
  refine authorise_bind fun key m hkey hm => ?_
  have hrow : (query fun db => db.messageById key : Service _) db = .ok (some m) db := query_at hm
  simp only [storeEdit, bind_assoc]
  rw [bind_at (uuidOf_at hkey), bind_at hrow]
  rfl

theorem remove_eq : MessagesService.remove env id user =
    (authorise "Only message author or admin can delete message" id user >>= fun _ =>
      storeRemoval env id) := by
  funext db
  refine authorise_bind fun key m hkey _ => ?_
  rw [storeRemoval, bind_at (uuidOf_at hkey)]
  rfl

theorem rest_turn (r : MessageChange) (w : MessageAwaits) :
    r.rest w = (r.turn w >>= fun x => Sum.elim r.rest pure x) := by
  cases r with
  | update env id d user =>
    cases w with
    | find =>
      simp only [rest, turn, update_eq, bind_assoc, pure_bind, Sum.elim_inl, map_bind]
    | write => simp only [rest, turn, bind_assoc, pure_bind, Sum.elim_inl]
    | reload =>
      simp only [rest, turn, bind_map_left, Function.comp_apply, Sum.elim_inr, bind_pure_comp]
  | remove env id user =>
    cases w with
    | find =>
      simp only [rest, turn, remove_eq, bind_assoc, pure_bind, Sum.elim_inl, map_bind]
    | write =>
      simp only [rest, turn, ← bind_pure_comp, bind_assoc, pure_bind, Sum.elim_inr]
    | reload => rfl

/-- What a stage awaits next, if anything, needs fewer turns. -/
abbrev Lowers {α : Type} (w : MessageAwaits) (m : Service (MessageAwaits ⊕ α)) (db : Database) :
    Prop :=
  wp m (fun x _ => ∀ w', x = .inl w' → left w' < left w) (fun _ _ => True) db

theorem lowers_next {α β : Type} {w' : MessageAwaits} {m : Service β} (h : left w' < left w) :
    Lowers w (m >>= fun _ => pure (.inl w' : MessageAwaits ⊕ α)) db := by
  rw [Lowers, wp_bind]
  refine .of_forall (fun _ _ w'' heq => ?_) fun _ _ => trivial
  rwa [← Sum.inl.inj heq]

theorem lowers_last {α β : Type} {m : Service β} {f : β → α} :
    Lowers w (m >>= fun b => pure (.inr (f b) : MessageAwaits ⊕ α)) db := by
  rw [Lowers, wp_bind]
  exact .of_forall (fun _ _ _ heq => by cases heq) fun _ _ => trivial

theorem lowers_of_ok {α : Type} {m : Service (MessageAwaits ⊕ α)} {w' : MessageAwaits}
    {after : Database} (h : Lowers w m db) (hok : m db = .ok (.inl w') after) : left w' < left w :=
  h.of_ok hok w' rfl

theorem left_lt {w' : MessageAwaits} {after : Database} (h : r.turn w db = .ok (.inl w') after) :
    left w' < left w := by
  refine lowers_of_ok ?_ h
  cases r with
  | update env id d user =>
    cases w with
    | find | write => exact lowers_next (by decide)
    | reload => exact lowers_last
  | remove env id user =>
    cases w with
    | find => exact lowers_next (by decide)
    | write => exact lowers_last
    | reload => trivial

/-- Alone, a request does what the service does. -/
theorem alone (r : MessageChange) (db : Database) :
    run (Pool.turn move) ⟨[(r, .awaits .find)], db⟩ (List.replicate 3 0) =
      ⟨[(r, .ended ((r.rest .find).outcome db))], (r.rest .find).final db⟩ :=
  run_course (rest_turn r) (fun _ _ _ _ => left_lt) (by decide)

/-! ### What a turn does to a message -/

/-- The message that a body replies to, if any, is stored. -/
def replyStored (db : Database) (d : UpdateMessageDto) : Bool :=
  d.replyToId.get?.all fun id => ((Uuid.parse id).bind db.messageById).isSome

theorem replyTarget_stored {old : Option Uuid} :
    wp (replyTarget old d.replyToId) (fun _ db' => db' = db ∧ replyStored db d = true)
      (fun _ db' => db' = db ∧ replyStored db d = false) db := by
  unfold replyStored
  cases d.replyToId with
  | absent => exact ⟨rfl, rfl⟩
  | null => exact ⟨rfl, rfl⟩
  | value s =>
    simp only [replyTarget, wp_bind, wp_uuidOf, wp_query, wp_references, wp_pure, BodyField.get?,
      Option.all_some, true_and, nullableReference]
    constructor
    · intro key hkey
      simp [hkey]
    · intro hkey
      simp [hkey]

/-- The columns take the body: its texts can be stored, and so can its reply. -/
def editStored (db : Database) (d : UpdateMessageDto) : Bool := d.storable && replyStored db d

theorem storeEdit_wp :
    wp (storeEdit env id d)
      (fun _ db' => editStored db d = true ∧ ∃ key replyToId, Uuid.parse id = some key ∧
        db' = { db with messages := Rows.modify (·.id = key) (edited env d replyToId) db.messages })
      (fun _ db' => db' = db ∧ (editStored db d = true → Uuid.parse id = none)) db := by
  simp only [storeEdit, editStored, wp_bind, wp_uuidOf, wp_query, wp_texts]
  constructor
  · intro key hkey
    refine ⟨fun htexts => ?_, fun hrefused => ⟨trivial, fun hstored => ?_⟩⟩
    · apply replyTarget_stored.mono
      · rintro replyToId _ ⟨rfl, hstored⟩
        exact ⟨Bool.and_eq_true_iff.mpr ⟨htexts, hstored⟩, key, replyToId, hkey, rfl⟩
      · rintro _ _ ⟨rfl, hmissing⟩
        refine ⟨rfl, fun hstored => ?_⟩
        cases hmissing.symm.trans (Bool.and_eq_true_iff.mp hstored).2
    · cases hrefused.symm.trans (Bool.and_eq_true_iff.mp hstored).1
  · exact fun hkey => ⟨trivial, fun _ => hkey⟩

/-- The edit would change a row that `remove` has left. -/
def disturbs (d : UpdateMessageDto) : Bool :=
  d.content.nullable (some "[Message deleted]") ≠ some "[Message deleted]" ||
    d.attachments.nullable none ≠ none

/-- The write of the request brings something back into the message, if it is deleted. -/
def overwrites (db : Database) (key : Uuid) : MessageChange → Bool
  | .update _ id d _ =>
    Uuid.parse id = some key && (db.messageById key).isSome && editStored db d && disturbs d
  | .remove _ _ _ => false

/-- What a turn makes of what the request awaits and of the database. -/
inductive Moves (db : Database) : MessageChange → MessageAwaits →
    Course MessageAwaits Exception (Option (MessageView User)) → Database → Prop
  | found {r : MessageChange} : Moves db r .find (.awaits .write) db
  | refused {r : MessageChange} {w : MessageAwaits} {e : Exception} :
      (w = .write → ∀ key, overwrites db key r = false) → Moves db r w (.ended (.error e)) db
  | edited {env : Env} {id : String} {d : UpdateMessageDto} {user : Profile} {key : Uuid}
      {replyToId : Option Uuid} : Uuid.parse id = some key → editStored db d = true →
      Moves db (.update env id d user) .write (.awaits .reload)
        { db with messages := Rows.modify (·.id = key) (edited env d replyToId) db.messages }
  | reloaded {env : Env} {id : String} {d : UpdateMessageDto} {user : Profile}
      {v : Option (MessageView User)} :
      Moves db (.update env id d user) .reload (.ended (.ok v)) db
  | removed {env : Env} {id : String} {user : Profile} {key : Uuid} : Uuid.parse id = some key →
      Moves db (.remove env id user) .write (.ended (.ok none))
        { db with messages := Rows.modify (·.id = key) (·.removed env) db.messages }

theorem move_moves :
    Moves db r w (move (r, .awaits w) db).1.2 (move (r, .awaits w) db).2 := by
  apply advance_of_wp (C := fun l db' => Moves db r w l.2 db')
  cases w with
  | find =>
    have hfind : ∀ message id user, wp (do
        authorise message id user
        pure (.inl .write) : Service (MessageAwaits ⊕ Option (MessageView User)))
        (fun x db' => Moves db r .find (.next x) db')
        (fun e db' => Moves db r .find (.ended (.error e)) db') db := by
      intro message id user
      rw [wp_bind]
      apply authorise_wp.mono
      · rintro _ _ ⟨rfl, -⟩
        exact .found
      · rintro _ _ rfl
        exact .refused (fun h => by cases h)
    cases r with
    | update env id d user => exact hfind _ id user
    | remove env id user => exact hfind _ id user
  | write =>
    cases r with
    | update env id d user =>
      rw [turn, wp_bind]
      apply storeEdit_wp.mono
      · rintro _ _ ⟨hstored, key, replyToId, hkey, rfl⟩
        exact .edited hkey hstored
      · rintro _ _ ⟨rfl, hnone⟩
        refine .refused fun _ key => ?_
        simp only [overwrites]
        cases hstored : editStored _ d with
        | false => simp
        | true => simp [hnone hstored]
    | remove env id user =>
      simp only [turn, storeRemoval, wp_bind, wp_uuidOf, wp_write, wp_pure]
      exact ⟨fun key hkey => .removed hkey, fun _ => .refused fun _ _ => rfl⟩
  | reload =>
    cases r with
    | update env id d user =>
      rw [turn, wp_map]
      have hsame : Keeps (· = ·) (MessagesService.findOne id) := keeps_messages_findOne id
      apply (hsame db).mono
      · rintro v _ rfl
        exact .reloaded
      · rintro _ _ rfl
        exact .refused (fun h => by cases h)
    | remove env id user => exact .refused (fun h => by cases h)

/-! ### Requests that take turns -/

/-- The request deletes the message. -/
def removes (key : Uuid) : MessageChange → Bool
  | .remove _ id _ => Uuid.parse id = some key
  | .update _ _ _ _ => false

end MessageChange

open MessageChange

abbrev MessageJob := MessageChange × Course MessageAwaits Exception (Option (MessageView User))

/-- The job has deleted the message. -/
def MessageJob.removed (key : Uuid) : MessageJob → Bool
  | (r, .ended (.ok _)) => r.removes key
  | _ => false

/-- Some request has deleted the message. -/
def removedBy (key : Uuid) (p : Pool MessageJob Database) : Bool :=
  p.jobs.any (MessageJob.removed key)

/-- Once a request has deleted the message, its row holds the tombstone and nothing else. -/
def Buried (key : Uuid) (p : Pool MessageJob Database) : Prop :=
  removedBy key p = true → ∀ m ∈ p.state.messages, m.id = key →
    m.content = some "[Message deleted]" ∧ m.attachments = none

instance {key : Uuid} {p : Pool MessageJob Database} : Decidable (Buried key p) :=
  inferInstanceAs (Decidable (_ → _))

/-- An edit writes after a request has deleted the message, and brings something back into it. -/
def digsUp (key : Uuid) (p : Pool MessageJob Database) (k : Nat) : Bool :=
  removedBy key p && p.jobs[k]?.any fun l =>
    l.2 = .awaits .write && overwrites p.state key l.1

variable {key : Uuid} {p : Pool MessageJob Database} {k : Nat} {db : Database} {r : MessageChange}
  {w : MessageAwaits}

theorem removedBy_set {course : Course MessageAwaits Exception (Option (MessageView User))}
    (hk : p.jobs[k]? = some (r, .awaits w)) :
    removedBy key ⟨p.jobs.set k (r, course), db⟩ =
      (MessageJob.removed key (r, course) || removedBy key p) := by
  rw [removedBy, removedBy, set_any _ _ hk, jobs_any _ hk]
  rfl

/-- The row holds the tombstone and nothing else. -/
def Message.buried (m : Message) : Prop :=
  m.content = some "[Message deleted]" ∧ m.attachments = none

theorem buried_set_iff {course : Course MessageAwaits Exception (Option (MessageView User))}
    (hk : p.jobs[k]? = some (r, .awaits w)) (hjob : MessageJob.removed key (r, course) = false) :
    Buried key ⟨p.jobs.set k (r, course), db⟩ ↔
      (removedBy key p = true → ∀ m ∈ db.messages, m.id = key → m.buried) := by
  rw [Buried, removedBy_set hk, hjob, Bool.false_or]
  rfl

theorem digsUp_eq (hk : p.jobs[k]? = some (r, .awaits w)) :
    digsUp key p k = (removedBy key p && (w = .write && overwrites p.state key r)) := by
  rw [digsUp, hk]
  simp

/-- What holds of the rows of one key after a change of the rows of another or of the same. -/
theorem forall_modify_iff {ms : List Message} {key' : Uuid} {f : Message → Message}
    {P : Message → Prop} (hf : ∀ m, (f m).id = m.id) :
    (∀ m ∈ Rows.modify (·.id = key') f ms, m.id = key → P m) ↔
      ∀ m ∈ ms, m.id = key → P (if key = key' then f m else m) := by
  have hid : ∀ m : Message, (if m.id = key' then f m else m).id = m.id := by
    intro m
    split
    · exact hf m
    · rfl
  simp only [Rows.mem_modify, decide_eq_true_eq]
  constructor
  · rintro h m hm rfl
    exact h _ ⟨m, hm, rfl⟩ (hid m)
  · rintro h _ ⟨m, hm, rfl⟩ hkey
    rw [hid m] at hkey
    have hrow := h m hm hkey
    rwa [← hkey] at hrow

/-- What an edit makes of a row that `remove` has left. -/
theorem edited_buried_iff {env : Env} {d : UpdateMessageDto} {replyToId : Option Uuid} {m : Message}
    (hm : m.buried) : (edited env d replyToId m).buried ↔ disturbs d = false := by
  obtain ⟨hcontent, hattachments⟩ := hm
  simp only [Message.buried, edited, hcontent, hattachments, disturbs, Bool.or_eq_false_iff,
    decide_eq_false_iff_not, not_not]

/-- An edit leaves a buried message buried if it is one of another message, or finds no row, or has
nothing to bring back. -/
theorem edited_rows_iff {env : Env} {d : UpdateMessageDto} {key' : Uuid} {replyToId : Option Uuid}
    (hrows : ∀ m ∈ db.messages, m.id = key → m.buried) :
    (∀ m ∈ Rows.modify (·.id = key') (edited env d replyToId) db.messages, m.id = key → m.buried) ↔
      (key' = key && (db.messageById key).isSome && disturbs d) = false := by
  have hchanged : (∀ m ∈ Rows.modify (·.id = key') (edited env d replyToId) db.messages,
      m.id = key → m.buried) ↔ ∀ m ∈ db.messages, m.id = key →
        (if key = key' then edited env d replyToId m else m).buried :=
          forall_modify_iff fun _ => rfl
  rw [hchanged]
  by_cases hkey : key' = key
  · subst hkey
    simp only [if_true, decide_true, Bool.true_and]
    cases hfound : db.messageById key' with
    | none =>
      refine iff_of_true (fun m hm hid => ?_) rfl
      have hnone := List.find?_eq_none.mp hfound m hm
      simp [hid] at hnone
    | some m =>
      have hm := List.mem_of_find?_eq_some hfound
      have hid : m.id = key' := by simpa using List.find?_some hfound
      simp only [Option.isSome_some, Bool.true_and]
      constructor
      · exact fun hall => (edited_buried_iff (hrows m hm hid)).mp (hall m hm hid)
      · exact fun hquiet m' hm' hid' => (edited_buried_iff (hrows m' hm' hid')).mpr hquiet
  · simp only [hkey, decide_false, Bool.false_and, iff_true]
    intro m hm hid
    rw [if_neg (Ne.symm hkey)]
    exact hrows m hm hid

/-- What a removal does to the rows of a key: its own get buried, others stay as they are. -/
theorem removed_rows {env : Env} {key' : Uuid}
    (h : key' ≠ key → ∀ m ∈ db.messages, m.id = key → m.buried) :
    ∀ m ∈ Rows.modify (·.id = key') (·.removed env) db.messages, m.id = key → m.buried := by
  have hchanged : (∀ m ∈ Rows.modify (·.id = key') (·.removed env) db.messages,
      m.id = key → m.buried) ↔ ∀ m ∈ db.messages, m.id = key →
        (if key = key' then m.removed env else m).buried := forall_modify_iff fun _ => rfl
  rw [hchanged]
  intro m hm hid
  split
  · exact ⟨rfl, rfl⟩
  · exact h (Ne.symm ‹_›) m hm hid

/-- A turn keeps a deleted message buried just when it does not dig it up. -/
theorem buried_turn_iff (h : Buried key p) :
    Buried key (p.turn move k).2 ↔ digsUp key p k = false := by
  cases hk : p.jobs[k]? with
  | none =>
    rw [turn_none hk]
    exact iff_of_true h (by simp [digsUp, hk])
  | some l =>
    obtain ⟨r, course⟩ := l
    cases course with
    | ended o =>
      rw [turn_ended hk]
      exact iff_of_true h (by simp [digsUp, hk])
    | awaits w =>
      have hmoves : Moves p.state r w (move (r, .awaits w) p.state).1.2
        (move (r, .awaits w) p.state).2 := move_moves
      rw [turn_awaits hk, digsUp_eq hk]
      generalize (move (r, .awaits w) p.state).1.2 = course,
        (move (r, .awaits w) p.state).2 = after at hmoves ⊢
      cases hmoves with
      | found => exact (buried_set_iff hk rfl).trans (iff_of_true h (by simp))
      | refused hwrite =>
        refine (buried_set_iff hk rfl).trans (iff_of_true h ?_)
        cases w with
        | write => simp [hwrite rfl key]
        | find | reload => simp
      | reloaded => exact (buried_set_iff hk rfl).trans (iff_of_true h (by simp))
      | @edited env id d user key' replyToId hid hstored =>
        rw [buried_set_iff hk rfl]
        cases hremoved : removedBy key p with
        | false => simp
        | true =>
          simp only [forall_const, Bool.true_and, decide_true, overwrites, hid, hstored,
            Bool.and_true, Option.some.injEq]
          exact edited_rows_iff (h hremoved)
      | @removed env id user key' hid =>
        refine iff_of_true ?_ (by simp [overwrites])
        by_cases hkey : key' = key
        · exact fun _ => removed_rows fun hne => absurd hkey hne
        · have hjob : MessageJob.removed key (.remove env id user, .ended (.ok none)) = false := by
            simpa [MessageJob.removed, removes, hid] using hkey
          exact (buried_set_iff hk hjob).mpr fun hremoved => removed_rows fun _ => h hremoved

/-- The requests before their first turn. -/
def MessageChange.start (db : Database) (rs : List MessageChange) : Pool MessageJob Database :=
  ⟨rs.map (·, .awaits .find), db⟩

/-- Among any requests that take turns, a message stays buried after every turn once one of them
has deleted it, if and only if at no turn an edit digs it up. -/
theorem run_buried_iff (db : Database) (key : Uuid) (rs : List MessageChange) (ks : List Nat) :
    Along (Pool.turn move) (fun p k => Buried key (p.turn move k).2) (start db rs) ks ↔
      Along (Pool.turn move) (fun p k => digsUp key p k = false) (start db rs) ks := by
  have hany : Along (Pool.turn move) (fun _ _ => True) (start db rs) ks :=
    along_of_forall (fun _ _ => trivial) _ _
  apply hany.congr_invariant (I := Buried key)
  · exact fun p k hburied _ => buried_turn_iff hburied
  · exact fun _ _ _ _ hburied => hburied
  · intro hremoved
    simp [removedBy, start, MessageJob.removed] at hremoved

/-- Alice edits her message and deletes it; the edit is checked before the deletion and written
after it. -/
theorem lateEdit_not_buried :
    let db := (privateChat "yes").server.db
    let rs : List MessageChange :=
      [.update (sampleEnv 5) (sampleUuid 4 0).toText ⟨.value "no", .absent, .absent, .absent⟩ alice,
        .remove (sampleEnv 6) (sampleUuid 4 0).toText alice]
    ¬Along (Pool.turn move) (fun p k => Buried (sampleUuid 4 0) (p.turn move k).2) (start db rs)
      [0, 1, 1, 0] := by
  decide +kernel

end VoxLink
