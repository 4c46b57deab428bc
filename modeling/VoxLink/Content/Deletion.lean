import VoxLink.Content.Writing

/-! Deleted messages: which steps keep every deleted message scrubbed, and deleted. -/

namespace VoxLink

open ProofKit Prog

variable {X : Externals} {env : Env} {user : Profile} {db db' : Database} {g : Gateway}
  {key : Uuid} {m : Message}

/-- The texts that replace the content of a deleted message. -/
def isTombstone (content : Option String) : Bool :=
  content = some "[Message deleted]" || content = some "[Message deleted by admin]"

def Message.scrubbed (m : Message) : Bool := isTombstone m.content && m.attachments.isNone

/-- Every deleted message is scrubbed. -/
def Scrubbed (ms : List Message) : Prop := ∀ m ∈ ms, m.isDeleted = true → m.scrubbed = true

instance {ms : List Message} : Decidable (Scrubbed ms) := inferInstanceAs (Decidable (∀ _ ∈ _, _))

/-- No deleted message comes back. -/
def StaysDeleted (ms ms' : List Message) : Prop :=
  ∀ m ∈ ms, m.isDeleted = true → ∃ m' ∈ ms', m'.id = m.id ∧ m'.isDeleted = true

instance {ms ms' : List Message} : Decidable (StaysDeleted ms ms') :=
  inferInstanceAs (Decidable (∀ _ ∈ _, _))

/-- After the step every deleted message is scrubbed, and those deleted before it still are. -/
def KeepsScrubbed (X : Externals) (g : Gateway) (i : Env × Input) : Prop :=
  Scrubbed (Gateway.step X g i).2.server.db.messages ∧
    StaysDeleted g.server.db.messages (Gateway.step X g i).2.server.db.messages

instance (g : Gateway) (i : Env × Input) : Decidable (KeepsScrubbed X g i) :=
  inferInstanceAs (Decidable (_ ∧ _))

/-- The key that an administrator gives `AdminService.deleteMessage`. -/
def Input.adminDeletion (env : Env) (g : Gateway) : Input → Option Uuid
  | .request ⟨token, .admin (.deleteMessage id)⟩ =>
    ((callerOf env g.server token).filter (·.role = "admin")).bind fun _ => Uuid.parse id
  | _ => none

/-- An administrator deletes a stored message that has attachments. -/
def leavesAttachments (g : Gateway) (i : Env × Input) : Bool :=
  (i.2.adminDeletion i.1 g).any fun key =>
    (g.server.db.messageById key).any (·.attachments.isSome)

/-! ### What a step does to the messages -/

/-- The row that `MessagesService.remove` leaves. -/
def Message.removed (env : Env) (m : Message) : Message :=
  { m with
    isDeleted := true, content := some "[Message deleted]", attachments := none
    updatedAt := env.now }

/-- The row that `AdminService.deleteMessage` leaves. -/
def Message.removedByAdmin (env : Env) (m : Message) : Message :=
  { m with
    isDeleted := true, content := some "[Message deleted by admin]", updatedAt := env.now }

/-- The messages after a step in which an administrator deletes the one with the given key. -/
inductive Rewritten (env : Env) (db : Database) : Option Uuid → List Message → Prop
  | same : Rewritten env db none db.messages
  | posted {user : Profile} {channelId : BodyField String} {m : Message} :
      Posted env user channelId m → Rewritten env db none (db.messages ++ [m])
  | edited {key : Uuid} {m : Message} {d : UpdateMessageDto} {r : Option Uuid} :
      db.present key = some m →
      Rewritten env db none (Rows.modify (·.id = key) (edited env d r) db.messages)
  | removed {key : Uuid} {m : Message} :
      db.present key = some m →
      Rewritten env db none (Rows.modify (·.id = key) (Message.removed env) db.messages)
  | removedByAdmin {key : Uuid} :
      Rewritten env db (some key)
        (Rows.modify (·.id = key) (Message.removedByAdmin env) db.messages)

theorem Rewritten.of_eq {db' : Database} (h : SameMessages db db') :
    Rewritten env db none db'.messages := by
  rw [h]
  exact .same

theorem update_rewritten {id : String} {d : UpdateMessageDto} :
    wp (MessagesService.update env id d user) (fun _ db' => Rewritten env db none db'.messages)
      (fun _ db' => Rewritten env db none db'.messages) db := by
  have unchanged : ∀ {db' : Database}, db' = db → Rewritten env db none db'.messages :=
    fun h => .of_eq (h ▸ rfl)
  simp only [MessagesService.update, wp_bind, wp_uuidOf]
  constructor
  · intro key _
    apply MessagesService.findMessage_wp.mono
    · rintro m _ ⟨rfl, hm⟩
      rw [wp_throwIf]
      constructor
      · intro _
        rw [wp_texts]
        refine ⟨fun _ => ?_, fun _ => .same⟩
        apply wp_nullableReference.mono
        · rintro r _ rfl
          have hread : Keeps SameMessages (MessagesService.findOne id) := keeps_messages_findOne id
          apply (hread _).mono
          · exact fun _ _ h => h ▸ .edited hm
          · exact fun _ _ h => h ▸ .edited hm
        · exact fun _ _ => unchanged
      · exact fun _ => .same
    · exact fun _ _ => unchanged
  · exact fun _ => .same

theorem remove_rewritten {id : String} :
    wp (MessagesService.remove env id user) (fun _ db' => Rewritten env db none db'.messages)
      (fun _ db' => Rewritten env db none db'.messages) db := by
  simp only [MessagesService.remove, wp_bind, wp_uuidOf]
  constructor
  · intro key _
    apply MessagesService.findMessage_wp.mono
    · rintro m _ ⟨rfl, hm⟩
      rw [wp_throwIf]
      constructor
      · exact fun _ => .removed hm
      · exact fun _ => .same
    · exact fun _ _ h => .of_eq (h ▸ rfl)
  · exact fun _ => .same

theorem create_rewritten {channelId : BodyField String} {d : CreateMessageDto} :
    wp (MessagesService.create env d user channelId)
      (fun _ db' => Rewritten env db none db'.messages)
      (fun _ db' => Rewritten env db none db'.messages) db := by
  apply create_wp.mono
  · rintro v _ ⟨-, hposted, rfl⟩
    exact .posted hposted
  · rintro _ _ ⟨-, rfl⟩
    exact .same

theorem messagesController_rewritten {r : MessageRoute} :
    wp (messagesController X env user r) (fun _ db' => Rewritten env db none db'.messages)
      (fun _ db' => Rewritten env db none db'.messages) db := by
  have quiet : ∀ {α : Type} {m : Service α} {f : α → Body}, Keeps SameMessages m →
      wp (f <$> m) (fun _ db' => Rewritten env db none db'.messages)
        (fun _ db' => Rewritten env db none db'.messages) db :=
    fun h => (h.map db).mono (fun _ _ h => .of_eq h) fun _ _ h => .of_eq h
  cases r with
  | create channelId d => exact wp_map.mpr create_rewritten
  | findAll channelId limit offset => exact quiet (keeps_messages_findAll channelId limit offset)
  | search channelId q =>
    exact quiet (.bind (keeps_texts _) fun _ => .bind (keeps_uuidOf _) fun _ => .query _)
  | findOne id => exact quiet (keeps_messages_findOne id)
  | update id d => exact wp_map.mpr update_rewritten
  | remove id => exact wp_map.mpr remove_rewritten

/-- A deletion by somebody who is no administrator, or with a text that is no uuid. -/
theorem deleteMessage_refused {id : String}
    (h : user.role = "admin" → Uuid.parse id = none) :
    wp (AdminService.deleteMessage env id user) (fun _ _ => False) (fun _ db' => db' = db) db := by
  simp only [AdminService.deleteMessage, AdminService.requireAdmin, wp_bind, wp_throwIf, wp_uuidOf,
    wp_write, implies_true, and_true]
  intro hrole key hkey
  rw [h (by simpa using hrole)] at hkey
  cases hkey

theorem request_rewritten {req : Request} (h : (Input.request req).adminDeletion env g = none) :
    Rewritten env g.server.db none (serve X g.server (env, req)).2.db.messages := by
  have hwp : wp (handle X env req) (fun _ s' => Rewritten env g.server.db none s'.db.messages)
      (fun _ s' => Rewritten env g.server.db none s'.db.messages) g.server := by
    apply wp_handle
    · intro r _
      apply authController_enrolled.mono
      · exact fun _ _ h => .of_eq h.sameMessages
      · exact fun _ _ h => .of_eq h.sameMessages
    · intro user hauth _
      obtain ⟨token, route⟩ := req
      cases hwrites : route.ofMessages with
      | false =>
        have hkeeps : Keeps SameMessages (guarded X env user route) := guarded_messages hwrites
        apply (hkeeps g.server.db).mono
        · exact fun _ _ h => .of_eq h
        · exact fun _ _ h => .of_eq h
      | true =>
        cases route with
        | messages r => exact messagesController_rewritten
        | admin r =>
          cases r with
          | deleteMessage id =>
            have hrefused : user.role = "admin" → Uuid.parse id = none := by
              intro hrole
              simpa [Input.adminDeletion, authenticated_iff.mp hauth, hrole] using h
            apply wp_map.mpr
            apply (deleteMessage_refused hrefused).mono
            · exact fun _ _ h => h.elim
            · exact fun _ _ h => .of_eq (h ▸ rfl)
          | _ => exact Bool.noConfusion hwrites
        | _ => exact Bool.noConfusion hwrites
    · exact fun _ => .same
  exact hwp.final

theorem event_rewritten {client : String} {e : SocketEvent} :
    Rewritten env g.server.db none
      ((WebsocketGateway.handleEvent env client e).final g).server.db.messages := by
  by_cases hsend : ∃ data, e = .sendMessage data
  · obtain ⟨data, rfl⟩ := hsend
    show Rewritten env g.server.db none
      ((WebsocketGateway.handleSendMessage env client data).final g).server.db.messages
    rw [WebsocketGateway.handleSendMessage, final_asUser]
    cases WebsocketGateway.account client g with
    | none => exact .same
    | some user =>
      rw [Option.map_some, Option.getD_some]
      apply wp.final (P := fun g' : Gateway => Rewritten env g.server.db none g'.server.db.messages)
      simp only [wp_recover, wp_bind, wp_onServer, wp_onDb]
      exact create_rewritten
  · have hkeeps : Keeps (OnDb SameMessages) (WebsocketGateway.handleEvent env client e) := by
      apply keeps_handleEvent
      · exact fun _ _ => rfl
      · exact fun data he => absurd ⟨data, he⟩ hsend
    exact .of_eq (hkeeps g).final

theorem adminDeletion_rewritten {req : Request}
    (h : (Input.request req).adminDeletion env g = some key) :
    Rewritten env g.server.db (some key) (serve X g.server (env, req)).2.db.messages := by
  unfold Input.adminDeletion at h
  split at h
  · rename_i token id hreq
    obtain rfl := Input.request.inj hreq
    obtain ⟨user, huser, hkey⟩ := Option.bind_eq_some_iff.mp h
    obtain ⟨hcaller, hrole⟩ := Option.filter_eq_some_iff.mp huser
    have hdelete : AdminService.deleteMessage env id user g.server.db = .ok ()
        { g.server.db with
          messages := Rows.modify (·.id = key) (Message.removedByAdmin env)
            g.server.db.messages } := by
      have hrole : user.role = "admin" := by simpa using hrole
      simp only [AdminService.deleteMessage, AdminService.requireAdmin, hrole, uuidOf, hkey]
      rfl
    have hserve : (serve X g.server (env, ⟨token, .admin (.deleteMessage id)⟩)).2.db =
        (AdminService.deleteMessage env id user).final g.server.db := by
      refine (serve_db hcaller ?_ ?_).trans final_map
      · rfl
      · intro _ h
        cases h
    rw [hserve, Prog.final, hdelete]
    exact .removedByAdmin
  · cases h

theorem step_rewritten {i : Env × Input} :
    Rewritten i.1 g.server.db (i.2.adminDeletion i.1 g)
      (Gateway.step X g i).2.server.db.messages := by
  obtain ⟨env, input⟩ := i
  cases input with
  | request req =>
    cases h : (Input.request req).adminDeletion env g with
    | none => exact request_rewritten h
    | some key => exact adminDeletion_rewritten h
  | event client e => exact event_rewritten (g := { g with sent := [] })

/-! ### Scrubbed messages -/

/-- No two messages have one id. -/
def UniqueMessages (ms : List Message) : Prop := (ms.map (·.id)).Nodup

theorem Rewritten.uniqueMessages {k : Option Uuid} {ms : List Message}
    (h : Rewritten env db k ms) (hfresh : Fresh env db) (hunique : UniqueMessages db.messages) :
    UniqueMessages ms := by
  cases h with
  | same => exact hunique
  | posted hposted =>
    apply Rows.nodup_append_of_fresh hunique
    · exact List.nodup_singleton _
    · intro m hm
      rw [List.mem_singleton.mp hm, hposted.id]
      intro hmem
      apply hfresh.2 0 (by omega)
      simp only [Database.keys, List.mem_append]
      exact .inl (.inr hmem)
  | edited _ => exact Rows.nodup_modify hunique fun _ _ => rfl
  | removed _ => exact Rows.nodup_modify hunique fun _ _ => rfl
  | removedByAdmin => exact Rows.nodup_modify hunique fun _ _ => rfl

/-- The message found by its key is the only one with it. -/
theorem messageById_unique (hunique : UniqueMessages db.messages)
    (hfound : db.messageById key = some m) {m' : Message} (hmem : m' ∈ db.messages)
    (hkey : m'.id = key) : m' = m := by
  have hid : m.id = key := by simpa using List.find?_some hfound
  exact Rows.eq_of_nodup hunique hmem (List.mem_of_find?_eq_some hfound) (hkey.trans hid.symm)

theorem staysDeleted_modify {f : Message → Message} {p : Message → Bool} {ms : List Message}
    (hid : ∀ m, (f m).id = m.id)
    (hf : ∀ m ∈ ms, p m = true → m.isDeleted = true → (f m).isDeleted = true) :
    StaysDeleted ms (Rows.modify p f ms) := by
  intro m hmem hdeleted
  refine ⟨_, Rows.mem_modify.mpr ⟨m, hmem, rfl⟩, ?_⟩
  split
  · exact ⟨hid m, hf m hmem ‹_› hdeleted⟩
  · exact ⟨rfl, hdeleted⟩

/-- An update of messages leaves all scrubbed if and only if it scrubs those it leaves deleted. -/
theorem scrubbed_modify_iff {f : Message → Message} {p : Message → Bool} {ms : List Message}
    (hscrubbed : Scrubbed ms) :
    Scrubbed (Rows.modify p f ms) ↔
      ∀ m ∈ ms, p m = true → (f m).isDeleted = true → (f m).scrubbed = true := by
  constructor
  · intro h m hm hp hdeleted
    exact h (f m) (Rows.mem_modify.mpr ⟨m, hm, if_pos hp⟩) hdeleted
  · intro h m' hmem hdeleted
    obtain ⟨m, hm, rfl⟩ := Rows.mem_modify.mp hmem
    by_cases hp : p m = true
    · rw [if_pos hp] at hdeleted ⊢
      exact h m hm hp hdeleted
    · rw [if_neg hp] at hdeleted ⊢
      exact hscrubbed m hm hdeleted

/-- Only a deletion by an administrator of a message with attachments leaves one unscrubbed. -/
theorem Rewritten.scrubbed_iff {k : Option Uuid} {ms : List Message} (h : Rewritten env db k ms)
    (hunique : UniqueMessages db.messages) (hscrubbed : Scrubbed db.messages) :
    Scrubbed ms ∧ StaysDeleted db.messages ms ↔
      (k.any fun key => (db.messageById key).any (·.attachments.isSome)) = false := by
  cases h with
  | same => exact iff_of_true ⟨hscrubbed, fun m hm hdeleted => ⟨m, hm, rfl, hdeleted⟩⟩ rfl
  | posted hposted =>
    apply iff_of_true _ rfl
    constructor
    · intro m hm hdeleted
      rcases List.mem_append.mp hm with hm | hm
      · exact hscrubbed m hm hdeleted
      · rw [List.mem_singleton.mp hm, hposted.present] at hdeleted
        exact nomatch hdeleted
    · exact fun m hm hdeleted => ⟨m, List.mem_append_left _ hm, rfl, hdeleted⟩
  | @edited key _ _ _ hm =>
    -- the edited message is present, so it is none of the deleted ones
    obtain ⟨hfound, hpresent⟩ := Option.filter_eq_some_iff.mp hm
    have apart : ∀ m ∈ db.messages, decide (m.id = key) = true → m.isDeleted = false := by
      intro m' hmem hkey
      rw [messageById_unique hunique hfound hmem (by simpa using hkey)]
      simpa using hpresent
    apply iff_of_true _ rfl
    constructor
    · apply (scrubbed_modify_iff hscrubbed).mpr
      intro m' hmem hkey hdeleted
      have hstill : m'.isDeleted = true := hdeleted
      rw [apart m' hmem hkey] at hstill
      exact nomatch hstill
    · exact staysDeleted_modify (fun _ => rfl) fun _ _ _ hdeleted => hdeleted
  | removed hm =>
    apply iff_of_true _ rfl
    constructor
    · exact (scrubbed_modify_iff hscrubbed).mpr fun _ _ _ _ => rfl
    · exact staysDeleted_modify (fun _ => rfl) fun _ _ _ _ => rfl
  | @removedByAdmin key =>
    have hstays : StaysDeleted db.messages
        (Rows.modify (·.id = key) (Message.removedByAdmin env) db.messages) :=
      staysDeleted_modify (fun _ => rfl) fun _ _ _ _ => rfl
    rw [scrubbed_modify_iff hscrubbed, and_iff_left hstays, Option.any_some]
    constructor
    · intro h
      cases hfound : db.messageById key with
      | none => rfl
      | some m =>
        have hkey := List.find?_some hfound
        have hkept := h m (List.mem_of_find?_eq_some hfound) hkey rfl
        simpa [Message.scrubbed, Message.removedByAdmin] using (Bool.and_eq_true_iff.mp hkept).2
    · intro h m hm hkey _
      cases hfound : db.messageById key with
      | none => exact absurd hkey (by simpa using List.find?_eq_none.mp hfound m hm)
      | some m' =>
        obtain rfl := messageById_unique hunique hfound hm (by simpa using hkey)
        have hnone : m.attachments = none := by simpa [hfound] using h
        simp [Message.scrubbed, Message.removedByAdmin, isTombstone, hnone]

theorem keepsScrubbed_iff {i : Env × Input} (hunique : UniqueMessages g.server.db.messages)
    (hscrubbed : Scrubbed g.server.db.messages) :
    KeepsScrubbed X g i ↔ leavesAttachments g i = false :=
  step_rewritten.scrubbed_iff hunique hscrubbed

/-- The gateway before its first request. -/
def Gateway.empty : Gateway := ⟨Server.empty, [], []⟩

/-- In a run from the empty database with fresh ids, deleted messages stay deleted and scrubbed at
every step if and only if at no step an administrator deletes a message with attachments. -/
theorem run_keepsScrubbed_iff (X : Externals) (is : List (Env × Input))
    (hfresh : Along (Gateway.step X) (fun g i => Fresh i.1 g.server.db) .empty is) :
    Along (Gateway.step X) (KeepsScrubbed X) .empty is ↔
      Along (Gateway.step X) (fun g i => leavesAttachments g i = false) .empty is := by
  apply hfresh.congr_invariant
    (I := fun g => UniqueMessages g.server.db.messages ∧ Scrubbed g.server.db.messages)
  · exact fun g i hI _ => keepsScrubbed_iff hI.1 hI.2
  · exact fun g i hI hi hkeeps => ⟨step_rewritten.uniqueMessages hi hI.1, hkeeps.1⟩
  · exact ⟨List.nodup_nil, nofun⟩

/-- Alice, an administrator, writes a message with an attachment into her channel. -/
def attachedRun : List (Env × Input) :=
  [(sampleEnv 1, .request ⟨none, .auth (.register ⟨"alice", "alice@mail", "secret"⟩)⟩),
    (sampleEnv 2, .request ⟨some (sampleToken 1 "alice"), .users (.update (sampleUuid 1 0).toText
      ⟨.absent, .absent, .absent, .value "admin", .absent⟩)⟩),
    (sampleEnv 3, .request ⟨some (sampleToken 1 "alice"),
      .channels (.create ⟨"general", .text, .absent, .absent, .absent, .absent⟩)⟩),
    (sampleEnv 4, .request ⟨some (sampleToken 1 "alice"),
      .messages (.create openedChannel ⟨.value "hello", .value ["photo"], .absent, .absent⟩)⟩)]

/-- She deletes it by a request that deletes messages. -/
def deletionRun (r : Route) : List (Env × Input) :=
  attachedRun ++ [(sampleEnv 5, .request ⟨some (sampleToken 1 "alice"), r⟩)]

theorem removal_keepsScrubbed :
    Along (Gateway.step sampleExternals) (KeepsScrubbed sampleExternals) .empty
      (deletionRun (.messages (.remove (sampleUuid 4 0).toText))) :=
  (run_keepsScrubbed_iff sampleExternals _ (by decide +kernel)).mpr (by decide +kernel)

theorem adminDeletion_not_scrubbed :
    Along (Gateway.step sampleExternals) (fun g i => Fresh i.1 g.server.db) .empty
        (deletionRun (.admin (.deleteMessage (sampleUuid 4 0).toText))) ∧
      ¬Along (Gateway.step sampleExternals) (KeepsScrubbed sampleExternals) .empty
        (deletionRun (.admin (.deleteMessage (sampleUuid 4 0).toText))) := by
  decide +kernel

end VoxLink
