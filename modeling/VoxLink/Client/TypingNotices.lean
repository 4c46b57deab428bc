import VoxLink.Client.Stores
import VoxLink.Content.Handlers

/-! Who is shown as typing: the gateway relays the notices of a socket to the room of the channel,
and the listener of a client in the room keeps a set of the users whose last notice was a start. -/

namespace VoxLink

open ProofKit Prog

namespace Client

/-- The `typing` of `useMessageStore`: the users of each channel, each once. -/
abbrev TypingStore := String → List String

def TypingStore.setTyping (channelId userId : String) (isTyping : Bool) (s : TypingStore) :
    TypingStore :=
  let existing := s channelId
  Function.update s channelId
    (if isTyping then if userId ∈ existing then existing else existing ++ [userId]
    else existing.filter (· ≠ userId))

/-- The listener for `typing`. -/
def listenTyping (s : TypingStore) : GatewayEvent → TypingStore
  | .typing channelId userId _ isTyping => s.setTyping channelId userId.toText isTyping
  | _ => s

/-- The backend with the typing store of the client `w`. -/
structure TypingWatch where
  gateway : Gateway
  typing : TypingStore

namespace TypingWatch

def step (X : Externals) (w : String) (s : TypingWatch) (i : Env × Input) : Unit × TypingWatch :=
  let (output, gateway) := s.gateway.step X i
  ((), ⟨gateway, (received w (emissions output)).foldl listenTyping s.typing⟩)

/-- What a client sends about its typing. -/
def typingEvent (channelId : String) (isTyping : Bool) : SocketEvent :=
  if isTyping then .typingStart channelId else .typingStop channelId

/-- Another socket of the user `u` says that he types, or has stopped, in a channel whose room the
client `w` is in. -/
def Notices (w c u : String) (isTyping : Bool) (s : TypingWatch) (i : Env × Input) : Prop :=
  ∃ client user, i.2 = .event client (typingEvent c isTyping) ∧ client ≠ w ∧
    WebsocketGateway.account client s.gateway = some user ∧ user.id.toText = u ∧
    inRoom w c s.gateway = true

variable {X : Externals} {env : Env} {w c u client : String} {g g' : Gateway} {s : TypingWatch}

/-! ### The store -/

theorem mem_setTyping {channelId userId : String} {isTyping : Bool} {st : TypingStore} :
    u ∈ st.setTyping channelId userId isTyping c ↔
      (channelId = c ∧ userId = u ∧ isTyping = true) ∨
        u ∈ st c ∧ ¬(channelId = c ∧ userId = u ∧ isTyping = false) := by
  by_cases hc : channelId = c
  · subst hc
    rw [TypingStore.setTyping, Function.update_self]
    cases isTyping with
    | true =>
      rw [if_pos rfl]
      by_cases hu : userId = u
      · subst hu
        split_ifs with hmem
        · simp [hmem]
        · simp
      · split_ifs
        · simp [hu]
        · simp [hu, Ne.symm hu]
    | false =>
      rw [if_neg Bool.false_ne_true]
      by_cases hu : userId = u
      · simp [hu]
      · simp [hu, Ne.symm hu]
  · rw [TypingStore.setTyping, Function.update_of_ne (Ne.symm hc)]
    simp [hc]

/-! ### What the gateway relays -/

def isTypingNotice : GatewayEvent → Bool
  | .typing _ _ _ _ => true
  | _ => false

/-- Nothing is emitted about typing. -/
def Silent (g g' : Gateway) : Prop :=
  ∃ es, g'.sent = g.sent ++ es ∧ ∀ e ∈ es, isTypingNotice e.event = false

instance : IsPreorder Gateway Silent where
  refl g := ⟨[], (List.append_nil _).symm, List.forall_mem_nil _⟩
  trans g g' g'' h h' := by
    obtain ⟨es, hes, hsilent⟩ := h
    obtain ⟨es', hes', hsilent'⟩ := h'
    exact ⟨es ++ es', by rw [hes', hes, List.append_assoc],
      List.forall_mem_append.mpr ⟨hsilent, hsilent'⟩⟩

theorem silent_emit {p : Socket → Bool} {event : GatewayEvent} (h : isTypingNotice event = false) :
    Keeps Silent (emitTo p event) :=
  .write fun _ => ⟨_, rfl, by simpa using h⟩

theorem silent_write {f : Gateway → Gateway} (h : ∀ g, (f g).sent = g.sent) :
    Keeps Silent (write f : Handler Unit) :=
  .write fun g => ⟨[], by rw [h, List.append_nil], List.forall_mem_nil _⟩

theorem silent_server {α : Type} (m : Backend α) : Keeps Silent (onServer m) := by
  have hany : Keeps (fun _ _ => True) m :=
    fun _ => wp.of_forall (fun _ _ => trivial) fun _ _ => trivial
  exact .within (fun _ _ _ => ⟨[], (List.append_nil _).symm, List.forall_mem_nil _⟩) hany

theorem silent_asUser {k : Profile → Handler Unit} (hk : ∀ user, Keeps Silent (k user)) :
    Keeps Silent (WebsocketGateway.asUser client k) := by
  apply Keeps.bind (.query _)
  intro user
  cases user with
  | some user => exact hk user
  | none => exact .pure _

theorem silent_handleEvent {e : SocketEvent} (he : ∀ c b, e ≠ typingEvent c b) :
    Keeps Silent (WebsocketGateway.handleEvent env client e) := by
  cases e with
  | connection handshake =>
    refine .bind (silent_write fun _ => rfl) fun _ => .recover ?_ fun _ => silent_write fun _ => rfl
    refine .bind (silent_server _) fun user => .bind (silent_write fun _ => rfl) fun _ => ?_
    exact .bind (silent_server _) fun _ => .bind (silent_write fun _ => rfl) fun _ =>
      silent_emit rfl
  | disconnection =>
    refine .bind (.query _) fun user => .bind (silent_write fun _ => rfl) fun _ => ?_
    cases user with
    | some user =>
      exact .bind (silent_server _) fun _ => .bind (silent_emit rfl) fun _ => silent_server _
    | none => exact .pure _
  | joinChannel c =>
    refine silent_asUser fun user => .recover ?_ fun _ => silent_emit rfl
    refine .bind (silent_server _) fun _ => .bind (silent_write fun _ => rfl) fun _ => ?_
    refine .bind (silent_server _) fun _ => .bind (silent_server _) fun _ => ?_
    exact .bind (silent_server _) fun _ => .bind (silent_emit rfl) fun _ => silent_emit rfl
  | leaveChannel c =>
    refine silent_asUser fun user => .bind (silent_write fun _ => rfl) fun _ => ?_
    exact .bind (silent_server _) fun _ => silent_emit rfl
  | sendMessage data =>
    refine silent_asUser fun user => .recover ?_ fun _ => silent_emit rfl
    exact .bind (silent_server _) fun _ => silent_emit rfl
  | typingStart c => exact absurd rfl (he c true)
  | typingStop c => exact absurd rfl (he c false)
  | guildJoin g => exact silent_asUser fun _ => silent_write fun _ => rfl
  | guildLeave g => exact silent_asUser fun _ => silent_write fun _ => rfl
  | voiceJoined c => exact silent_asUser fun _ => silent_emit rfl
  | voiceLeft c => exact silent_asUser fun _ => silent_emit rfl

theorem foldl_silent {events : List GatewayEvent} (h : ∀ e ∈ events, isTypingNotice e = false)
    (st : TypingStore) : events.foldl listenTyping st = st := by
  induction events with
  | nil => rfl
  | cons e events ih =>
    have he := h e List.mem_cons_self
    have hsame : listenTyping st e = st := by
      cases e with
      | typing _ _ _ _ => exact absurd he (by simp [isTypingNotice])
      | _ => rfl
    rw [List.foldl_cons, hsame]
    exact ih fun e' he' => h e' (List.mem_cons_of_mem _ he')

/-- The handler of a notice sends it to the others in the room, when the socket has an account. -/
theorem notice_sent {isTyping : Bool} :
    (WebsocketGateway.handleEvent env client (typingEvent c isTyping)).final { g with sent := [] } =
      { g with sent := (WebsocketGateway.account client g).toList.map fun user =>
          ⟨.typing c user.id user.username isTyping,
            (g.sockets.filter fun s => channelRoom c ∈ s.rooms ∧ s.id ≠ client).map (·.id)⟩ } := by
  have hhandler : WebsocketGateway.handleEvent env client (typingEvent c isTyping) =
      WebsocketGateway.handleTyping client c isTyping := by
    cases isTyping <;> rfl
  rw [hhandler]
  refine wp.final (P := fun g' => g' = _) ?_
  simp only [WebsocketGateway.handleTyping, WebsocketGateway.asUser, wp_bind, wp_query]
  have hsame : WebsocketGateway.account client { g with sent := [] } =
      WebsocketGateway.account client g := rfl
  rw [hsame]
  cases WebsocketGateway.account client g with
  | none => rfl
  | some user => rfl

theorem heard_iff :
    w ∈ (g.sockets.filter fun s => channelRoom c ∈ s.rooms ∧ s.id ≠ client).map (·.id) ↔
    client ≠ w ∧ inRoom w c g = true := by
  rw [inRoom_mem]
  simp only [List.mem_map, List.mem_filter, decide_eq_true_eq]
  constructor
  · rintro ⟨s, ⟨hs, hin, hne⟩, rfl⟩
    exact ⟨Ne.symm hne, s, hs, rfl, hin⟩
  · rintro ⟨hne, s, hs, rfl, hin⟩
    exact ⟨s, ⟨hs, hin, Ne.symm hne⟩, rfl⟩

theorem typingEvent_inj {c' : String} {b b' : Bool} :
    typingEvent c' b' = typingEvent c b ↔ c' = c ∧ b' = b := by
  cases b <;> cases b' <;> simp [typingEvent]

/-- The store after a step that is no notice. -/
theorem step_silent {i : Env × Input}
    (h : ∀ client c' b, i.2 ≠ .event client (typingEvent c' b)) :
    (step X w s i).2.typing = s.typing := by
  obtain ⟨env, input⟩ := i
  cases input with
  | request req => rfl
  | event client e =>
    have hkeeps : Keeps Silent (WebsocketGateway.handleEvent env client e) :=
      silent_handleEvent fun c' b he => h client c' b (congrArg (Input.event client) he)
    obtain ⟨es, hes, hsilent⟩ := (hkeeps { s.gateway with sent := [] }).final
    refine foldl_silent (fun event hevent => ?_) s.typing
    obtain ⟨e', he', rfl⟩ := List.mem_map.mp hevent
    have hmem := (List.mem_filter.mp he').1
    change e' ∈ ((WebsocketGateway.handleEvent env client e).final
      { s.gateway with sent := [] }).sent
      at hmem
    rw [hes] at hmem
    exact hsilent e' hmem

/-- The store after a notice. -/
theorem step_notice {c' : String} {b : Bool} :
    (step X w s (env, .event client (typingEvent c' b))).2.typing =
      ((WebsocketGateway.account client s.gateway).filter fun _ =>
        client ≠ w ∧ inRoom w c' s.gateway = true).elim s.typing fun user =>
          s.typing.setTyping c' user.id.toText b := by
  simp only [step, Gateway.step, emissions, notice_sent]
  cases WebsocketGateway.account client s.gateway with
  | none => rfl
  | some user =>
    rw [Option.toList, List.map_singleton, received_single]
    by_cases hheard : client ≠ w ∧ inRoom w c' s.gateway = true
    · rw [if_pos (heard_iff.mpr hheard), Option.filter_some_pos (by simpa using hheard)]
      rfl
    · rw [if_neg (mt heard_iff.mp hheard), Option.filter_some_neg (by simpa using hheard)]
      rfl

/-- One step shows a user as typing when it relays his start, and hides him when it relays his
stop. -/
theorem mem_step {i : Env × Input} : u ∈ (step X w s i).2.typing c ↔
    Notices w c u true s i ∨ u ∈ s.typing c ∧ ¬Notices w c u false s i := by
  by_cases hnotice : ∃ client c' b, i.2 = .event client (typingEvent c' b)
  · obtain ⟨env, input⟩ := i
    obtain ⟨client, c', b, rfl⟩ := hnotice
    have hnotices : ∀ b', Notices w c u b' s (env, .event client (typingEvent c' b)) ↔
        ((c' = c ∧ b = b') ∧ client ≠ w ∧ inRoom w c' s.gateway = true) ∧
          ∃ user, WebsocketGateway.account client s.gateway = some user ∧ user.id.toText = u := by
      intro b'
      constructor
      · rintro ⟨client', user, hevent, hne, haccount, hu, hroom⟩
        obtain ⟨rfl, hsaid⟩ := Input.event.inj hevent
        obtain ⟨rfl, rfl⟩ := typingEvent_inj.mp hsaid
        exact ⟨⟨⟨rfl, rfl⟩, hne, hroom⟩, user, haccount, hu⟩
      · rintro ⟨⟨⟨rfl, rfl⟩, hne, hroom⟩, user, haccount, hu⟩
        exact ⟨client, user, rfl, hne, haccount, hu, hroom⟩
    rw [step_notice, hnotices, hnotices]
    cases WebsocketGateway.account client s.gateway with
    | none => simp
    | some user =>
      by_cases hheard : client ≠ w ∧ inRoom w c' s.gateway = true
      · rw [Option.filter_some_pos (by simpa using hheard)]
        simp only [Option.elim, mem_setTyping]
        cases b <;> simp [hheard.1, hheard.2]
      · rw [Option.filter_some_neg (by simpa using hheard)]
        simp [hheard]
  · have hnone : ∀ b, ¬Notices w c u b s i := by
      rintro b ⟨client, user, hevent, -⟩
      exact hnotice ⟨client, c, b, hevent⟩
    rw [step_silent fun client c' b hevent => hnotice ⟨client, c', b, hevent⟩]
    simp [hnone]

theorem nodup_listen {st : TypingStore} (h : (st c).Nodup) (e : GatewayEvent) :
    (listenTyping st e c).Nodup := by
  cases e with
  | typing channelId userId username isTyping =>
    rw [listenTyping, TypingStore.setTyping, Function.update_apply]
    split_ifs with hc htyping hmem
    · exact hc ▸ h
    · rw [← List.concat_eq_append]
      exact (hc ▸ h).concat hmem
    · exact (hc ▸ h).filter _
    · exact h
  | _ => exact h

theorem step_nodup {i : Env × Input} (h : (s.typing c).Nodup) :
    ((step X w s i).2.typing c).Nodup := by
  change (((received w (emissions (s.gateway.step X i).1)).foldl listenTyping s.typing) c).Nodup
  generalize received w (emissions (s.gateway.step X i).1) = events
  revert h
  generalize s.typing = st
  intro h
  induction events generalizing st with
  | nil => exact h
  | cons e events ih => exact ih (listenTyping st e) (nodup_listen h e)

/-- The window shows each typist once, and it shows a user if and only if some step has relayed his
start and none after that his stop. That he leaves, is disconnected or loses his access hides
nobody. -/
theorem typists_shown (X : Externals) (w c : String) (g : Gateway) (is : List (Env × Input)) :
    let opened : TypingWatch := ⟨g, fun _ => []⟩
    ((run (step X w) opened is).typing c).Nodup ∧
      ∀ u, u ∈ (run (step X w) opened is).typing c ↔
        ∃ as i bs, is = as ++ i :: bs ∧ Notices w c u true (run (step X w) opened as) i ∧
          Along (step X w) (fun s i => ¬Notices w c u false s i)
            (run (step X w) opened (as ++ [i])) bs := by
  intro opened
  constructor
  · exact (along_of_forall (P := fun _ _ => True) (fun _ _ => trivial) opened is).invariant
      (I := fun s : TypingWatch => (s.typing c).Nodup) (fun _ _ h _ => step_nodup h) List.nodup_nil
  · intro u
    exact run_since_iff (fun s : TypingWatch => u ∈ s.typing c) (Notices w c u true)
      (Notices w c u false) (fun s i => mem_step) List.not_mem_nil

end TypingWatch

end Client

end VoxLink
