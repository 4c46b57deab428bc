import VoxLink.Client.Stores
import VoxLink.Content.Writing
import VoxLink.Realtime.Members

/-! Whether a client that joins a channel has each message once: those of the snapshot, which
replaces what the store had, and those saved since, which are appended as they are announced. -/

namespace VoxLink

open ProofKit Prog

/-- The handler has saved the message `id` and is to announce it. -/
def Phase.announces (id : Uuid) : Phase → Bool
  | .saved _ _ m => m.id = id
  | _ => false

/-- The handler of a message has not saved it yet. -/
def Phase.unsaved : Phase → Bool
  | .idle | .save _ _ => true
  | _ => false

/-- The ids of the messages that the handler is to emit to the client. -/
def Phase.snapshot : Phase → Option (List Uuid)
  | .ready _ _ _ ms => some (ms.map (·.id))
  | _ => none

namespace Client

/-- The ids of the messages of the channel in the store. -/
def shown (c : String) (st : Stores) : List Uuid := ((st.messages c).getD []).map (·.id)

/-- The stores of the client `w` once all that was emitted has arrived. -/
def view (w : String) (st : Stores) (g : Gateway) : Stores := listenAll (received w g.sent) st

/-- The ids of the stored messages. -/
def stored (g : Gateway) : List Uuid := g.server.db.messages.map (·.id)

/-- Each message of the snapshot, and each one stored that is not among `seen`, is shown once. -/
def EachOnce (w c : String) (st : Stores) (seen snapshot : List Uuid) (g : Gateway) : Prop :=
  ∀ id, id ∈ snapshot ∨ id ∈ stored g ∧ id ∉ seen → (shown c (view w st g)).count id = 1

/-- The snapshot is emitted while one of its messages is still to be announced, or after one that
is not among `seen` has been. -/
def clashes (seen : List Uuid) (p : Pool (Task × Phase) Gateway) (k : Nat) : Bool :=
  match p.jobs[k]? with
  | some (_, .ready _ _ _ snapshot) =>
    (snapshot.any fun m => p.jobs.any (·.2.announces m.id)) ||
      (stored p.state).any fun id => id ∉ seen && !p.jobs.any (·.2.announces id)
  | _ => false

/-- The snapshot that the first handler has queried and is to emit. -/
def queried (p : Pool (Task × Phase) Gateway) : Option (List Uuid) := p.jobs[0]?.bind (·.2.snapshot)

variable {w c : String} {st : Stores} {g g' : Gateway} {id : Uuid}

/-! ### What the listeners do to the messages -/

/-- The event changes the messages of the channel. -/
def conveys (c : String) : GatewayEvent → Bool
  | .ready c' _ _ => c'.text = c
  | .messageNew m => m.channelId.text = c
  | _ => false

theorem shown_other {e : GatewayEvent} (h : conveys c e = false) :
    shown c (listen e st) = shown c st := by
  cases e with
  | ready c' ms members =>
    have hne : c ≠ c'.text := fun heq => by simp [conveys, heq] at h
    simp [shown, listen, MessageStore.setMessages, Function.update_of_ne hne]
  | messageNew m =>
    have hne : c ≠ m.channelId.text := fun heq => by simp [conveys, heq] at h
    simp [shown, listen, MessageStore.addMessage, Function.update_of_ne hne]
  | _ => rfl

theorem shown_ready {ms : List MessageListing} {members : List String} :
    shown c (listen (.ready (.value c) ms members) st) = ms.map (·.id) := by
  simp only [shown, listen, BodyField.text, MessageStore.setMessages, Function.update_self,
    Option.getD_some, List.map_map]
  rfl

theorem shown_new {m : NewMessage} (h : m.channelId.text = c) :
    shown c (listen (.messageNew m) st) = shown c st ++ [m.id] := by
  subst h
  simp only [shown, listen, MessageStore.addMessage, Function.update_self, Option.getD_some,
    List.map_append]
  rfl

theorem view_sent {sent : List Emission} (h : g'.sent = g.sent ++ sent) :
    view w st g' = listenAll (received w sent) (view w st g) := by
  rw [view, h, received_append, listenAll_append, view]

theorem view_same (h : g'.sent = g.sent) : view w st g' = view w st g := by
  rw [view, h, view]

/-- An emission of which the store keeps nothing. -/
theorem shown_emitted {e : GatewayEvent} {r : List String} (hsent : g'.sent = g.sent ++ [⟨e, r⟩])
    (h : conveys c e = false) : shown c (view w st g') = shown c (view w st g) := by
  rw [view_sent hsent, received_single]
  split_ifs
  · exact shown_other h
  · rfl

/-- A message announced to a room that the client is in. -/
theorem shown_announced (st : Stores) {m : NewMessage} {r : List String}
    (hsent : g'.sent = g.sent ++ [⟨.messageNew m, r⟩]) (hchannel : m.channelId.text = c)
    (hin : w ∈ r) :
    shown c (view w st g') = shown c (view w st g) ++ [m.id] := by
  rw [view_sent hsent, received_single, if_pos hin]
  exact shown_new hchannel

/-! ### Senders -/

/-- A handler of a message for the channel `c`. -/
inductive Sends (c : String) : Task × Phase → Prop
  | idle {t : Task} {data : SendMessageData} :
      t.event = .sendMessage data → data.channelId = .value c → Sends c (t, .idle)
  | save {t : Task} {data : SendMessageData} {user : Profile} :
      data.channelId = .value c → Sends c (t, .save data user)
  | saved {t : Task} {user : Profile} {m : Message} : Sends c (t, .saved (.value c) user m)
  | finished {t : Task} : Sends c (t, .finished)

/-- How many handlers are to save `id`, if they save a message. -/
def unsaved (p : Pool (Task × Phase) Gateway) (id : Uuid) : Nat :=
  p.jobs.countP fun l => l.2.unsaved && l.1.env.uuids 0 = id

/-- How many handlers are to announce `id`. -/
def waiting (p : Pool (Task × Phase) Gateway) (id : Uuid) : Nat :=
  p.jobs.countP (·.2.announces id)

/-- What senders do: a message is stored and then announced, and a client that is in the room is
shown it. -/
structure Told (w c : String) (p q : Pool (Task × Phase) Gateway) : Prop where
  sockets : q.state.sockets = p.state.sockets
  stored : ∀ id, (stored p.state).count id ≤ (stored q.state).count id
  unsaved : ∀ id, unsaved q id + (Client.stored q.state).count id ≤
    unsaved p id + (Client.stored p.state).count id
  waiting : ∀ id, waiting q id + (Client.stored p.state).count id ≤
    Client.waiting p id + (Client.stored q.state).count id
  shown : inRoom w c p.state = true → ∀ st id,
    (shown c (view w st q.state)).count id + Client.waiting q id +
        (Client.stored p.state).count id =
      (Client.shown c (view w st p.state)).count id + Client.waiting p id +
        (Client.stored q.state).count id

variable {t : Task} {phase phase' : Phase} {p q r : Pool (Task × Phase) Gateway} {k : Nat}

theorem Told.refl (p : Pool (Task × Phase) Gateway) : Told w c p p :=
  ⟨rfl, fun _ => le_refl _, fun _ => le_refl _, fun _ => le_refl _, fun _ _ _ => rfl⟩

theorem inRoom_same (h : g'.sockets = g.sockets) : inRoom w c g' = inRoom w c g := by
  rw [inRoom, h, inRoom]

theorem Told.trans (h : Told w c p q) (h' : Told w c q r) : Told w c p r := by
  constructor
  · exact h'.sockets.trans h.sockets
  · exact fun id => (h.stored id).trans (h'.stored id)
  · exact fun id => (h'.unsaved id).trans (h.unsaved id)
  · intro id
    have hfirst := h.waiting id
    have hsecond := h'.waiting id
    omega
  · intro hin st id
    have hfirst := h.shown hin st id
    have hsecond := h'.shown ((inRoom_same h.sockets).trans hin) st id
    omega

/-- What one handler does, among others. -/
theorem Told.among {l l' : Task × Phase} (h : Told w c ⟨[l], p.state⟩ ⟨[l'], g'⟩)
    (hk : p.jobs[k]? = some l) : Told w c p ⟨p.jobs.set k l', g'⟩ := by
  have hunsaved := fun id => set_countP l' (fun l => l.2.unsaved && l.1.env.uuids 0 = id) hk
  have hwaiting := fun id => set_countP l' (fun l => l.2.announces id) hk
  constructor
  · exact h.sockets
  · exact h.stored
  · intro id
    have hself := h.unsaved id
    have hcount := hunsaved id
    simp only [Client.unsaved, List.countP_singleton] at hself ⊢
    omega
  · intro id
    have hself := h.waiting id
    have hcount := hwaiting id
    simp only [Client.waiting, List.countP_singleton] at hself ⊢
    omega
  · intro hin st id
    have hself := h.shown hin st id
    have hcount := hwaiting id
    simp only [Client.waiting, List.countP_singleton] at hself ⊢
    omega

/-- A turn that stores nothing and announces nothing. -/
theorem told_idle (hunsaved : phase'.unsaved = true → phase.unsaved = true)
    (hphase : ∀ id, phase.announces id = false) (hphase' : ∀ id, phase'.announces id = false)
    (hsockets : g'.sockets = g.sockets) (hstored : stored g' = stored g)
    (hshown : ∀ st, shown c (view w st g') = shown c (view w st g)) :
    Told w c ⟨[(t, phase)], g⟩ ⟨[(t, phase')], g'⟩ := by
  have hwaiting : ∀ id, waiting ⟨[(t, phase')], g'⟩ id = waiting ⟨[(t, phase)], g⟩ id := by
    intro id
    simp [waiting, hphase, hphase']
  constructor
  · exact hsockets
  · intro id
    exact le_of_eq (by rw [hstored])
  · intro id
    show _ + (stored g').count id ≤ _ + (stored g).count id
    rw [hstored]
    have hcount : unsaved ⟨[(t, phase')], g'⟩ id ≤ unsaved ⟨[(t, phase)], g⟩ id := by
      simp only [unsaved, List.countP_singleton]
      cases hnow : phase'.unsaved with
      | false => simp
      | true => rw [hunsaved hnow]
    omega
  · intro id
    show _ + (stored g).count id ≤ _ + (stored g').count id
    rw [hstored, hwaiting]
  · intro _ st id
    show (shown c (view w st g')).count id + _ + (stored g).count id =
      (shown c (view w st g)).count id + _ + (stored g').count id
    rw [hstored, hwaiting, hshown]

/-- A turn that saves a message. -/
theorem told_saves {data : SendMessageData} {user : Profile} {m : Message}
    (hid : m.id = t.env.uuids 0) (hsockets : g'.sockets = g.sockets)
    (hstored : stored g' = stored g ++ [m.id]) (hsent : g'.sent = g.sent) :
    Told w c ⟨[(t, .save data user)], g⟩ ⟨[(t, .saved data.channelId user m)], g'⟩ := by
  have hcount : ∀ id, (stored g').count id = (stored g).count id + if m.id = id then 1 else 0 := by
    intro id
    rw [hstored, List.count_append, List.count_singleton]
    simp
  have hunsaved : ∀ id, unsaved ⟨[(t, .save data user)], g⟩ id = if m.id = id then 1 else 0 := by
    intro id
    simp [unsaved, Phase.unsaved, hid]
  have hwaiting : ∀ id,
      waiting ⟨[(t, Phase.saved data.channelId user m)], g'⟩ id = if m.id = id then 1 else 0 := by
    intro id
    simp [waiting, Phase.announces]
  constructor
  · exact hsockets
  · intro id
    show (stored g).count id ≤ (stored g').count id
    rw [hcount]
    omega
  · intro id
    show 0 + (stored g').count id ≤ _ + (stored g).count id
    rw [hcount, hunsaved]
    omega
  · intro id
    show _ + (stored g).count id ≤ 0 + (stored g').count id
    rw [hcount, hwaiting]
    omega
  · intro _ st id
    show (shown c (view w st g')).count id + _ + (stored g).count id =
      (shown c (view w st g)).count id + 0 + (stored g').count id
    rw [hcount, hwaiting, view_same hsent]
    omega

/-- A turn that announces a message. -/
theorem told_announces {user : Profile} {m : Message} {n : NewMessage} {rooms : Socket → Bool}
    (hrooms : ∀ s, rooms s = true ↔ channelRoom c ∈ s.rooms) (hid : n.id = m.id)
    (hchannel : n.channelId.text = c) :
    Told w c ⟨[(t, .saved (.value c) user m)], g⟩ ⟨[(t, .finished)],
      { g with sent := g.sent ++ [⟨.messageNew n, (g.sockets.filter rooms).map (·.id)⟩] }⟩ := by
  have hwaiting : ∀ id,
      waiting ⟨[(t, Phase.saved (.value c) user m)], g⟩ id = if m.id = id then 1 else 0 := by
    intro id
    simp [waiting, Phase.announces]
  constructor
  · rfl
  · exact fun _ => le_refl _
  · exact fun _ => le_refl _
  · intro id
    show 0 + (stored g).count id ≤ _ + (stored g).count id
    omega
  · intro hin st id
    have hmem : w ∈ (g.sockets.filter rooms).map (·.id) := by
      obtain ⟨s, hs, hw, hroom⟩ := inRoom_mem.mp hin
      exact List.mem_map.mpr ⟨s, List.mem_filter.mpr ⟨hs, (hrooms s).mpr hroom⟩, hw⟩
    have hsent : ({ g with
      sent := g.sent ++ [⟨.messageNew n, (g.sockets.filter rooms).map (·.id)⟩] } : Gateway).sent =
        g.sent ++ [⟨.messageNew n, (g.sockets.filter rooms).map (·.id)⟩] := rfl
    have hshown := shown_announced st hsent hchannel hmem
    show (shown c (view w st _)).count id + 0 + (stored g).count id =
      (shown c (view w st g)).count id + _ + (stored g).count id
    rw [hshown, hwaiting, List.count_append, List.count_singleton, hid]
    simp only [beq_iff_eq]
    omega

/-- The turn of a sender. -/
theorem sender_told (h : Sends c (t, phase)) :
    Told w c ⟨[(t, phase)], g⟩ ⟨[(Task.move (t, phase) g).1], (Task.move (t, phase) g).2⟩ ∧
      Sends c (Task.move (t, phase) g).1 := by
  rw [Task.move_task]
  apply Task.move_of_wp (C := fun phase' g' =>
    Told w c ⟨[(t, phase)], g⟩ ⟨[(t, phase')], g'⟩ ∧ Sends c (t, phase'))
  cases h with
  | @idle _ data hevent hc =>
    simp only [Task.turn, Task.start, hevent, Task.asUser, wp_bind, wp_query]
    cases WebsocketGateway.account t.client g with
    | some user =>
      exact ⟨told_idle (fun _ => rfl) (fun _ => rfl) (fun _ => rfl) rfl rfl fun _ => rfl, .save hc⟩
    | none =>
      exact ⟨told_idle (fun h => by cases h) (fun _ => rfl) (fun _ => rfl) rfl rfl fun _ => rfl,
        .finished⟩
  | @save _ data user hc =>
    simp only [Task.turn, wp_recover, wp_bind, wp_onServer, wp_onDb]
    apply create_wp.mono
    · rintro created _ ⟨-, hposted, rfl⟩
      refine ⟨told_saves hposted.id rfl List.map_append rfl, ?_⟩
      rw [hc]
      exact .saved
    · rintro e _ ⟨-, rfl⟩
      refine ⟨told_idle (fun h => by cases h) (fun _ => rfl) (fun _ => rfl) rfl rfl fun st => ?_,
        .finished⟩
      exact shown_emitted rfl rfl
  | saved =>
    simp only [Task.turn, wp_bind]
    exact ⟨told_announces (fun _ => decide_eq_true_iff) rfl rfl, .finished⟩
  | finished =>
    exact ⟨told_idle (fun h => by cases h) (fun _ => rfl) (fun _ => rfl) rfl rfl fun _ => rfl,
      .finished⟩

/-- The turns of senders. -/
theorem turn_told (h : ∀ l ∈ p.jobs, Sends c l) (k : Nat) :
    Told w c p (p.turn Task.move k).2 ∧ ∀ l ∈ (p.turn Task.move k).2.jobs, Sends c l := by
  cases hk : p.jobs[k]? with
  | none =>
    rw [turn_none hk]
    exact ⟨.refl p, h⟩
  | some l =>
    have hturn := sender_told (w := w) (g := p.state) (h l (List.mem_of_getElem? hk))
    rw [turn_some hk]
    refine ⟨hturn.1.among hk, fun l' hl' => ?_⟩
    rcases List.mem_or_eq_of_mem_set hl' with hold | rfl
    · exact h l' hold
    · exact hturn.2

/-! ### The client that joins -/

/-- How far the handler of `channel:join` has come: it has found the socket, and then the socket is
in the room. -/
def Joins (w c : String) (g : Gateway) : Phase → Prop
  | .idle | .finished => True
  | .channel c' _ | .room c' _ => c' = .value c ∧ ∃ s ∈ g.sockets, s.id = w
  | .addMember c' _ | .members c' _ | .messages c' _ _ | .ready c' _ _ _ =>
    c' = .value c ∧ inRoom w c g = true
  | _ => False

theorem Joins.sockets (h : Joins w c g phase) (hsockets : g'.sockets = g.sockets) :
    Joins w c g' phase := by
  cases phase <;> simp_all [Joins, inRoom_same hsockets]

theorem inRoom_joins (h : ∃ s ∈ g.sockets, s.id = w) (hsockets : g'.sockets =
    Rows.modify (·.id = w) (Socket.enter (channelRoom c)) g.sockets) : inRoom w c g' = true := by
  obtain ⟨s, hs, hid⟩ := h
  rw [inRoom_mem, hsockets]
  refine ⟨s.enter (channelRoom c), Rows.mem_modify.mpr ⟨s, hs, ?_⟩, hid, List.mem_cons_self⟩
  rw [if_pos (decide_eq_true hid)]

/-- The snapshot takes each message at most as often as it is stored. -/
theorem findAll_counts {user : Profile} {db : Database} {limit offset : Nat} :
    wp (MessagesService.findAll c user limit offset)
      (fun ms db' => db' = db ∧
        ∀ id, (ms.map (·.id)).count id ≤ (db.messages.map (·.id)).count id)
      (fun _ db' => db' = db) db := by
  simp only [MessagesService.findAll, MessagesService.list, wp_bind, wp_uuidOf, implies_true,
    and_true]
  intro channel _
  apply ChannelsService.findChannel_wp.mono _ fun _ _ h => h
  rintro _ db ⟨rfl, -, -⟩
  simp only [wp_throwIf, wp_query, implies_true, and_true, true_and]
  intro _ id
  have hlisted : ∀ ms : List Message,
      (ms.map (MessagesService.listing db)).map (·.id) = ms.map (·.id) := by
    intro ms
    rw [List.map_map]
    rfl
  rw [hlisted]
  have hnewest : ((MessagesService.newest channel db).map (·.id)).count id ≤
      (db.messages.map (·.id)).count id := by
    rw [MessagesService.newest, ((List.perm_insertionSort _ _).map _).count_eq]
    exact (List.filter_sublist.map _).count_le id
  refine le_trans ?_ hnewest
  exact (slice_sublist.map _).count_le id

/-- What the turn of the handler leaves: the messages, and a snapshot of what is stored. -/
structure Joined (w c : String) (phase : Phase) (g : Gateway) (phase' : Phase) (g' : Gateway) :
    Prop where
  joins : Joins w c g' phase'
  stored : stored g' = stored g
  snapshot : phase.snapshot = none → ∀ ids, phase'.snapshot = some ids →
    ∀ id, ids.count id ≤ (Client.stored g).count id

theorem joined_of_none (hjoins : Joins w c g' phase') (hstored : stored g' = stored g)
    (hnone : phase'.snapshot = none) : Joined w c phase g phase' g' := by
  refine ⟨hjoins, hstored, fun _ ids hids => ?_⟩
  rw [hnone] at hids
  exact nomatch hids

theorem joiner_turn (hevent : t.event = .joinChannel (.value c)) (h : Joins t.client c g phase) :
    Joined t.client c phase g (Task.move (t, phase) g).1.2 (Task.move (t, phase) g).2 := by
  apply Task.move_of_wp (C := fun phase' g' => Joined t.client c phase g phase' g')
  have hfail : ∀ e, wp (t.fail e) (fun phase' g' => Joined t.client c phase g phase' g')
      (fun _ g' => Joined t.client c phase g .finished g') g :=
    fun e => joined_of_none trivial rfl rfl
  cases phase with
  | idle =>
    simp only [Task.turn, Task.start, hevent, Task.asUser, wp_bind, wp_query]
    cases haccount : WebsocketGateway.account t.client g with
    | some user =>
      obtain ⟨s, hs, hid, -⟩ := Task.account_mem haccount
      exact joined_of_none ⟨rfl, s, hs, hid⟩ rfl rfl
    | none => exact joined_of_none trivial rfl rfl
  | finished => exact joined_of_none trivial rfl rfl
  | channel c' user =>
    simp only [Task.turn, wp_recover, wp_bind, wp_onServer, wp_onDb]
    apply ChannelsService.findOneOf_wp.mono
    · rintro _ _ rfl
      exact joined_of_none h rfl rfl
    · rintro e _ rfl
      exact hfail e
  | room c' user =>
    obtain ⟨rfl, hsocket⟩ := h
    exact joined_of_none ⟨rfl, inRoom_joins hsocket rfl⟩ rfl rfl
  | addMember c' user =>
    simp only [Task.turn, wp_bind]
    apply wp_within.mpr
    simp only [WebsocketService.addChannelMember, wp_bind]
    apply WebsocketService.attempt_runs.mono
    · rintro _ _ ⟨-, rfl⟩
      exact joined_of_none ⟨h.1, h.2⟩ rfl rfl
    · exact fun _ _ h => h.elim
  | members c' user => exact joined_of_none h rfl rfl
  | messages c' user members =>
    obtain ⟨rfl, hin⟩ := h
    simp only [Task.turn, wp_recover, wp_bind, wp_onServer, wp_onDb]
    apply findAll_counts.mono
    · rintro ms _ ⟨rfl, hcounts⟩
      refine ⟨⟨rfl, hin⟩, rfl, ?_⟩
      rintro _ _ ⟨⟩
      exact hcounts
    · rintro e _ rfl
      exact hfail e
  | ready c' user members snapshot => exact joined_of_none trivial rfl rfl
  | _ => exact h.elim

/-- What the client has when the snapshot has arrived. -/
theorem ready_shown {user : Profile} {members : List String} {snapshot : List MessageListing}
    (hin : inRoom t.client c g = true) (st : Stores) (id : Uuid) :
    (shown c (view t.client st
        (Task.move (t, .ready (.value c) user members snapshot) g).2)).count id =
      (snapshot.map (·.id)).count id := by
  have hmem : t.client ∈ (g.sockets.filter (·.id = t.client)).map (·.id) := by
    obtain ⟨s, hs, hid, -⟩ := inRoom_mem.mp hin
    exact List.mem_map.mpr ⟨s, List.mem_filter.mpr ⟨hs, decide_eq_true hid⟩, hid⟩
  have hsent : (Task.move (t, .ready (.value c) user members snapshot) g).2.sent = g.sent ++
      [⟨.memberJoined (.value c) user.summary,
          (g.sockets.filter (channelRoom c ∈ ·.rooms)).map (·.id)⟩,
        ⟨.ready (.value c) snapshot.reverse members,
          (g.sockets.filter (·.id = t.client)).map (·.id)⟩] :=
    List.append_assoc _ _ _
  rw [view_sent hsent, received_pair, if_pos hmem, listenAll_append]
  show (shown c (listen (.ready (.value c) snapshot.reverse members) _)).count id = _
  rw [shown_ready, List.map_reverse, List.count_reverse]

/-! ### Runs -/

/-- A client that joins the channel, with senders whose messages are new and each stored once. -/
structure Scene (c : String) (t : Task) (phase : Phase) (rest : List (Task × Phase)) (g : Gateway) :
    Prop where
  joins : Joins t.client c g phase
  sends : ∀ l ∈ rest, Sends c l
  unsaved : ∀ id, unsaved ⟨rest, g⟩ id + (stored g).count id ≤ 1
  waiting : ∀ id, waiting ⟨rest, g⟩ id ≤ (stored g).count id

variable {rest rest' : List (Task × Phase)}

/-- A turn of a sender. -/
theorem Scene.told (h : Scene c t phase rest g) (htold : Told t.client c ⟨rest, g⟩ ⟨rest', g'⟩)
    (hsends : ∀ l ∈ rest', Sends c l) : Scene c t phase rest' g' := by
  constructor
  · exact h.joins.sockets htold.sockets
  · exact hsends
  · exact fun id => (htold.unsaved id).trans (h.unsaved id)
  · intro id
    have hturn := htold.waiting id
    have hbefore := h.waiting id
    dsimp only at hturn
    omega

theorem Scene.joiner (hevent : t.event = .joinChannel (.value c)) (h : Scene c t phase rest g) :
    Scene c t (Task.move (t, phase) g).1.2 rest (Task.move (t, phase) g).2 := by
  have hturn := joiner_turn hevent h.joins
  have hstored := hturn.stored
  constructor
  · exact hturn.joins
  · exact h.sends
  · intro id
    rw [hstored]
    exact h.unsaved id
  · intro id
    rw [hstored]
    exact h.waiting id

/-- The pool is a scene of the client `t`. -/
def InScene (c : String) (t : Task) (p : Pool (Task × Phase) Gateway) : Prop :=
  ∃ phase rest, p.jobs = (t, phase) :: rest ∧ Scene c t phase rest p.state

theorem turn_inScene (hevent : t.event = .joinChannel (.value c)) (h : InScene c t p) (k : Nat) :
    InScene c t (p.turn Task.move k).2 := by
  obtain ⟨jobs, g⟩ := p
  obtain ⟨phase, rest, rfl, hscene⟩ := h
  cases k with
  | zero =>
    refine ⟨_, rest, ?_, hscene.joiner hevent⟩
    show (Task.move (t, phase) g).1 :: rest = _
    rw [Task.move_task]
  | succ k =>
    obtain ⟨htold, hsends⟩ := turn_told (w := t.client) (p := ⟨rest, g⟩) hscene.sends k
    rw [turn_succ]
    exact ⟨phase, _, rfl, hscene.told htold hsends⟩

theorem start_inScene {senders : List Task}
    (hsends : ∀ t ∈ senders, ∃ data, t.event = .sendMessage data ∧ data.channelId = .value c)
    (hfresh : (stored g ++ senders.map (·.env.uuids 0)).Nodup) :
    InScene c t (Task.waiting (t :: senders) g) := by
  refine ⟨.idle, senders.map (·, .idle), rfl, trivial, ?_, fun id => ?_, fun id => ?_⟩
  · intro l hl
    obtain ⟨s, hs, rfl⟩ := List.mem_map.mp hl
    obtain ⟨data, hevent, hc⟩ := hsends s hs
    exact .idle hevent hc
  · have hcount := List.nodup_iff_count_le_one.mp hfresh id
    rw [List.count_append] at hcount
    have hunsaved : unsaved ⟨senders.map (·, .idle), g⟩ id =
        (senders.map (·.env.uuids 0)).count id := by
      rw [unsaved, List.countP_map, List.count, List.countP_map]
      rfl
    show unsaved ⟨senders.map (·, .idle), g⟩ id + (stored g).count id ≤ 1
    rw [hunsaved]
    omega
  · have hwaiting : waiting ⟨senders.map (·, .idle), g⟩ id = 0 := by
      apply List.countP_eq_zero.mpr
      intro l hl
      obtain ⟨s, -, rfl⟩ := List.mem_map.mp hl
      exact Bool.false_ne_true
    show waiting ⟨senders.map (·, .idle), g⟩ id ≤ (stored g).count id
    omega

theorem clashes_other (h : ∀ l ∈ p.jobs, ∀ c user members snapshot,
    l.2 ≠ .ready c user members snapshot) (seen : List Uuid) (k : Nat) :
    clashes seen p k = false := by
  unfold clashes
  split
  · rename_i hk
    exact absurd rfl (h _ (List.mem_of_getElem? hk) _ _ _ _)
  · rfl

theorem Sends.not_ready {l : Task × Phase} (h : Sends c l) (c' : BodyField String) (user : Profile)
    (members : List String) (snapshot : List MessageListing) :
    l.2 ≠ .ready c' user members snapshot := by
  cases h <;> exact nofun

/-- After the snapshot only the senders go on. -/
theorem run_told (h : ∀ l ∈ rest, Sends c l) (seen : List Uuid) (ks : List Nat) :
    ∃ q, run (Pool.turn Task.move) ⟨(t, .finished) :: rest, g⟩ ks =
        ⟨(t, .finished) :: q.jobs, q.state⟩ ∧ Told w c ⟨rest, g⟩ q ∧
      Along (Pool.turn Task.move) (fun p k => clashes seen p k = false)
        ⟨(t, .finished) :: rest, g⟩ ks := by
  induction ks generalizing rest g with
  | nil => exact ⟨⟨rest, g⟩, rfl, .refl _, trivial⟩
  | cons k ks ih =>
    have hclashes : clashes seen ⟨(t, .finished) :: rest, g⟩ k = false := by
      apply clashes_other
      intro l hl
      rcases List.mem_cons.mp hl with rfl | hrest
      · exact fun _ _ _ _ => nofun
      · exact (h l hrest).not_ready
    cases k with
    | zero =>
      obtain ⟨q, hrun, htold, halong⟩ := ih (g := g) h
      exact ⟨q, hrun, htold, hclashes, halong⟩
    | succ k =>
      obtain ⟨hturn, hsends⟩ := turn_told (w := w) (p := ⟨rest, g⟩) h k
      obtain ⟨q, hrun, htold, halong⟩ := ih hsends
      refine ⟨q, ?_, hturn.trans htold, hclashes, ?_⟩
      · rw [run, turn_succ]
        exact hrun
      · rw [turn_succ]
        exact halong

theorem clashes_ready {user : Profile} {members : List String} {snapshot : List MessageListing}
    {seen : List Uuid} :
    clashes seen ⟨(t, .ready (.value c) user members snapshot) :: rest, g⟩ 0 = false ↔
      (∀ id ∈ snapshot.map (·.id), waiting ⟨rest, g⟩ id = 0) ∧
        ∀ id ∈ stored g, id ∉ seen → 0 < waiting ⟨rest, g⟩ id := by
  have hany : ∀ id,
      ((t, Phase.ready (.value c) user members snapshot) :: rest).any (·.2.announces id) =
        decide (0 < waiting ⟨rest, g⟩ id) := by
    intro id
    have hready : (Phase.ready (.value c) user members snapshot).announces id = false := rfl
    rw [List.any_cons, hready, Bool.false_or, waiting, Bool.eq_iff_iff, decide_eq_true_iff,
      List.countP_pos_iff, List.any_eq_true]
  simp only [clashes, List.getElem?_cons_zero, hany, Bool.or_eq_false_iff, List.any_eq_false,
    List.forall_mem_map]
  simp [Nat.pos_iff_ne_zero]

theorem resting_waiting (h : ∀ l ∈ p.jobs, l.2.resting = true) (id : Uuid) : waiting p id = 0 := by
  apply List.countP_eq_zero.mpr
  intro l hl hnow
  have hrest := h l hl
  obtain ⟨t, phase⟩ := l
  cases phase with
  | saved => exact nomatch hrest
  | _ => exact nomatch hnow

/-- From the emission of the snapshot on: each message is shown once if and only if none of the
snapshot is announced afterwards, and none stored since the query has been announced. -/
theorem ready_eachOnce {user : Profile} {members : List String} {snapshot : List MessageListing}
    {seen : List Uuid} (st : Stores)
    (h : Scene c t (.ready (.value c) user members snapshot) rest g)
    (hsnapshot : ∀ id, (snapshot.map (·.id)).count id ≤ seen.count id)
    (hseen : ∀ id, seen.count id ≤ (stored g).count id)
    (htold : Told t.client c ⟨rest, (Task.move (t, .ready (.value c) user members snapshot) g).2⟩ q)
    (hrest : ∀ l ∈ q.jobs, l.2.resting = true) :
    EachOnce t.client c st seen (snapshot.map (·.id)) q.state ↔
      clashes seen ⟨(t, .ready (.value c) user members snapshot) :: rest, g⟩ 0 = false := by
  have hin := h.joins.2
  have hfinal : ∀ id, (shown c (view t.client st q.state)).count id + (stored g).count id =
      (snapshot.map (·.id)).count id + waiting ⟨rest, g⟩ id + (stored q.state).count id := by
    intro id
    have htotal := htold.shown hin st id
    rw [ready_shown hin, resting_waiting hrest] at htotal
    exact htotal
  have hgrows : ∀ id, (stored g).count id ≤ (stored q.state).count id := htold.stored
  have hunique : ∀ id, (stored q.state).count id ≤ 1 := by
    intro id
    have hbefore := h.unsaved id
    have hafter := htold.unsaved id
    have hsame : stored (Task.move (t, .ready (.value c) user members snapshot) g).2 = stored g :=
      rfl
    simp only [hsame] at hafter
    have hrefl :
        unsaved ⟨rest, (Task.move (t, .ready (.value c) user members snapshot) g).2⟩ id =
          unsaved ⟨rest, g⟩ id := rfl
    omega
  rw [clashes_ready]
  constructor
  · intro honce
    constructor
    · intro id hid
      have hone := honce id (.inl hid)
      have hcount := List.count_pos_iff.mpr hid
      have hfinal := hfinal id
      have := hsnapshot id
      have := hseen id
      have := hgrows id
      have := hunique id
      omega
    · intro id hid hnew
      have hcount := List.count_pos_iff.mpr hid
      have hgrows := hgrows id
      have hone := honce id (.inr ⟨List.count_pos_iff.mp (by omega), hnew⟩)
      have hfinal := hfinal id
      have hnone := List.count_eq_zero.mpr hnew
      have := hsnapshot id
      have := hunique id
      omega
  · rintro ⟨hquiet, hlater⟩ id hid
    have hfinal := hfinal id
    have hgrows := hgrows id
    have hunique := hunique id
    have hwaiting := h.waiting id
    have hsnapshot := hsnapshot id
    by_cases hlisted : id ∈ snapshot.map (·.id)
    · have hcount := List.count_pos_iff.mpr hlisted
      have hnone := hquiet id hlisted
      have := hseen id
      omega
    · obtain ⟨hstored, hnew⟩ := hid.resolve_left hlisted
      have hcount := List.count_pos_iff.mpr hstored
      have hnone := List.count_eq_zero.mpr hlisted
      by_cases hold : id ∈ stored g
      · have hpending := hlater id hold hnew
        have hone := List.count_pos_iff.mpr hold
        omega
      · have hzero := List.count_eq_zero.mpr hold
        omega

theorem run_eachOnce {user : Profile} {members : List String} {snapshot : List MessageListing}
    {seen : List Uuid} (st : Stores) (ks : List Nat)
    (h : Scene c t (.ready (.value c) user members snapshot) rest g)
    (hsnapshot : ∀ id, (snapshot.map (·.id)).count id ≤ seen.count id)
    (hseen : ∀ id, seen.count id ≤ (stored g).count id) :
    let start : Pool (Task × Phase) Gateway :=
      ⟨(t, .ready (.value c) user members snapshot) :: rest, g⟩
    let p := run (Pool.turn Task.move) start ks
    (∀ l ∈ p.jobs, l.2.resting = true) →
      (EachOnce t.client c st seen (snapshot.map (·.id)) p.state ↔
        Along (Pool.turn Task.move) (fun p k => clashes seen p k = false) start ks) := by
  intro start p hrest
  induction ks generalizing rest g with
  | nil => exact nomatch hrest _ List.mem_cons_self
  | cons k ks ih =>
    cases k with
    | zero =>
      obtain ⟨q, hrun, htold, halong⟩ := run_told (t := t) (w := t.client)
        (g := (Task.move (t, .ready (.value c) user members snapshot) g).2) h.sends seen ks
      have hend : p = ⟨(t, .finished) :: q.jobs, q.state⟩ := hrun
      rw [hend] at hrest ⊢
      rw [ready_eachOnce st h hsnapshot hseen htold fun l hl => hrest l (List.mem_cons_of_mem _ hl)]
      exact (and_iff_left halong).symm
    | succ k =>
      obtain ⟨htold, hsends⟩ := turn_told (w := t.client) (p := ⟨rest, g⟩) h.sends k
      have hclashes : clashes seen start (k + 1) = false := by
        unfold clashes
        split
        · rename_i hk
          exact absurd rfl ((h.sends _ (List.mem_of_getElem? hk)).not_ready _ _ _ _)
        · rfl
      have hnext : (start.turn Task.move (k + 1)).2 = _ := turn_succ
      show EachOnce _ _ _ _ _ (run _ (start.turn Task.move (k + 1)).2 ks).state ↔
        clashes seen start (k + 1) = false ∧ Along _ _ (start.turn Task.move (k + 1)).2 ks
      have hrest : ∀ l ∈ (run _ (start.turn Task.move (k + 1)).2 ks).jobs, l.2.resting = true :=
        hrest
      rw [hnext] at hrest ⊢
      rw [ih (h.told htold hsends) (fun id => (hseen id).trans (htold.stored id)) hrest]
      exact (and_iff_right hclashes).symm

/-- When the handlers have ended and all emissions have arrived, the client shows each message of
the snapshot and each one saved after its query once, if and only if the snapshot was emitted after
the messages in it were announced and before any saved later was. -/
theorem shown_once_iff {t : Task} {senders : List Task} (st : Stores) (before later : List Nat)
    (snapshot : List Uuid) (hjoins : t.event = .joinChannel (.value c))
    (hsends : ∀ t ∈ senders, ∃ data, t.event = .sendMessage data ∧ data.channelId = .value c)
    (hfresh : (stored g ++ senders.map (·.env.uuids 0)).Nodup) :
    let p := run (Pool.turn Task.move) (Task.waiting (t :: senders) g) before
    let q := (p.turn Task.move 0).2
    let last := run (Pool.turn Task.move) q later
    queried p = none → queried q = some snapshot → (∀ l ∈ last.jobs, l.2.resting = true) →
      (EachOnce t.client c st (stored p.state) snapshot last.state ↔
        Along (Pool.turn Task.move) (fun q k => clashes (stored p.state) q k = false) q later) := by
  intro p q last hnone hsnapshot hrest
  have hscene : InScene c t p :=
    (along_of_forall (P := fun _ _ => True) (fun _ _ => trivial) _ before).invariant
      (fun p k hp _ => turn_inScene hjoins hp k) (start_inScene hsends hfresh)
  obtain ⟨phase, rest, hjobs, hp⟩ := hscene
  have hturn := joiner_turn hjoins hp.joins
  have hnext := hp.joiner hjoins
  have hq : q = ⟨(Task.move (t, phase) p.state).1 :: rest, (Task.move (t, phase) p.state).2⟩ := by
    show (p.turn Task.move 0).2 = _
    rw [turn_some (by rw [hjobs]; rfl), hjobs]
    rfl
  rw [Task.move_task] at hq
  rw [queried, hq] at hsnapshot
  replace hsnapshot : (Task.move (t, phase) p.state).1.2.snapshot = some snapshot := hsnapshot
  have hbefore : phase.snapshot = none := by
    rw [queried, hjobs] at hnone
    exact hnone
  have hcounts := hturn.snapshot hbefore snapshot hsnapshot
  have hready : ∃ user members ms, snapshot = ms.map (·.id) ∧
      (Task.move (t, phase) p.state).1.2 = .ready (.value c) user members ms := by
    have hjoined := hturn.joins
    cases hphase : (Task.move (t, phase) p.state).1.2 with
    | ready c' user members ms =>
      rw [hphase] at hsnapshot hjoined
      exact ⟨user, members, ms, (Option.some.inj hsnapshot).symm, by rw [hjoined.1]⟩
    | _ =>
      rw [hphase] at hsnapshot
      exact nomatch hsnapshot
  obtain ⟨user, members, ms, rfl, hphase⟩ := hready
  rw [hphase] at hq hnext
  have hseen : ∀ id, (stored p.state).count id ≤
      (stored (Task.move (t, phase) p.state).2).count id := by
    intro id
    rw [hturn.stored]
  have hiff := run_eachOnce st later hnext hcounts hseen
  rw [← hq] at hiff
  exact hiff hrest

/-- Alice and Bob are connected; Alice has opened a channel. -/
def bothConnected : Gateway :=
  (run (Pool.turn Task.move)
    (Task.waiting
      [Task.aliceConnects 5 "alice",
        ⟨sampleEnv 6, "bob", .connection ⟨some (sampleToken 4 "bob"), none, none⟩⟩]
      ⟨run (serve sampleExternals) Task.channelOpened
        [(sampleEnv 4, ⟨none, .auth (.register ⟨"bob", "bob@mail", "secret"⟩)⟩)], [], []⟩)
    (Task.wholly 0 ++ Task.wholly 1)).state

def aliceJoins : Task := ⟨sampleEnv 7, "alice", .joinChannel (.value Task.generalChannel)⟩

def bobSends : Task :=
  ⟨sampleEnv 8, "bob",
    .sendMessage ⟨.value Task.generalChannel, .value "hello", .absent, .absent⟩⟩

def noStores : Stores := ⟨⟨[]⟩, fun _ => none⟩

/-- The turns of Alice up to her query. -/
def untilQuery : List Nat := List.replicate 5 0

/-- The state in which the snapshot has been queried. -/
def snapshotQueried : Pool (Task × Phase) Gateway :=
  ((run (Pool.turn Task.move) (Task.waiting [aliceJoins, bobSends] bothConnected) untilQuery).turn
    Task.move 0).2

theorem bobSends_sends :
    ∀ t ∈ [bobSends], ∃ data, t.event = .sendMessage data ∧
      data.channelId = .value Task.generalChannel := by
  intro t ht
  rw [List.mem_singleton.mp ht]
  exact ⟨_, rfl, rfl⟩

/-- Bob's message is saved and announced after the snapshot has been emitted. -/
theorem later_message_shown_once :
    EachOnce "alice" Task.generalChannel noStores
      (stored (run (Pool.turn Task.move) (Task.waiting [aliceJoins, bobSends] bothConnected)
        untilQuery).state) []
      (run (Pool.turn Task.move) snapshotQueried (0 :: Task.wholly 1)).state :=
  (shown_once_iff noStores untilQuery (0 :: Task.wholly 1) [] rfl bobSends_sends
    (by decide +kernel) (by decide +kernel) (by decide +kernel) (by decide +kernel)).mpr
    (by decide +kernel)

/-- Bob's message is saved and announced between the query and the snapshot. -/
theorem message_between_lost :
    let start := Task.waiting [aliceJoins, bobSends] bothConnected
    let p := run (Pool.turn Task.move) start untilQuery
    let last := run (Pool.turn Task.move) snapshotQueried (Task.wholly 1 ++ [0])
    (stored bothConnected ++ [bobSends].map (·.env.uuids 0)).Nodup ∧ queried p = none ∧
      queried snapshotQueried = some [] ∧ (∀ l ∈ last.jobs, l.2.resting = true) ∧
      ¬EachOnce "alice" Task.generalChannel noStores (stored p.state) [] last.state := by
  refine ⟨by decide +kernel, by decide +kernel, by decide +kernel, by decide +kernel, ?_⟩
  intro honce
  have hone := honce (sampleUuid 8 0) (.inr ⟨by decide +kernel, by decide +kernel⟩)
  exact absurd hone (by decide +kernel)

end Client

end VoxLink
