import VoxLink.Content.Writing
import VoxLink.Realtime.Members

/-! The answers to `channel:join`. A socket takes events from the moment it is connected, while its
account is still being loaded; `handleJoinChannel` returns without an answer if there is none. -/

namespace VoxLink

open ProofKit Prog

/-- The event answers a join of the client: it is told that the channel is ready, or what failed. -/
def Emission.answers (client : String) (e : Emission) : Bool :=
  client ∈ e.recipients && match e.event with
    | .ready _ _ _ | .error _ => true
    | _ => false

/-- The answers to the client among what is emitted between two states. -/
def newAnswers (client : String) (g g' : Gateway) : Nat :=
  (g'.sent.drop g.sent.length).countP (Emission.answers client)

namespace Phase

/-- The handler has not started. -/
def waiting : Phase → Bool
  | .idle => true
  | _ => false

/-- `handleJoinChannel` is on its way. -/
def joining : Phase → Bool
  | .channel _ _ | .room _ _ | .addMember _ _ | .members _ _ | .messages _ _ _ |
    .ready _ _ _ _ => true
  | _ => false

def done : Phase → Bool
  | .finished => true
  | _ => false

end Phase

theorem Phase.done_of_joining {phase : Phase} (h : phase.joining = true) : phase.done = false := by
  cases phase with
  | finished => exact nomatch h
  | _ => rfl

/-- How many answers job `k` gives to the client in the turns that it takes in a run. -/
def answersOf (client : String) (k : Nat) : Pool (Task × Phase) Gateway → List Nat → Nat
  | _, [] => 0
  | p, i :: is =>
    (if i = k then newAnswers client p.state (p.turn Task.move i).2.state else 0) +
      answersOf client k (p.turn Task.move i).2 is

/-- Job `k` has the turn and has not finished. -/
def acts (k : Nat) (p : Pool (Task × Phase) Gateway) (i : Nat) : Bool :=
  i = k && p.jobs[k]?.any fun l => !l.2.done

/-- Job `k` receives its event in this turn. -/
def receives (k : Nat) (p : Pool (Task × Phase) Gateway) (i : Nat) : Bool :=
  i = k && p.jobs[k]?.any fun l => l.2.waiting

def connected (client : String) (g : Gateway) : Bool := g.sockets.any (·.id = client)

variable {client : String} {g g' : Gateway} {t : Task} {phase : Phase} {k i : Nat}
  {p : Pool (Task × Phase) Gateway} {is : List Nat}

/-! ### One turn -/

theorem newAnswers_append {es : List Emission} (h : g'.sent = g.sent ++ es) :
    newAnswers client g g' = es.countP (Emission.answers client) := by
  rw [newAnswers, h, List.drop_left]

theorem newAnswers_same (h : g'.sent = g.sent) : newAnswers client g g' = 0 := by
  have happend : g'.sent = g.sent ++ [] := by rw [h, List.append_nil]
  exact newAnswers_append happend

theorem mem_recipients (h : connected client g = true) :
    client ∈ (g.sockets.filter (·.id = client)).map (·.id) := by
  simp only [connected, List.any_eq_true, decide_eq_true_eq] at h
  obtain ⟨s, hs, hid⟩ := h
  exact List.mem_map.mpr ⟨s, List.mem_filter.mpr ⟨hs, decide_eq_true hid⟩, hid⟩

/-- A turn of a join on its way gives no answer, or ends with one. -/
def Answering (client : String) (g : Gateway) (phase : Phase) (g' : Gateway) : Prop :=
  (phase.joining = true ∧ newAnswers client g g' = 0) ∨
    phase.done = true ∧ newAnswers client g g' = 1

theorem joining_turn (hphase : phase.joining = true) (hconnected : connected t.client g = true) :
    Answering t.client g (Task.move (t, phase) g).1.2 (Task.move (t, phase) g).2 := by
  apply Task.move_of_wp (C := Answering t.client g)
  have hfail : ∀ e, wp (t.fail e) (Answering t.client g)
      (fun _ g' => Answering t.client g .finished g') g := by
    intro e
    refine .inr ⟨rfl, ?_⟩
    rw [newAnswers_append rfl, List.countP_singleton]
    simp [Emission.answers, mem_recipients hconnected]
  cases phase with
  | channel c user =>
    simp only [Task.turn, wp_recover, wp_bind, wp_onServer, wp_onDb]
    apply ChannelsService.findOneOf_wp.mono
    · rintro _ _ rfl
      exact .inl ⟨rfl, newAnswers_same rfl⟩
    · rintro e _ rfl
      exact hfail e
  | room c user => exact .inl ⟨rfl, newAnswers_same rfl⟩
  | addMember c user =>
    simp only [Task.turn, wp_bind]
    apply wp_within.mpr
    simp only [WebsocketService.addChannelMember, wp_bind]
    apply WebsocketService.attempt_runs.mono
    · rintro _ _ ⟨-, rfl⟩
      exact .inl ⟨rfl, newAnswers_same rfl⟩
    · exact fun _ _ h => h.elim
  | members c user => exact .inl ⟨rfl, newAnswers_same rfl⟩
  | messages c user members =>
    simp only [Task.turn, wp_recover, wp_bind, wp_onServer, wp_onDb]
    have hsame : Keeps (· = ·) (MessagesService.findAllOf t.env c user 50 0) :=
      keeps_messages_findAllOf c 50 0
    apply (hsame g.server.db).mono
    · rintro ms _ rfl
      exact .inl ⟨rfl, newAnswers_same rfl⟩
    · rintro e _ rfl
      exact hfail e
  | ready c user members messages =>
    refine .inr ⟨rfl, ?_⟩
    rw [newAnswers_append (List.append_assoc _ _ _)]
    simp [Emission.answers, mem_recipients hconnected]
  | _ => cases hphase

/-- The turn in which a join is received. -/
theorem receive_turn {c : BodyField String} (hevent : t.event = .joinChannel c) :
    Task.move (t, .idle) g =
        ((t, ((WebsocketGateway.account t.client g).map (Phase.channel c)).getD .finished), g) := by
  have hturn : t.turn .idle = t.asUser fun user => pure (.channel c user) := by
    rw [Task.turn, Task.start, hevent]
  have hruns : t.turn .idle g =
      .ok (((WebsocketGateway.account t.client g).map (Phase.channel c)).getD .finished) g := by
    rw [hturn, Task.asUser]
    cases haccount : WebsocketGateway.account t.client g with
    | none =>
      rw [bind_at (query_at haccount)]
      rfl
    | some user =>
      rw [bind_at (query_at haccount)]
      rfl
  rw [Task.move, hruns]

/-! ### Runs -/

/-- The state in which job `k` receives its event. -/
def receipt (k : Nat) : Pool (Task × Phase) Gateway → List Nat → Option Gateway
  | _, [] => none
  | p, i :: is => if receives k p i then some p.state else receipt k (p.turn Task.move i).2 is

theorem done_answers (hk : p.jobs[k]? = some (t, phase)) (hdone : phase.done = true) :
    answersOf client k p is = 0 := by
  induction is generalizing p with
  | nil => rfl
  | cons i is ih =>
    rw [answersOf]
    by_cases hik : i = k
    · subst hik
      cases phase with
      | finished =>
        have hself : (p.turn Task.move i).2.jobs[i]? = some (t, .finished) := turn_self hk
        have hsame : (p.turn Task.move i).2.state = p.state := by
          rw [turn_some hk]
          rfl
        rw [if_pos rfl, hsame, newAnswers_same rfl, ih hself]
      | _ => exact nomatch hdone
    · rw [if_neg hik, ih ((turn_ne hik).trans hk)]

/-- A join on its way over a connection that lasts is answered once by the time it has finished. -/
theorem joining_answers (hk : p.jobs[k]? = some (t, phase)) (hphase : phase.joining = true)
    (hconnected : Along (Pool.turn Task.move)
      (fun p i => acts k p i = true → connected t.client p.state = true) p is)
    (hdone : (run (Pool.turn Task.move) p is).jobs[k]?.any (·.2.done) = true) :
    answersOf t.client k p is = 1 := by
  induction is generalizing p phase with
  | nil =>
    rw [run, hk, Option.any_some, Phase.done_of_joining hphase] at hdone
    cases hdone
  | cons i is ih =>
    rw [answersOf]
    by_cases hik : i = k
    · subst hik
      have hacts : acts i p i = true := by simp [acts, hk, Phase.done_of_joining hphase]
      have hself : (p.turn Task.move i).2.jobs[i]? =
          some (t, (Task.move (t, phase) p.state).1.2) :=
        (turn_self hk).trans (congrArg some Task.move_task)
      have hstate : (p.turn Task.move i).2.state = (Task.move (t, phase) p.state).2 := by
        rw [turn_some hk]
      rw [if_pos rfl, hstate]
      rcases joining_turn hphase (hconnected.1 hacts) with ⟨hon, hnone⟩ | ⟨hend, hone⟩
      · rw [hnone, ih hself hon hconnected.2 hdone]
      · rw [hone, done_answers hself hend]
    · rw [if_neg hik, Nat.zero_add]
      exact ih ((turn_ne hik).trans hk) hphase hconnected.2 hdone

/-- In every run in which a join is received and handled to its end over a connection that lasts, it
is answered exactly once if and only if the socket has its account when the join is received. -/
theorem join_answered_iff (p : Pool (Task × Phase) Gateway) (is : List Nat) (k : Nat) (t : Task)
    (c : BodyField String) (hk : p.jobs[k]? = some (t, .idle)) (hevent : t.event = .joinChannel c)
    (hconnected : Along (Pool.turn Task.move)
      (fun p i => acts k p i = true → connected t.client p.state = true) p is)
    (hdone : (run (Pool.turn Task.move) p is).jobs[k]?.any (·.2.done) = true) :
    answersOf t.client k p is = 1 ↔
      ((receipt k p is).bind (WebsocketGateway.account t.client)).isSome = true := by
  induction is generalizing p with
  | nil =>
    rw [run, hk] at hdone
    cases hdone
  | cons i is ih =>
    rw [answersOf, receipt]
    by_cases hik : i = k
    · subst hik
      have hreceives : receives i p i = true := by simp [receives, hk, Phase.waiting]
      have hself : (p.turn Task.move i).2.jobs[i]? = some (Task.move (t, .idle) p.state).1 :=
        turn_self hk
      have hstate : (p.turn Task.move i).2.state = p.state := by
        rw [turn_some hk, receive_turn hevent]
      rw [receive_turn hevent] at hself
      rw [if_pos rfl, if_pos hreceives, Option.bind_some, hstate, newAnswers_same rfl, Nat.zero_add]
      cases haccount : WebsocketGateway.account t.client p.state with
      | none =>
        rw [haccount] at hself
        rw [done_answers hself rfl]
        exact iff_of_false Nat.zero_ne_one (fun h => by cases h)
      | some user =>
        rw [haccount] at hself
        exact iff_of_true (joining_answers hself rfl hconnected.2 hdone) rfl
    · have hother : receives k p i = false := by simp [receives, hik]
      rw [if_neg hik, Nat.zero_add, hother]
      exact ih _ ((turn_ne hik).trans hk) hconnected.2 hdone

/-- Alice connects and joins the channel. -/
def aliceJoins : Pool (Task × Phase) Gateway :=
  Task.waiting [Task.aliceConnects 4 "alice",
    ⟨sampleEnv 5, "alice", .joinChannel (.value Task.generalChannel)⟩] ⟨Task.channelOpened, [], []⟩

theorem lateJoin_answered :
    answersOf "alice" 1 aliceJoins (Task.wholly 0 ++ Task.wholly 1) = 1 :=
  (join_answered_iff aliceJoins (Task.wholly 0 ++ Task.wholly 1) 1
    ⟨sampleEnv 5, "alice", .joinChannel (.value Task.generalChannel)⟩
    (.value Task.generalChannel) rfl rfl (by decide +kernel) (by decide +kernel)).mpr
    (by decide +kernel)

/-- The join is received when the token has been verified and the account is being loaded. -/
def earlyJoin : List Nat := 0 :: 1 :: (Task.wholly 0 ++ Task.wholly 1)

theorem earlyJoin_not_answered :
    let g' := (run (Pool.turn Task.move) aliceJoins earlyJoin).state
    Along (Pool.turn Task.move)
        (fun p i => acts 1 p i = true → connected "alice" p.state = true) aliceJoins earlyJoin ∧
      (run (Pool.turn Task.move) aliceJoins earlyJoin).jobs[1]?.any (·.2.done) = true ∧
      g'.attached alice.id = true ∧ answersOf "alice" 1 aliceJoins earlyJoin = 0 := by
  decide +kernel

end VoxLink
