import VoxLink.Client.Voice

/-! The effect that connects is cleaned up in every render in which `connect` is another function
than in the render before. It is one as soon as a render sees that the room is connecting, or is
connected, and the cleanup disconnects. -/

namespace VoxLink

open ProofKit

namespace Client.Voice

variable {p : VoiceProps} {v : Voice} {i : VoiceInput}

/-- What the last render has set up. -/
def lastRender (v : Voice) : VoiceRendered × Memo (String × Bool × Bool) × (Bool × String × Nat) :=
  (v.rendered, v.connectCallback, v.effectDeps)

/-- What the last render has set up is that of what it saw. -/
structure SetUp (p : VoiceProps) (v : Voice) : Prop where
  callback : v.connectCallback.deps = dependencies p v.rendered
  effect : v.effectDeps = (p.autoConnect, p.channelId, v.connectCallback.version)

theorem SetUp.congr {v' : Voice} (h : SetUp p v) (hsame : v'.lastRender = v.lastRender) :
    SetUp p v' := by
  simp only [lastRender, Prod.mk.injEq] at hsame
  obtain ⟨hrendered, hcallback, heffect⟩ := hsame
  constructor
  · rw [hcallback, hrendered]
    exact h.callback
  · rw [heffect, hcallback]
    exact h.effect

/-! ### Only a render renders -/

@[simp] theorem lastRender_connect : v.connect.lastRender = v.lastRender := by
  unfold connect
  split <;> rfl

@[simp] theorem lastRender_runEffect : (v.runEffect p).lastRender = v.lastRender := by
  unfold runEffect
  split
  · exact lastRender_connect
  · rfl

@[simp] theorem lastRender_closeRoom {n : Nat} : (v.closeRoom n).lastRender = v.lastRender := rfl

@[simp] theorem lastRender_setTask {k : Nat} {t : VoiceTask} :
    (v.setTask k t).lastRender = v.lastRender := rfl

@[simp] theorem lastRender_fail {k : Nat} {message : Option String} :
    (v.fail k message).lastRender = v.lastRender := rfl

@[simp] theorem lastRender_join {k : Nat} : (v.join k).lastRender = v.lastRender := rfl

@[simp] theorem lastRender_leave {room : Option Nat} :
    (v.leave room).lastRender = v.lastRender := by
  cases room <;> rfl

theorem lastRender_answered {k : Nat} {answer : Except (Option String) Bool} :
    (v.answered k answer).lastRender = v.lastRender := by
  unfold answered
  split
  · split
    · simp
    · simp
    · split <;> simp
  · rfl

theorem lastRender_left {k : Nat} : (v.left k).lastRender = v.lastRender := by
  unfold left
  split <;> simp

theorem lastRender_joined {k : Nat} {present : List String} :
    (v.joined k present).lastRender = v.lastRender := by
  unfold joined
  split
  · split
    · dsimp only
      split <;> rfl
    · rfl
  · rfl

theorem lastRender_enabled {k : Nat} {mic : Except (Option String) Unit} :
    (v.enabled k mic).lastRender = v.lastRender := by
  unfold enabled
  split
  · cases mic <;> rfl
  · rfl

theorem lastRender_refused {k : Nat} {message : Option String} :
    (v.refused k message).lastRender = v.lastRender := by
  unfold refused
  split <;> simp

theorem lastRender_roomEvent {n : Nat} {e : RoomEvent} :
    (v.roomEvent n e).lastRender = v.lastRender := by
  cases e <;> rfl

theorem lastRender_step (h : i ≠ .render) : (v.step p i).2.lastRender = v.lastRender := by
  cases i with
  | render => exact absurd rfl h
  | overtaken => rfl
  | connect => exact lastRender_connect
  | disconnect => rfl
  | toggleMute ok => rfl
  | toggleDeafen ok => rfl
  | answered k answer => exact lastRender_answered
  | left k => exact lastRender_left
  | joined k present => exact lastRender_joined
  | enabled k mic => exact lastRender_enabled
  | refused k message => exact lastRender_refused
  | roomEvent n e => exact lastRender_roomEvent

/-! ### The cleanup -/

/-- What the next render sees. -/
def seen (v : Voice) : VoiceRendered := ⟨v.connectionState, v.isMuted, v.isDeafened⟩

theorem render_seen : (v.render p).2.rendered = v.seen := by
  unfold render
  dsimp only
  split
  · rfl
  · have h : ∀ w : Voice, (w.runEffect p).rendered = w.rendered := by
      intro w
      exact congrArg Prod.fst (lastRender_runEffect (v := w))
    rw [h]
    rfl

theorem render_setUp : SetUp p (v.render p).2 := by
  unfold render
  dsimp only
  split
  · exact ⟨Memo.next_deps _ _, Eq.symm ‹_›⟩
  · refine SetUp.congr ?_ lastRender_runEffect
    exact ⟨Memo.next_deps _ _, rfl⟩

/-- The cleanup runs exactly when the render sees another state of the connection, as far as
`connect` tells states apart. -/
theorem render_quiet_iff (h : SetUp p v) :
    (v.render p).1 = false ↔ dependencies p v.seen = dependencies p v.rendered := by
  rw [← h.callback, ← Memo.next_version_eq_iff]
  unfold render
  dsimp only
  rw [h.effect]
  split
  · rename_i heq
    simp only [Prod.mk.injEq, true_and] at heq
    exact iff_of_true rfl heq
  · rename_i hne
    refine iff_of_false nofun fun heq => hne ?_
    rw [← heq]
    rfl

/-- The states that `connect` depends on. -/
def underWay (r : VoiceRendered) : Bool := r.isConnecting || r.isConnected

theorem dependencies_eq_iff {r r' : VoiceRendered} (h : underWay r = false) :
    dependencies p r' = dependencies p r ↔ underWay r' = false := by
  obtain ⟨hconnecting, hconnected⟩ := Bool.or_eq_false_iff.mp h
  simp [dependencies, underWay, hconnecting, hconnected]

/-! ### Runs -/

/-- A render sees no room that is connecting or connected. -/
def Unseen (v : Voice) : VoiceInput → Prop
  | .render => underWay v.seen = false
  | _ => True

instance (v : Voice) (i : VoiceInput) : Decidable (Unseen v i) := by
  cases i <;> unfold Unseen <;> infer_instance

theorem mount_lastRender (p : VoiceProps) (service : LiveKitService) :
    (mount p service).lastRender =
      (⟨.disconnected, false, false⟩, ⟨dependencies p ⟨.disconnected, false, false⟩, 0⟩,
        (p.autoConnect, p.channelId, 0)) := lastRender_runEffect

theorem mount_setUp {service : LiveKitService} : SetUp p (mount p service) := by
  have h := mount_lastRender p service
  simp only [lastRender, Prod.mk.injEq] at h
  obtain ⟨hrendered, hcallback, heffect⟩ := h
  constructor
  · rw [hcallback, hrendered]
  · rw [heffect, hcallback]

/-- While the component stays mounted with the same props, and nobody calls the `disconnect` that it
returns, the hook does not disconnect exactly when no render sees that the room is connecting or
connected. -/
theorem hook_never_hangs_up_iff (p : VoiceProps) (service : LiveKitService)
    (inputs : List VoiceInput) (hcaller : .disconnect ∉ inputs) :
    (∀ called ∈ outputs (step p) (mount p service) inputs, called = false) ↔
      Along (step p) Unseen (mount p service) inputs := by
  rw [forall_outputs_iff]
  have hcalled : Along (step p) (fun _ i => i ≠ .disconnect) (mount p service) inputs :=
    along_input_iff.mpr fun i hi heq => hcaller (heq ▸ hi)
  refine Along.congr_invariant (I := fun v => SetUp p v ∧ underWay v.rendered = false) hcalled
    ?_ ?_ ⟨mount_setUp, ?_⟩
  · rintro v i ⟨hsetUp, hrendered⟩ hi
    cases i with
    | render => exact (render_quiet_iff hsetUp).trans (dependencies_eq_iff hrendered)
    | disconnect => exact absurd rfl hi
    | _ => exact iff_of_true rfl trivial
  · rintro v i ⟨hsetUp, hrendered⟩ hi hquiet
    by_cases hrender : i = .render
    · subst hrender
      refine ⟨render_setUp, ?_⟩
      show underWay (v.render p).2.rendered = false
      rw [render_seen]
      exact (dependencies_eq_iff hrendered).mp ((render_quiet_iff hsetUp).mp hquiet)
    · have hsame := lastRender_step (p := p) (v := v) hrender
      refine ⟨hsetUp.congr hsame, ?_⟩
      have heq : (v.step p i).2.rendered = v.rendered := congrArg Prod.fst hsame
      rw [heq]
      exact hrendered
  · have heq : (mount p service).rendered = _ := congrArg Prod.fst (mount_lastRender p service)
    rw [heq]
    rfl

/-- A component that does not connect by itself, and a call of `connect` that gets no token. -/
def refusedRun : List VoiceInput :=
  [.connect, .toggleMute true, .render, .answered 0 (.ok false), .render]

/-- A call of `connect` that gets a token, and the render that follows. -/
def connectRun : List VoiceInput := [.connect, .answered 0 (.ok true), .render]

/-- Without a token there is no room to leave. -/
theorem refused_token_never_hangs_up :
    (outputs (step ⟨"general", false⟩) (mount ⟨"general", false⟩ ⟨[], none⟩) refusedRun).all
      (· = false) = true := by
  have hnever := (hook_never_hangs_up_iff ⟨"general", false⟩ ⟨[], none⟩ refusedRun
    (by simp [refusedRun])).mpr (by decide +kernel)
  exact List.all_eq_true.mpr fun called h => decide_eq_true (hnever called h)

/-- The render that sees the room connect ends the call. -/
theorem connect_hangs_up :
    .disconnect ∉ connectRun ∧
      outputs (step ⟨"general", false⟩) (mount ⟨"general", false⟩ ⟨[], none⟩) connectRun =
        [false, false, true] ∧
      (run (step ⟨"general", false⟩) (mount ⟨"general", false⟩ ⟨[], none⟩)
        (connectRun ++ [.left 1])).service = ⟨[.left], none⟩ :=
  ⟨by simp [connectRun], by decide +kernel, by decide +kernel⟩

end Client.Voice

end VoxLink
