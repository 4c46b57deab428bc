import VoxLink.Client.Deafness

/-! Whether a user who deafens himself and stops it again is where he was before. `toggleDeafen`
sets the mute flag, the microphone and all tracks from the one flag that it turns around. -/

namespace VoxLink

open ProofKit

namespace Client

/-- `this.room` -/
def LiveKitService.current (l : LiveKitService) : Option VoiceRoom := l.room.bind (l.rooms[·]?)

namespace Voice

/-! ### A session -/

/-- What a room reports of its participants. -/
inductive ParticipantEvent where
  | connected (identity : String)
  | disconnected (identity : String)
  | trackSubscribed (identity sid : String)
  | trackUnsubscribed (identity sid : String)
deriving DecidableEq, Repr

def ParticipantEvent.event : ParticipantEvent → RoomEvent
  | connected identity => .participantConnected identity
  | disconnected identity => .participantDisconnected identity
  | trackSubscribed identity sid => .trackSubscribed identity sid
  | trackUnsubscribed identity sid => .trackUnsubscribed identity sid

/-- What happens in a room: toggles, with whether the microphone obeys, and participants who come
and go. -/
inductive SessionInput where
  | toggleMute (ok : Bool)
  | toggleDeafen (ok : Bool)
  | participant (e : ParticipantEvent)
deriving DecidableEq, Repr

/-- The user toggles what the page shows of the state. -/
def session (p : VoiceProps) (v : Voice) (i : SessionInput) : Unit × Voice :=
  let v := (v.render p).2
  match i with
  | .toggleMute ok => ((), v.toggleMute ok)
  | .toggleDeafen ok => ((), v.toggleDeafen ok)
  | .participant e =>
    match v.service.room with
    | some n => ((), v.roomEvent n e.event)
    | none => ((), v)

/-- The room of the service. -/
def room (v : Voice) : Option VoiceRoom := v.service.current

/-- The service has a room that is joined. -/
def InSession (v : Voice) : Prop := ∃ r, v.room = some r ∧ r.isJoined = true

/-- After two toggles the flags, the microphone and the tracks are as they were. -/
structure Restored (v v' : Voice) : Prop where
  isMuted : v'.isMuted = v.isMuted
  isDeafened : v'.isDeafened = v.isDeafened
  mic : v'.room.map (·.isMicrophoneEnabled) = v.room.map (·.isMicrophoneEnabled)
  tracks : v'.room.map (·.tracks) = v.room.map (·.tracks)

/-- To deafen and to undeafen cancel out. -/
def Cancels (p : VoiceProps) (v : Voice) : Prop :=
  Restored v (run (session p) v [.toggleDeafen true, .toggleDeafen true])

/-- The user is muted exactly when he is deafened, and the microphone and all tracks are as the one
flag says. -/
def Settled (v : Voice) : Prop :=
  v.isMuted = v.isDeafened ∧ ∀ r, v.room = some r →
    r.isMicrophoneEnabled = !v.isDeafened ∧ ∀ t ∈ r.tracks, t.enabled = !v.isDeafened

/-- Inputs that leave a settled state settled. -/
def Settles (v : Voice) : SessionInput → Prop
  | .toggleMute _ => False
  | .toggleDeafen ok => ok = true
  -- a new track is enabled
  | .participant (.trackSubscribed identity _) => v.isDeafened = true →
      ∀ r, v.room = some r → ∀ q ∈ r.remoteParticipants, q.identity ≠ identity
  | .participant _ => True

variable {p : VoiceProps} {v v' : Voice} {i : SessionInput} {r : VoiceRoom} {ok : Bool}

/-! ### What a toggle does -/

theorem service_render : (v.render p).2.service = v.service := by
  have heffect : ∀ v : Voice, (v.runEffect p).service = v.service := by
    intro v
    unfold runEffect
    split
    · unfold connect
      split <;> rfl
    · rfl
  unfold render
  dsimp only
  split
  · rfl
  · exact heffect _

theorem flags_render : (v.render p).2.isMuted = v.isMuted ∧
    (v.render p).2.isDeafened = v.isDeafened ∧
    (v.render p).2.rendered.isMuted = v.isMuted ∧
    (v.render p).2.rendered.isDeafened = v.isDeafened := by
  have heffect : ∀ v : Voice, (v.runEffect p).isMuted = v.isMuted ∧
      (v.runEffect p).isDeafened = v.isDeafened ∧ (v.runEffect p).rendered = v.rendered := by
    intro v
    unfold runEffect
    split
    · unfold connect
      split <;> exact ⟨rfl, rfl, rfl⟩
    · exact ⟨rfl, rfl, rfl⟩
  unfold render
  dsimp only
  split
  · exact ⟨rfl, rfl, rfl, rfl⟩
  · obtain ⟨hmuted, hdeafened, hrendered⟩ := heffect _
    rw [hmuted, hdeafened, hrendered]
    exact ⟨rfl, rfl, rfl, rfl⟩

theorem current_onRoom (l : LiveKitService) (f : VoiceRoom → VoiceRoom) :
    (l.onRoom f).current = l.current.map f := by
  unfold LiveKitService.current
  rw [room_onRoom]
  cases hroom : l.room with
  | none => rfl
  | some n =>
    rw [Option.bind_some, Option.bind_some, getElem?_onRoom, hroom]
    simp

/-- A toggle of the microphone. -/
theorem session_toggleMute :
    (session p v (.toggleMute ok)).2.room = v.room.map (·.setMicrophoneEnabled v.isMuted ok) ∧
      (session p v (.toggleMute ok)).2.isMuted = (!v.isMuted) ∧
      (session p v (.toggleMute ok)).2.isDeafened = v.isDeafened := by
  obtain ⟨hmuted, hdeafened, hrenderedMuted, -⟩ := flags_render (p := p) (v := v)
  refine ⟨?_, congrArg (!·) hrenderedMuted, hdeafened⟩
  show ((v.render p).2.service.setMicEnabled (!(!(v.render p).2.rendered.isMuted)) ok).current = _
  rw [service_render, hrenderedMuted, Bool.not_not]
  exact current_onRoom _ _

/-- A toggle of the deafness sets everything. -/
theorem session_toggleDeafen :
    (session p v (.toggleDeafen ok)).2.room = v.room.map (fun r =>
        (r.setTracksEnabled v.isDeafened).setMicrophoneEnabled v.isDeafened ok) ∧
      (session p v (.toggleDeafen ok)).2.isMuted = (!v.isDeafened) ∧
      (session p v (.toggleDeafen ok)).2.isDeafened = (!v.isDeafened) := by
  obtain ⟨-, -, -, hrendered⟩ := flags_render (p := p) (v := v)
  refine ⟨?_, congrArg (!·) hrendered, congrArg (!·) hrendered⟩
  show (((v.render p).2.service.setDeafened (!(v.render p).2.rendered.isDeafened)).setMicEnabled
    (!(!(v.render p).2.rendered.isDeafened)) ok).current = _
  rw [service_render, hrendered, LiveKitService.setMicEnabled, LiveKitService.setDeafened,
    current_onRoom, current_onRoom, Bool.not_not, Option.map_map]
  rfl

theorem session_participant {e : ParticipantEvent} :
    (session p v (.participant e)).2.room =
        v.room.map (fun r => if r.isJoined then r.report e.event else r) ∧
      (session p v (.participant e)).2.isMuted = v.isMuted ∧
      (session p v (.participant e)).2.isDeafened = v.isDeafened := by
  obtain ⟨hmuted, hdeafened, -, -⟩ := flags_render (p := p) (v := v)
  simp only [session, service_render]
  cases hroom : v.service.room with
  | none => exact ⟨by simp [room, LiveKitService.current, service_render, hroom], hmuted, hdeafened⟩
  | some n =>
    refine ⟨?_, roomEvent_flags.1.trans hmuted, roomEvent_flags.2.trans hdeafened⟩
    have hservice : (v.render p).2.service.room = some n := by rw [service_render, hroom]
    have hsame : ((v.render p).2.roomEvent n e.event).service.room = some n := by
      cases e <;> exact hservice
    simp only [room, LiveKitService.current, hsame, hroom, Option.bind_some]
    rw [roomEvent_rooms, service_render]
    simp

/-! ### What a session preserves -/

theorem isJoined_report {e : ParticipantEvent} (h : r.isJoined = true) :
    (r.report e.event).isJoined = true := by
  cases e <;> exact h

theorem InSession.next (h : InSession v) (i : SessionInput) : InSession (session p v i).2 := by
  obtain ⟨r, hr, hjoined⟩ := h
  cases i with
  | toggleMute ok =>
    refine ⟨_, by rw [session_toggleMute.1, hr, Option.map_some], ?_⟩
    exact isJoined_setMicrophoneEnabled.trans hjoined
  | toggleDeafen ok =>
    refine ⟨_, by rw [session_toggleDeafen.1, hr, Option.map_some], ?_⟩
    exact isJoined_setMicrophoneEnabled.trans hjoined
  | participant e =>
    refine ⟨_, by rw [session_participant.1, hr, Option.map_some], ?_⟩
    rw [if_pos hjoined]
    exact isJoined_report hjoined

/-- All tracks are as `b` says exactly when setting them so changes nothing. -/
theorem map_enabled_iff {tracks : List AudioTrack} {b : Bool} :
    tracks.map ({ · with enabled := b }) = tracks ↔ ∀ t ∈ tracks, t.enabled = b := by
  induction tracks with
  | nil => simp
  | cons t tracks ih =>
    rw [List.map_cons, List.cons.injEq, ih, List.forall_mem_cons]
    refine and_congr_left fun _ => ?_
    constructor
    · exact fun ht => (congrArg AudioTrack.enabled ht).symm
    · rintro rfl
      rfl

/-- A room after two toggles. -/
theorem toggledTwice (hjoined : r.isJoined = true) (b : Bool) :
    let r' := (((r.setTracksEnabled (!b)).setMicrophoneEnabled (!b) true).setTracksEnabled
      b).setMicrophoneEnabled b true
    r'.isMicrophoneEnabled = b ∧ r'.tracks = r.tracks.map ({ · with enabled := b }) := by
  intro r'
  constructor
  · refine (mic_setMicrophoneEnabled ?_).trans (if_pos rfl)
    exact isJoined_setMicrophoneEnabled.trans hjoined
  · simp only [r', tracks_setMicrophoneEnabled, tracks_setTracksEnabled, List.map_map]
    rfl

theorem cancels_iff (h : InSession v) : Cancels p v ↔ Settled v := by
  obtain ⟨r, hr, hjoined⟩ := h
  obtain ⟨hroom₁, -, hdeafened₁⟩ := @session_toggleDeafen p v true
  obtain ⟨hroom₂, hmuted₂, hdeafened₂⟩ :=
    @session_toggleDeafen p (session p v (.toggleDeafen true)).2 true
  rw [hroom₁, hdeafened₁, hr, Option.map_some, Option.map_some] at hroom₂
  rw [hdeafened₁, Bool.not_not] at hmuted₂ hdeafened₂
  obtain ⟨hmic, htracks⟩ := toggledTwice hjoined (!v.isDeafened)
  rw [Bool.not_not] at hmic htracks
  have hsettled : Settled v ↔ v.isMuted = v.isDeafened ∧
      r.isMicrophoneEnabled = !v.isDeafened ∧ ∀ t ∈ r.tracks, t.enabled = !v.isDeafened := by
    simp [Settled, hr]
  rw [hsettled, ← map_enabled_iff]
  constructor
  · intro hrestored
    refine ⟨hrestored.isMuted.symm.trans hmuted₂, ?_, ?_⟩
    · have hsame := (congrArg _ hroom₂).symm.trans hrestored.mic
      rw [hr, Option.map_some, Option.map_some, hmic] at hsame
      exact (Option.some.inj hsame).symm
    · have hsame := (congrArg _ hroom₂).symm.trans hrestored.tracks
      rw [hr, Option.map_some, Option.map_some, htracks] at hsame
      exact Option.some.inj hsame
  · rintro ⟨hflags, hmicBefore, htracksBefore⟩
    refine ⟨hmuted₂.trans hflags.symm, hdeafened₂, ?_, ?_⟩
    · refine (congrArg _ hroom₂).trans ?_
      rw [hr, Option.map_some, Option.map_some, hmic, hmicBefore]
    · refine (congrArg _ hroom₂).trans ?_
      rw [hr, Option.map_some, Option.map_some, htracks, htracksBefore]

/-! ### Runs -/

theorem settled_iff (hr : v.room = some r) : Settled v ↔ v.isMuted = v.isDeafened ∧
    r.isMicrophoneEnabled = !v.isDeafened ∧ ∀ t ∈ r.tracks, t.enabled = !v.isDeafened := by
  simp [Settled, hr]

theorem toggleDeafen_settles_iff (hr : v.room = some r) (hjoined : r.isJoined = true)
    (h : Settled v) : Settled (session p v (.toggleDeafen ok)).2 ↔ ok = true := by
  obtain ⟨hroom, hmuted, hdeafened⟩ := @session_toggleDeafen p v ok
  rw [hr, Option.map_some] at hroom
  have hjoined' : (r.setTracksEnabled v.isDeafened).isJoined = true := hjoined
  have hmic : (r.setTracksEnabled v.isDeafened).isMicrophoneEnabled = !v.isDeafened :=
    ((settled_iff hr).mp h).2.1
  rw [settled_iff hroom, hmuted, hdeafened, mic_setMicrophoneEnabled hjoined', hmic,
    tracks_setMicrophoneEnabled, tracks_setTracksEnabled, Bool.not_not, and_iff_right rfl,
    and_iff_left]
  · cases ok <;> cases v.isDeafened <;> decide
  · intro t ht
    obtain ⟨t, -, rfl⟩ := List.mem_map.mp ht
    rfl

theorem participant_settles_iff (hr : v.room = some r) (hjoined : r.isJoined = true)
    (h : Settled v) {e : ParticipantEvent} :
    Settled (session p v (.participant e)).2 ↔ Settles v (.participant e) := by
  obtain ⟨hflags, hmic, htracks⟩ := (settled_iff hr).mp h
  obtain ⟨hroom, hmuted, hdeafened⟩ := session_participant (p := p) (v := v) (e := e)
  rw [hr, Option.map_some, if_pos hjoined] at hroom
  rw [settled_iff hroom, hmuted, hdeafened, mic_report (isJoined_report hjoined),
    and_iff_right hflags, and_iff_right hmic]
  have hold : (∀ identity sid, e = .trackSubscribed identity sid → v.isDeafened = true →
      ∀ q ∈ r.remoteParticipants, q.identity ≠ identity) →
        ∀ t ∈ (r.report e.event).tracks, t.enabled = !v.isDeafened := by
    intro hnew t ht
    rcases mem_tracks_report ht with hbefore | ⟨identity, sid, he, rfl, q, hq, hidentity⟩
    · exact htracks t hbefore
    · cases hdeaf : v.isDeafened with
      | false => rfl
      | true =>
        obtain rfl : e = .trackSubscribed identity sid := by
          cases e <;> simp_all [ParticipantEvent.event]
        exact absurd hidentity (hnew identity sid rfl hdeaf q hq)
  cases e with
  | trackSubscribed identity sid =>
    constructor
    · intro hafter hdeaf r' hr' q hq hidentity
      obtain rfl := Option.some.inj (hr.symm.trans hr')
      have henabled := hafter _ (mem_tracks_subscribed hq hidentity)
      rw [hdeaf] at henabled
      exact nomatch henabled
    · intro hnew
      refine hold ?_
      rintro _ _ ⟨rfl, rfl⟩ hdeaf
      exact hnew hdeaf r hr
  | _ => exact iff_of_true (hold (fun _ _ he => nomatch he)) trivial

theorem settled_next_iff (hsession : InSession v) (h : Settled v) (i : SessionInput) :
    Settled (session p v i).2 ↔ Settles v i := by
  obtain ⟨r, hr, hjoined⟩ := hsession
  cases i with
  | toggleMute ok =>
    refine iff_of_false (fun hafter => ?_) id
    have hmuted := hafter.1
    rw [session_toggleMute.2.1, session_toggleMute.2.2, h.1] at hmuted
    exact Bool.not_ne_self _ hmuted
  | toggleDeafen ok => exact toggleDeafen_settles_iff hr hjoined h
  | participant e => exact participant_settles_iff hr hjoined h

/-- In a session, whatever state it begins in, two toggles of the deafness cancel out in every state
if and only if it begins settled and every input settles. -/
theorem deafen_cancels_iff (p : VoiceProps) (v : Voice) (hsession : InSession v)
    (inputs : List SessionInput) :
    (Cancels p v ∧ Along (session p) (fun v i => Cancels p (session p v i).2) v inputs) ↔
      Settled v ∧ Along (session p) Settles v inputs := by
  rw [cancels_iff hsession]
  refine and_congr_right fun hsettled => ?_
  refine Along.congr_invariant (P := fun _ _ => True) (I := fun v => InSession v ∧ Settled v)
    (along_of_forall (fun _ _ => trivial) _ _) ?_ ?_ ⟨hsession, hsettled⟩
  · intro v i h _
    rw [cancels_iff (h.1.next i)]
    exact settled_next_iff h.1 h.2 i
  · intro v i h _ hcancels
    exact ⟨h.1.next i, (cancels_iff (h.1.next i)).mp hcancels⟩

def general : VoiceProps := ⟨"general", false⟩

/-- A user joins a room that Bob talks in. Another component listens to the service, so that no
render sees the room connect. -/
def joinedRun : List VoiceInput :=
  [.overtaken, .connect, .answered 0 (.ok true), .render, .joined 0 ["bob"], .enabled 0 (.ok ()),
    .roomEvent 0 (.trackSubscribed "bob" "TR_bob"), .render]

def joinedVoice : Voice :=
  run (step general) (mount general ⟨[], none⟩) joinedRun

theorem joinedVoice_cancels :
    Cancels general joinedVoice ∧
      Along (session general) (fun v i => Cancels general (session general v i).2) joinedVoice
        [.toggleDeafen true, .participant (.disconnected "bob"), .toggleDeafen true] := by
  have hroom : joinedVoice.room = some ⟨.connected, true, [⟨"bob", [⟨"TR_bob", true⟩]⟩]⟩ := by
    decide +kernel
  refine (deafen_cancels_iff _ _ ⟨_, hroom, rfl⟩ _).mpr ⟨(settled_iff hroom).mpr ?_, ?_⟩
  · decide +kernel
  · exact ⟨rfl, trivial, rfl, trivial⟩

/-- A user who has muted himself is heard after he has deafened himself and stopped it again. -/
theorem muted_user_heard :
    let v := run (step general) joinedVoice [.toggleMute true, .render]
    let v' := run (session general) v [.toggleDeafen true, .toggleDeafen true]
    (v.isMuted = true ∧ v.room.map (·.isMicrophoneEnabled) = some false) ∧
      (v'.isMuted = false ∧ v'.room.map (·.isMicrophoneEnabled) = some true) ∧
      ¬Cancels general v := by
  refine ⟨by decide +kernel, by decide +kernel, fun h => ?_⟩
  exact absurd h.isMuted (by decide +kernel)

end Voice

end Client

end VoxLink
