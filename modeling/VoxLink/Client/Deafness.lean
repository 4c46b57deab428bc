import VoxLink.Client.Voice

/-! Whoever is deafened hears nothing, and whoever is muted is not heard. The flags of the hook and
those of the tracks come apart where a track is subscribed while the user is deafened, in a room
that was just joined until its microphone is on, where it comes on while the user is muted, where
the microphone fails, and in a room that the service has lost its reference to. -/

namespace VoxLink

open ProofKit

namespace Client.Voice

variable {p : VoiceProps} {v v' : Voice} {i : VoiceInput} {n k : Nat} {r : VoiceRoom}
  {muted deafened next ok : Bool}

/-- What the flags of the hook say of a room that is joined: nothing is heard of it when the user
is deafened, and the microphone is disabled exactly when the user is muted. -/
structure Heeds (muted deafened : Bool) (r : VoiceRoom) : Prop where
  silent : deafened = true → ∀ t ∈ r.tracks, t.enabled = false
  mic : muted = true ↔ r.isMicrophoneEnabled = false

/-- Room `n` is joined. -/
def HasJoined (v : Voice) (n : Nat) (r : VoiceRoom) : Prop :=
  v.service.rooms[n]? = some r ∧ r.isJoined = true

/-- All rooms that are joined are as the flags say. -/
def Heeded (v : Voice) : Prop := ∀ n r, v.HasJoined n r → Heeds v.isMuted v.isDeafened r

/-! ### When an input keeps it -/

/-- The microphones follow a change of `isMuted` to `next`: there is no change, or each room that is
joined is the service's, and its microphone does not fail. -/
def MicFollows (v : Voice) (next ok : Bool) : Prop :=
  ∀ n r, v.HasJoined n r → next = v.isMuted ∨ v.service.room = some n ∧ ok = true

/-- The tracks follow a change of `isDeafened` to `next`: each room that is joined is the service's,
or its tracks are disabled. -/
def TracksFollow (v : Voice) (next : Bool) : Prop :=
  ∀ n r, v.HasJoined n r → next = true →
    v.service.room = some n ∨ ∀ t ∈ r.tracks, t.enabled = false

/-- Where the input leaves the rooms as the flags say. -/
def Follows (v : Voice) : VoiceInput → Prop
  | .toggleMute ok => v.MicFollows (!v.rendered.isMuted) ok
  | .toggleDeafen ok =>
    v.MicFollows (!v.rendered.isDeafened) ok ∧ v.TracksFollow (!v.rendered.isDeafened)
  -- the end of `disconnect` says that the user is not muted
  | .left k => ∀ room, v.tasks[k]? = some (.leaving room) →
      ∀ n r, v.HasJoined n r → room ≠ some n → v.isMuted = false
  -- the microphone of a room is off when it has just been joined
  | .joined k _ => ∀ n, v.tasks[k]? = some (.joining n) →
      v.service.rooms[n]?.map VoiceRoom.state = some .connecting → v.isMuted = true
  | .enabled k mic => ∀ n r, v.tasks[k]? = some (.enabling n) → v.HasJoined n r →
      v.isMuted = true → mic.isOk = false
  -- a new track is enabled
  | .roomEvent n (.trackSubscribed identity _) => ∀ r, v.HasJoined n r → v.isDeafened = true →
      ∀ q ∈ r.remoteParticipants, q.identity ≠ identity
  | _ => True

/-! ### Rooms -/

theorem getElem?_modifyRoom (l : LiveKitService) (n m : Nat) (f : VoiceRoom → VoiceRoom) :
    (l.modifyRoom n f).rooms[m]? = l.rooms[m]?.map fun r => if n = m then f r else r := by
  rw [LiveKitService.modifyRoom, List.getElem?_modify]
  rfl

theorem getElem?_onRoom (l : LiveKitService) (m : Nat) (f : VoiceRoom → VoiceRoom) :
    (l.onRoom f).rooms[m]? = l.rooms[m]?.map fun r => if l.room = some m then f r else r := by
  unfold LiveKitService.onRoom
  cases hroom : l.room with
  | none => simp
  | some n => simp [getElem?_modifyRoom]

theorem room_onRoom (l : LiveKitService) (f : VoiceRoom → VoiceRoom) :
    (l.onRoom f).room = l.room := by
  unfold LiveKitService.onRoom
  cases hroom : l.room with
  | none => exact hroom
  | some n => exact hroom

/-- A change of the rooms that leaves those joined that are. -/
theorem heeded_map_iff {g : Nat → VoiceRoom → VoiceRoom}
    (hrooms : ∀ m, v'.service.rooms[m]? = v.service.rooms[m]?.map (g m))
    (hjoined : ∀ m r, (g m r).isJoined = r.isJoined) :
    Heeded v' ↔ ∀ m r, v.HasJoined m r → Heeds v'.isMuted v'.isDeafened (g m r) := by
  constructor
  · intro h m r hr
    refine h m (g m r) ⟨?_, (hjoined m r).trans hr.2⟩
    rw [hrooms, hr.1]
    rfl
  · rintro h m r' ⟨hr', hr'joined⟩
    rw [hrooms] at hr'
    obtain ⟨r, hr, rfl⟩ := Option.map_eq_some_iff.mp hr'
    exact h m r ⟨hr, (hjoined m r).symm.trans hr'joined⟩

/-- A change after which no other room is joined. -/
theorem Heeded.of_fewer (h : Heeded v) (hmuted : v'.isMuted = v.isMuted)
    (hdeafened : v'.isDeafened = v.isDeafened)
    (hrooms : ∀ m r, v'.HasJoined m r → v.HasJoined m r) : Heeded v' := by
  intro m r hr
  rw [hmuted, hdeafened]
  exact h m r (hrooms m r hr)

theorem Heeded.of_same (h : Heeded v) (hmuted : v'.isMuted = v.isMuted)
    (hdeafened : v'.isDeafened = v.isDeafened) (hrooms : v'.service.rooms = v.service.rooms) :
    Heeded v' := by
  refine h.of_fewer hmuted hdeafened fun m r hr => ?_
  rw [HasJoined, hrooms] at hr
  exact hr

/-! ### The microphone and the tracks of one room -/

theorem isJoined_setMicrophoneEnabled :
    (r.setMicrophoneEnabled next ok).isJoined = r.isJoined := by
  unfold VoiceRoom.setMicrophoneEnabled
  split <;> rfl

theorem tracks_setMicrophoneEnabled : (r.setMicrophoneEnabled next ok).tracks = r.tracks := by
  unfold VoiceRoom.setMicrophoneEnabled
  split <;> rfl

theorem mic_setMicrophoneEnabled (hr : r.isJoined = true) :
    (r.setMicrophoneEnabled next ok).isMicrophoneEnabled =
      if ok then next else r.isMicrophoneEnabled := by
  unfold VoiceRoom.setMicrophoneEnabled
  cases ok <;> simp [hr]

theorem tracks_setTracksEnabled :
    (r.setTracksEnabled next).tracks = r.tracks.map ({ · with enabled := next }) := by
  simp [VoiceRoom.setTracksEnabled, VoiceRoom.tracks, List.flatMap_map, List.map_flatMap]

theorem heeds_iff : Heeds muted deafened r ↔
    (deafened = true → ∀ t ∈ r.tracks, t.enabled = false) ∧ r.isMicrophoneEnabled = !muted := by
  constructor
  · rintro ⟨hsilent, hmic⟩
    refine ⟨hsilent, ?_⟩
    cases muted <;> cases hr : r.isMicrophoneEnabled <;> simp_all
  · rintro ⟨hsilent, hmic⟩
    refine ⟨hsilent, ?_⟩
    rw [hmic]
    cases muted <;> simp

theorem heeds_mic_iff (hr : r.isJoined = true) (h : Heeds muted deafened r) :
    Heeds next deafened (r.setMicrophoneEnabled (!next) ok) ↔ next = muted ∨ ok = true := by
  rw [heeds_iff] at h ⊢
  rw [tracks_setMicrophoneEnabled, mic_setMicrophoneEnabled hr, h.2, and_iff_right h.1]
  cases next <;> cases muted <;> cases ok <;> decide

theorem heeds_change_iff (h : Heeds muted deafened r) :
    Heeds next deafened r ↔ next = muted := by
  rw [heeds_iff] at h ⊢
  rw [h.2, and_iff_right h.1]
  cases next <;> cases muted <;> decide

/-! ### The toggles -/

theorem toggleMute_iff (h : Heeded v) :
    Heeded (v.toggleMute ok) ↔ Follows v (.toggleMute ok) := by
  rw [heeded_map_iff (v := v) (fun m => getElem?_onRoom v.service m _)]
  · refine forall₃_congr fun m r hr => ?_
    have hheeds := h m r hr
    show Heeds (!v.rendered.isMuted) v.isDeafened _ ↔ _
    split
    · rename_i hroom
      rw [heeds_mic_iff hr.2 hheeds]
      simp [hroom]
    · rename_i hroom
      rw [heeds_change_iff hheeds]
      simp [hroom]
  · intro m r
    split
    · exact isJoined_setMicrophoneEnabled
    · rfl

theorem heeds_deafen_iff (hr : r.isJoined = true) (h : Heeds muted deafened r) :
    Heeds next next ((r.setTracksEnabled (!next)).setMicrophoneEnabled (!next) ok) ↔
      next = muted ∨ ok = true := by
  have hr' : (r.setTracksEnabled (!next)).isJoined = true := hr
  rw [← heeds_mic_iff hr h, heeds_iff, heeds_iff, tracks_setMicrophoneEnabled,
    tracks_setMicrophoneEnabled, mic_setMicrophoneEnabled hr, mic_setMicrophoneEnabled hr',
    and_iff_right h.silent, tracks_setTracksEnabled]
  refine and_iff_right fun hnext t ht => ?_
  obtain ⟨t, -, rfl⟩ := List.mem_map.mp ht
  rw [hnext]
  rfl

theorem toggleDeafen_iff (h : Heeded v) :
    Heeded (v.toggleDeafen ok) ↔ Follows v (.toggleDeafen ok) := by
  have hrooms : ∀ m, (v.toggleDeafen ok).service.rooms[m]? = v.service.rooms[m]?.map fun r =>
      if v.service.room = some m then
        (r.setTracksEnabled !(!v.rendered.isDeafened)).setMicrophoneEnabled
          (!(!v.rendered.isDeafened)) ok
      else r := by
    intro m
    simp only [toggleDeafen, LiveKitService.setMicEnabled, LiveKitService.setDeafened,
      getElem?_onRoom, room_onRoom, Option.map_map]
    congr 1
    funext r
    by_cases hroom : v.service.room = some m <;> simp [hroom]
  have hfollows : Follows v (.toggleDeafen ok) ↔ ∀ m r, v.HasJoined m r →
      ((!v.rendered.isDeafened) = v.isMuted ∨ v.service.room = some m ∧ ok = true) ∧
        ((!v.rendered.isDeafened) = true →
          v.service.room = some m ∨ ∀ t ∈ r.tracks, t.enabled = false) := by
    constructor
    · exact fun ⟨hmic, htracks⟩ m r hr => ⟨hmic m r hr, htracks m r hr⟩
    · exact fun hboth => ⟨fun m r hr => (hboth m r hr).1, fun m r hr => (hboth m r hr).2⟩
  rw [heeded_map_iff hrooms, hfollows]
  · refine forall₃_congr fun m r hr => ?_
    have hheeds := h m r hr
    show Heeds (!v.rendered.isDeafened) (!v.rendered.isDeafened) _ ↔ _
    split
    · rename_i hroom
      rw [heeds_deafen_iff hr.2 hheeds]
      simp [hroom]
    · rename_i hroom
      rw [heeds_iff] at hheeds ⊢
      rw [hheeds.2]
      simp only [hroom, false_and, or_false, false_or]
      generalize (!v.rendered.isDeafened) = next
      cases next <;> cases v.isMuted <;> simp
  · intro m r
    split
    · exact isJoined_setMicrophoneEnabled
    · rfl

/-! ### The calls under way -/

theorem hasJoined_closeRoom {m : Nat} :
    (v.closeRoom n).HasJoined m r ↔ v.HasJoined m r ∧ n ≠ m := by
  simp only [HasJoined, closeRoom, getElem?_modifyRoom]
  by_cases hnm : n = m
  · refine iff_of_false ?_ fun h => h.2 hnm
    rintro ⟨hr, hjoined⟩
    obtain ⟨_, -, rfl⟩ := Option.map_eq_some_iff.mp hr
    rw [if_pos hnm] at hjoined
    exact nomatch hjoined
  · simp [hnm]

theorem hasJoined_join {m : Nat} (h : (v.join k).HasJoined m r) : v.HasJoined m r := by
  obtain ⟨hr, hjoined⟩ := h
  have hr : (v.service.rooms ++ [VoiceRoom.joining])[m]? = some r := hr
  by_cases hlt : m < v.service.rooms.length
  · rw [List.getElem?_append_left hlt] at hr
    exact ⟨hr, hjoined⟩
  · rw [List.getElem?_append_right (by omega)] at hr
    obtain rfl := List.mem_singleton.mp (List.mem_of_getElem? hr)
    exact nomatch hjoined

theorem Heeded.closeRoom (h : Heeded v) (n : Nat) : Heeded (v.closeRoom n) :=
  h.of_fewer rfl rfl fun _ _ hr => (hasJoined_closeRoom.mp hr).1

theorem Heeded.join (h : Heeded v) (k : Nat) : Heeded (v.join k) :=
  h.of_fewer rfl rfl fun _ _ => hasJoined_join

theorem Heeded.answered (h : Heeded v) (k : Nat) (answer : Except (Option String) Bool) :
    Heeded (v.answered k answer) := by
  unfold Voice.answered
  split
  · split
    · exact h.of_same rfl rfl rfl
    · exact h.of_same rfl rfl rfl
    · split
      · exact h.of_same rfl rfl rfl
      · exact h.join k
  · exact h

theorem Heeded.refused (h : Heeded v) (k : Nat) (message : Option String) :
    Heeded (v.refused k message) := by
  unfold Voice.refused
  split
  · exact (h.closeRoom _).of_same rfl rfl rfl
  · exact h

theorem hasJoined_leave {room : Option Nat} {m : Nat} :
    (v.leave room).HasJoined m r ↔ v.HasJoined m r ∧ room ≠ some m := by
  cases room with
  | none => exact (and_iff_left nofun).symm
  | some n =>
    rw [Ne, Option.some_inj]
    exact hasJoined_closeRoom

theorem left_iff (h : Heeded v) : Heeded (v.left k) ↔ Follows v (.left k) := by
  unfold Voice.left
  split
  · rename_i n htask
    refine iff_of_true ((h.closeRoom n).join k) ?_
    intro room hroom
    rw [htask] at hroom
    exact nomatch hroom
  · rename_i room htask
    have hfollows : Follows v (.left k) ↔
        ∀ m r, v.HasJoined m r → room ≠ some m → v.isMuted = false := by
      simp [Follows, htask]
    have hheeded : Heeded ((v.leave room).setTask k .done) ↔
        ∀ m r, v.HasJoined m r → room ≠ some m → Heeds false false r := by
      constructor
      · exact fun hleft m r hr hroom => hleft m r (hasJoined_leave.mpr ⟨hr, hroom⟩)
      · intro hleft m r hr
        obtain ⟨hr, hroom⟩ := hasJoined_leave.mp hr
        exact hleft m r hr hroom
    rw [hheeded, hfollows]
    refine forall₄_congr fun m r hr _ => ?_
    have hheeds := h m r hr
    rw [heeds_iff] at hheeds ⊢
    rw [hheeds.2]
    cases v.isMuted <;> simp
  · rename_i hnone
    refine iff_of_true h fun room htask => ?_
    exact absurd htask (hnone room)

theorem heeds_newRoom_iff {present : List String} :
    Heeds muted deafened (newRoom present) ↔ muted = true := by
  have htracks : (newRoom present).tracks = [] := by
    simp [newRoom, VoiceRoom.tracks, List.flatMap_eq_nil_iff]
  rw [heeds_iff, htracks, and_iff_right (by simp)]
  show false = !muted ↔ _
  cases muted <;> decide

theorem joined_flags {present : List String} : (v.joined k present).isMuted = v.isMuted ∧
    (v.joined k present).isDeafened = v.isDeafened := by
  unfold joined
  split
  · split
    · dsimp only
      split <;> exact ⟨rfl, rfl⟩
    · exact ⟨rfl, rfl⟩
  · exact ⟨rfl, rfl⟩

/-- The rooms after the call has joined its room. -/
theorem joined_rooms (present : List String) (htask : v.tasks[k]? = some (.joining n))
    (hstate : v.service.rooms[n]?.map VoiceRoom.state = some .connecting) (m : Nat) :
    (v.joined k present).service.rooms[m]? =
      v.service.rooms[m]?.map fun r => if n = m then newRoom present else r := by
  have hafter : (v.joined k present).service = v.service.modifyRoom n fun _ => newRoom present := by
    simp only [joined, htask, if_pos hstate]
    split <;> rfl
  rw [hafter, getElem?_modifyRoom]

theorem joined_iff {present : List String} (h : Heeded v) :
    Heeded (v.joined k present) ↔ Follows v (.joined k present) := by
  by_cases hjoins : ∃ n, v.tasks[k]? = some (.joining n) ∧
      v.service.rooms[n]?.map VoiceRoom.state = some .connecting
  · obtain ⟨n, htask, hstate⟩ := hjoins
    have hrooms := joined_rooms present htask hstate
    obtain ⟨r₀, hr₀, -⟩ := Option.map_eq_some_iff.mp hstate
    have hfollows : Follows v (.joined k present) ↔ v.isMuted = true := by
      exact ⟨fun hall => hall n htask hstate, fun hmuted _ _ _ => hmuted⟩
    rw [Heeded, joined_flags.1, joined_flags.2, hfollows]
    constructor
    · intro hall
      refine heeds_newRoom_iff.mp (hall n (newRoom present) ⟨?_, rfl⟩)
      rw [hrooms, hr₀, Option.map_some, if_pos rfl]
    · rintro hmuted m r' ⟨hr', hjoined⟩
      rw [hrooms] at hr'
      obtain ⟨r, hr, rfl⟩ := Option.map_eq_some_iff.mp hr'
      split at hjoined
      · rw [if_pos ‹_›]
        exact heeds_newRoom_iff.mpr hmuted
      · rw [if_neg ‹_›]
        exact h m r ⟨hr, hjoined⟩
  · refine iff_of_true ?_ fun n htask hstate => absurd ⟨n, htask, hstate⟩ hjoins
    have hsame : v.joined k present = v := by
      unfold joined
      split
      · rename_i n htask
        exact if_neg fun hstate => hjoins ⟨n, htask, hstate⟩
      · rfl
    rwa [hsame]

/-- A microphone that is enabled once more. -/
theorem heeds_enable_iff (hr : r.isJoined = true) (h : Heeds muted deafened r) :
    Heeds muted deafened (r.setMicrophoneEnabled true ok) ↔ (muted = true → ok = false) := by
  rw [heeds_iff] at h ⊢
  rw [tracks_setMicrophoneEnabled, mic_setMicrophoneEnabled hr, h.2, and_iff_right h.1]
  cases muted <;> cases ok <;> decide

theorem enabled_iff {mic : Except (Option String) Unit} (h : Heeded v) :
    Heeded (v.enabled k mic) ↔ Follows v (.enabled k mic) := by
  by_cases hasks : ∃ n, v.tasks[k]? = some (.enabling n)
  · obtain ⟨n, htask⟩ := hasks
    have hafter : (v.enabled k mic).isMuted = v.isMuted ∧
        (v.enabled k mic).isDeafened = v.isDeafened ∧ (v.enabled k mic).service =
          v.service.modifyRoom n (·.setMicrophoneEnabled true mic.isOk) := by
      simp only [enabled, htask]
      cases mic <;> exact ⟨rfl, rfl, rfl⟩
    have hfollows : Follows v (.enabled k mic) ↔
        ∀ r, v.HasJoined n r → v.isMuted = true → mic.isOk = false := by
      refine ⟨fun hall r => hall n r htask, fun hmic n' r htask' => ?_⟩
      obtain ⟨rfl⟩ := Option.some.inj (htask.symm.trans htask')
      exact hmic r
    rw [heeded_map_iff (v := v) fun m => by rw [hafter.2.2, getElem?_modifyRoom], hafter.1,
      hafter.2.1, hfollows]
    · constructor
      · intro hall r hr
        have hheeds := hall n r hr
        rw [if_pos rfl] at hheeds
        exact (heeds_enable_iff hr.2 (h n r hr)).mp hheeds
      · intro hmic m r hr
        split
        · rename_i hnm
          subst hnm
          exact (heeds_enable_iff hr.2 (h n r hr)).mpr (hmic r hr)
        · exact h m r hr
    · intro m r
      split
      · exact isJoined_setMicrophoneEnabled
      · rfl
  · refine iff_of_true ?_ fun n r htask => absurd ⟨n, htask⟩ hasks
    have hsame : v.enabled k mic = v := by
      unfold enabled
      split
      · exact absurd ⟨_, ‹_›⟩ hasks
      · rfl
    rwa [hsame]

/-! ### Reports of a room -/

theorem roomEvent_flags {e : RoomEvent} : (v.roomEvent n e).isMuted = v.isMuted ∧
    (v.roomEvent n e).isDeafened = v.isDeafened := by
  cases e <;> exact ⟨rfl, rfl⟩

theorem roomEvent_rooms {e : RoomEvent} (m : Nat) :
    (v.roomEvent n e).service.rooms[m]? = v.service.rooms[m]?.map fun r =>
      if n = m then if r.isJoined then r.report e else r else r := by
  have hservice : (v.roomEvent n e).service =
      v.service.modifyRoom n fun r => if r.isJoined then r.report e else r := by
    cases e <;> rfl
  rw [hservice, getElem?_modifyRoom]

/-- A report brings no track but a new one of a participant who is there. -/
theorem mem_tracks_report {e : RoomEvent} {t : AudioTrack} (hafter : t ∈ (r.report e).tracks) :
    t ∈ r.tracks ∨ ∃ identity sid, e = .trackSubscribed identity sid ∧ t = ⟨sid, true⟩ ∧
      ∃ q ∈ r.remoteParticipants, q.identity = identity := by
  obtain ⟨q', hq', ht⟩ := List.mem_flatMap.mp hafter
  clear hafter
  have hold : ∀ q ∈ r.remoteParticipants, t ∈ q.audioTracks → t ∈ r.tracks :=
    fun q hq ht => List.mem_flatMap.mpr ⟨q, hq, ht⟩
  cases e with
  | connectionStateChanged state =>
    cases state with
    | disconnected => exact nomatch hq'
    | _ => exact .inl (hold q' hq' ht)
  | participantConnected identity =>
    rcases List.mem_append.mp hq' with hq' | hq'
    · exact .inl (hold q' hq' ht)
    · obtain rfl := List.mem_singleton.mp hq'
      exact nomatch ht
  | participantDisconnected identity => exact .inl (hold q' (List.mem_of_mem_filter hq') ht)
  | trackSubscribed identity sid =>
    obtain ⟨q, hq, rfl⟩ := List.mem_map.mp hq'
    split_ifs at ht with hidentity
    · rcases List.mem_append.mp ht with ht | ht
      · exact .inl (hold q hq ht)
      · exact .inr ⟨identity, sid, rfl, List.mem_singleton.mp ht, q, hq, hidentity⟩
    · exact .inl (hold q hq ht)
  | trackUnsubscribed identity sid =>
    obtain ⟨q, hq, rfl⟩ := List.mem_map.mp hq'
    split_ifs at ht
    · exact .inl (hold q hq (List.mem_of_mem_filter ht))
    · exact .inl (hold q hq ht)

/-- The new track is enabled. -/
theorem mem_tracks_subscribed {identity sid : String} {q : RemoteParticipant}
    (hq : q ∈ r.remoteParticipants) (hidentity : q.identity = identity) :
    (⟨sid, true⟩ : AudioTrack) ∈ (r.report (.trackSubscribed identity sid)).tracks := by
  refine List.mem_flatMap.mpr ⟨_, List.mem_map_of_mem hq, ?_⟩
  rw [if_pos hidentity]
  simp

theorem mic_report {e : RoomEvent} (hjoined : (r.report e).isJoined = true) :
    (r.report e).isMicrophoneEnabled = r.isMicrophoneEnabled := by
  cases e with
  | connectionStateChanged state =>
    cases state with
    | disconnected => exact nomatch hjoined
    | _ => rfl
  | _ => rfl

theorem heeds_report {e : RoomEvent} (h : Heeds muted deafened r)
    (hnew : ∀ identity sid, e = .trackSubscribed identity sid → deafened = true →
      ∀ q ∈ r.remoteParticipants, q.identity ≠ identity)
    (hjoined : (r.report e).isJoined = true) : Heeds muted deafened (r.report e) := by
  constructor
  · intro hdeafened t ht
    rcases mem_tracks_report ht with hold | ⟨identity, sid, he, -, q, hq, hidentity⟩
    · exact h.silent hdeafened t hold
    · exact absurd hidentity (hnew identity sid he hdeafened q hq)
  · rw [mic_report hjoined]
    exact h.mic

/-- Whoever is deafened does not heed a room with a new track. -/
theorem not_heeds_subscribed {identity sid : String} {q : RemoteParticipant}
    (hq : q ∈ r.remoteParticipants) (hidentity : q.identity = identity) :
    ¬Heeds muted true (r.report (.trackSubscribed identity sid)) :=
  fun h => nomatch h.silent rfl _ (mem_tracks_subscribed hq hidentity)

theorem roomEvent_iff {e : RoomEvent} (h : Heeded v) :
    Heeded (v.roomEvent n e) ↔ Follows v (.roomEvent n e) := by
  have hkept : (∀ identity sid, e = .trackSubscribed identity sid → ∀ r, v.HasJoined n r →
      v.isDeafened = true → ∀ q ∈ r.remoteParticipants, q.identity ≠ identity) →
        Heeded (v.roomEvent n e) := by
    rintro hnew m r' ⟨hr', hjoined⟩
    rw [roomEvent_rooms] at hr'
    rw [roomEvent_flags.1, roomEvent_flags.2]
    obtain ⟨r, hr, rfl⟩ := Option.map_eq_some_iff.mp hr'
    by_cases hnm : n = m
    · subst hnm
      rw [if_pos rfl] at hjoined ⊢
      by_cases hrjoined : r.isJoined = true
      · rw [if_pos hrjoined] at hjoined ⊢
        refine heeds_report (h n r ⟨hr, hrjoined⟩) ?_ hjoined
        exact fun identity sid he => hnew identity sid he r ⟨hr, hrjoined⟩
      · rw [if_neg hrjoined] at hjoined
        exact absurd hjoined hrjoined
    · rw [if_neg hnm] at hjoined ⊢
      exact h m r ⟨hr, hjoined⟩
  cases e with
  | trackSubscribed identity sid =>
    constructor
    · intro hafter r hr hdeafened q hq hidentity
      have hheeds := hafter n (r.report (.trackSubscribed identity sid)) ⟨?_, hr.2⟩
      · rw [roomEvent_flags.2, hdeafened] at hheeds
        exact not_heeds_subscribed hq hidentity hheeds
      · rw [roomEvent_rooms, hr.1, Option.map_some, if_pos rfl, if_pos hr.2]
    · intro hnew
      refine hkept ?_
      rintro _ _ ⟨rfl, rfl⟩
      exact hnew
  | _ => exact iff_of_true (hkept nofun) trivial

/-! ### Runs -/

theorem Heeded.connect (h : Heeded v) : Heeded v.connect := by
  unfold Voice.connect
  split
  · exact h
  · exact h.of_same rfl rfl rfl

theorem Heeded.runEffect (h : Heeded v) : Heeded (v.runEffect p) := by
  unfold Voice.runEffect
  split
  · exact h.connect
  · exact h

theorem Heeded.render (h : Heeded v) : Heeded (v.render p).2 := by
  unfold Voice.render
  dsimp only
  split
  · exact h.of_same rfl rfl rfl
  · refine Heeded.runEffect ?_
    exact h.of_same rfl rfl rfl

theorem step_heeded_iff (h : Heeded v) : Heeded (v.step p i).2 ↔ Follows v i := by
  cases i with
  | render => exact iff_of_true h.render trivial
  | overtaken => exact iff_of_true (h.of_same rfl rfl rfl) trivial
  | connect => exact iff_of_true h.connect trivial
  | disconnect => exact iff_of_true (h.of_same rfl rfl rfl) trivial
  | toggleMute ok => exact toggleMute_iff h
  | toggleDeafen ok => exact toggleDeafen_iff h
  | answered k answer => exact iff_of_true (h.answered k answer) trivial
  | left k => exact left_iff h
  | joined k present => exact joined_iff h
  | enabled k mic => exact enabled_iff h
  | refused k message => exact iff_of_true (h.refused k message) trivial
  | roomEvent n e => exact roomEvent_iff h

theorem heeded_mount : Heeded (mount p ⟨[], none⟩) := by
  refine Heeded.runEffect ?_
  rintro m r ⟨hr, -⟩
  exact nomatch hr

/-- A user is deafened in a room, and then another participant's track is subscribed. Another
component listens to the service, so that no render sees the room connect. -/
def deafRun : List VoiceInput :=
  [.overtaken, .connect, .answered 0 (.ok true), .render, .joined 0 ["bob"],
    .enabled 0 (.ok ()), .render, .toggleDeafen true, .render,
    .roomEvent 0 (.trackSubscribed "bob" "TR_bob")]

end Client.Voice

end VoxLink
