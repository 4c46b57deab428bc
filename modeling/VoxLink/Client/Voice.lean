import VoxLink.ProofKit.Hooks

/-! `services/livekit.ts` and `hooks/usePeerConnection.ts`: the rooms of a voice channel and the
component that shows it. The list of participants and the screen share are left out, since nothing
else depends on them. -/

namespace VoxLink

open ProofKit

namespace Client

/-! ### `LiveKitService` -/

inductive ConnectionState where
  | disconnected
  | connecting
  | connected
  | reconnecting
  | signalReconnecting
deriving DecidableEq, Repr

/-- A subscribed audio track of a remote participant. -/
structure AudioTrack where
  sid : String
  enabled : Bool
deriving DecidableEq, Repr

structure RemoteParticipant where
  identity : String
  audioTracks : List AudioTrack
deriving DecidableEq, Repr

/-- A `Room` of the LiveKit client. -/
structure VoiceRoom where
  state : ConnectionState
  isMicrophoneEnabled : Bool
  remoteParticipants : List RemoteParticipant
deriving DecidableEq, Repr

namespace VoiceRoom

/-- A room that has been joined and not been left. -/
def isJoined (r : VoiceRoom) : Bool :=
  match r.state with
  | .connected | .reconnecting | .signalReconnecting => true
  | .disconnected | .connecting => false

/-- The room of `new Room()` while `connect` is under way. -/
def joining : VoiceRoom := ⟨.connecting, false, []⟩

/-- A room that was left. -/
def left : VoiceRoom := ⟨.disconnected, false, []⟩

/-- `localParticipant.setMicrophoneEnabled`, which may fail, and has an effect on a joined room. -/
def setMicrophoneEnabled (enabled ok : Bool) (r : VoiceRoom) : VoiceRoom :=
  if r.isJoined && ok then { r with isMicrophoneEnabled := enabled } else r

def setTracksEnabled (enabled : Bool) (r : VoiceRoom) : VoiceRoom :=
  { r with remoteParticipants := r.remoteParticipants.map fun p =>
      { p with audioTracks := p.audioTracks.map ({ · with enabled }) } }

def tracks (r : VoiceRoom) : List AudioTrack := r.remoteParticipants.flatMap (·.audioTracks)

end VoiceRoom

/-- What a room reports. -/
inductive RoomEvent where
  | connectionStateChanged (state : ConnectionState)
  | participantConnected (identity : String)
  | participantDisconnected (identity : String)
  | trackSubscribed (identity sid : String)
  | trackUnsubscribed (identity sid : String)
deriving DecidableEq, Repr

/-- What has happened to a joined room that reports `e`. A new track is enabled. -/
def VoiceRoom.report (e : RoomEvent) (r : VoiceRoom) : VoiceRoom :=
  match e with
  | .connectionStateChanged .disconnected => left
  | .connectionStateChanged .connecting => r
  | .connectionStateChanged state => { r with state }
  | .participantConnected identity =>
    { r with remoteParticipants := r.remoteParticipants ++ [⟨identity, []⟩] }
  | .participantDisconnected identity =>
    { r with remoteParticipants := r.remoteParticipants.filter (·.identity ≠ identity) }
  | .trackSubscribed identity sid =>
    { r with remoteParticipants := r.remoteParticipants.map fun p =>
        if p.identity = identity then
          { p with audioTracks := p.audioTracks ++ [⟨sid, true⟩] }
        else p }
  | .trackUnsubscribed identity sid =>
    { r with remoteParticipants := r.remoteParticipants.map fun p =>
        if p.identity = identity then
          { p with audioTracks := p.audioTracks.filter (·.sid ≠ sid) }
        else p }

/-- All rooms that the service has made; it keeps a reference to `room`. -/
structure LiveKitService where
  rooms : List VoiceRoom
  room : Option Nat
deriving DecidableEq, Repr

namespace LiveKitService

variable (l : LiveKitService)

def modifyRoom (n : Nat) (f : VoiceRoom → VoiceRoom) : LiveKitService :=
  { l with rooms := l.rooms.modify n f }

/-- `this.room?.…` -/
def onRoom (f : VoiceRoom → VoiceRoom) : LiveKitService :=
  match l.room with
  | some n => l.modifyRoom n f
  | none => l

def setMicEnabled (enabled ok : Bool) : LiveKitService :=
  l.onRoom (·.setMicrophoneEnabled enabled ok)

def setDeafened (deafened : Bool) : LiveKitService := l.onRoom (·.setTracksEnabled !deafened)

end LiveKitService

/-! ### `usePeerConnection` -/

structure VoiceProps where
  channelId : String
  autoConnect : Bool
deriving DecidableEq, Repr

/-- What a render sees of the state of the hook. -/
structure VoiceRendered where
  connectionState : ConnectionState
  isMuted : Bool
  isDeafened : Bool
deriving DecidableEq, Repr

def VoiceRendered.isConnected (r : VoiceRendered) : Bool := r.connectionState = .connected

def VoiceRendered.isConnecting (r : VoiceRendered) : Bool := r.connectionState = .connecting

/-- What the calls of `connect` and `disconnect` that are under way wait for. -/
inductive VoiceTask where
  -- `connect`: the token, the end of the room before, the new room, the microphone
  | posting
  | leavingOld (n : Nat)
  | joining (n : Nat)
  | enabling (n : Nat)
  -- `disconnect`: the end of the room, when there is one
  | leaving (room : Option Nat)
  | done
deriving DecidableEq, Repr

/-- The service and a mounted component. The state of the hook is the one the next render sees;
`connectCallback` and `effectDeps` are of the last render. The service calls back one component
only: this one while it is `listening`. -/
structure Voice where
  service : LiveKitService
  listening : Bool
  connectionState : ConnectionState
  isMuted : Bool
  isDeafened : Bool
  error : Option String
  rendered : VoiceRendered
  connectCallback : Memo (String × Bool × Bool)
  effectDeps : Bool × String × Nat
  tasks : List VoiceTask
deriving DecidableEq, Repr

namespace Voice

variable (v : Voice)

/-- `connect`, as of the last render. -/
def connect : Voice :=
  if v.rendered.isConnecting || v.rendered.isConnected then v
  else { v with error := none, tasks := v.tasks ++ [.posting] }

/-- `disconnect`, which calls `livekitService.disconnect`. -/
def disconnect : Voice := { v with tasks := v.tasks ++ [.leaving v.service.room] }

/-- `toggleMute`, as of the last render. -/
def toggleMute (ok : Bool) : Voice :=
  let next := !v.rendered.isMuted
  { v with service := v.service.setMicEnabled (!next) ok, isMuted := next }

/-- `toggleDeafen`, as of the last render. -/
def toggleDeafen (ok : Bool) : Voice :=
  let next := !v.rendered.isDeafened
  { v with
    service := (v.service.setDeafened next).setMicEnabled (!next) ok
    isDeafened := next, isMuted := next }

def dependencies (p : VoiceProps) (r : VoiceRendered) : String × Bool × Bool :=
  (p.channelId, r.isConnecting, r.isConnected)

/-- The effect that connects. -/
def runEffect (p : VoiceProps) : Voice :=
  if p.autoConnect && p.channelId ≠ "" then v.connect else v

/-- A render, and the effect where one of its dependencies has changed: first its cleanup, which
disconnects. Answers whether the cleanup ran. `disconnect` never changes. -/
def render (p : VoiceProps) : Bool × Voice :=
  let rendered := ⟨v.connectionState, v.isMuted, v.isDeafened⟩
  let connectCallback := v.connectCallback.next (dependencies p rendered)
  let effectDeps := (p.autoConnect, p.channelId, connectCallback.version)
  let v := { v with rendered, connectCallback }
  if effectDeps = v.effectDeps then (false, v)
  else (true, { v with effectDeps }.disconnect.runEffect p)

/-- The first render and its effects, on a page where the service may have a room already. -/
def mount (p : VoiceProps) (service : LiveKitService) : Voice :=
  let rendered := ⟨.disconnected, false, false⟩
  let v : Voice :=
    { service, listening := true, connectionState := .disconnected, isMuted := false
      isDeafened := false, error := none, rendered, connectCallback := ⟨dependencies p rendered, 0⟩
      effectDeps := (p.autoConnect, p.channelId, 0), tasks := [] }
  let current := service.room.bind fun n => service.rooms[n]?
  { v with connectionState := (current.map VoiceRoom.state).getD .disconnected }.runEffect p

/-! ### The calls under way -/

def setTask (k : Nat) (t : VoiceTask) : Voice := { v with tasks := v.tasks.set k t }

/-- What the hook takes the state to be when a room reports `state`. -/
def reported (state : ConnectionState) : ConnectionState :=
  if v.listening then state else v.connectionState

/-- `this.room = new Room()`, which starts to connect. -/
def join (k : Nat) : Voice :=
  let n := v.service.rooms.length
  { v with
    service := ⟨v.service.rooms ++ [VoiceRoom.joining], some n⟩
    connectionState := v.reported .connecting }.setTask k (.joining n)

/-- Room `n` is left, and reports it unless it was left before. -/
def closeRoom (n : Nat) : Voice :=
  let wasOpen := (v.service.rooms[n]?.map VoiceRoom.state).any (· ≠ .disconnected)
  { v with
    service := v.service.modifyRoom n fun _ => .left
    connectionState := if wasOpen then v.reported .disconnected else v.connectionState }

def fail (k : Nat) (message : Option String) : Voice :=
  { v with error := some (message.getD "Failed to connect") }.setTask k .done

/-- The request for a token is answered, by an error or by whether there is a token. -/
def answered (k : Nat) (answer : Except (Option String) Bool) : Voice :=
  match v.tasks[k]? with
  | some .posting =>
    match answer with
    | .error message => v.fail k message
    | .ok false => v.fail k (some "Failed to get token")
    | .ok true =>
      match v.service.room with
      | some n => v.setTask k (.leavingOld n)
      | none => v.join k
  | _ => v

/-- The end of `disconnect`, of the service and of the hook. -/
def leave (room : Option Nat) : Voice :=
  let v := match room with
    | some n =>
      let v := v.closeRoom n
      { v with service := { v.service with room := none } }
    | none => v
  { v with isMuted := false, isDeafened := false }

/-- The call's `room.disconnect()` returns. -/
def left (k : Nat) : Voice :=
  match v.tasks[k]? with
  | some (.leavingOld n) => (v.closeRoom n).join k
  | some (.leaving room) => (v.leave room).setTask k .done
  | _ => v

/-- The room that `room.connect()` has joined, with the participants that are there. -/
def newRoom (present : List String) : VoiceRoom := ⟨.connected, false, present.map (⟨·, []⟩)⟩

/-- The call's `room.connect()` returns, and the service asks for the microphone of the room that it
has by then. -/
def joined (k : Nat) (present : List String) : Voice :=
  match v.tasks[k]? with
  | some (.joining n) =>
    if v.service.rooms[n]?.map VoiceRoom.state = some .connecting then
      let service := v.service.modifyRoom n fun _ => newRoom present
      let v := { v with service, connectionState := v.reported .connected }
      match v.service.room with
      | some m => v.setTask k (.enabling m)
      | none => v.fail k (some "Cannot read properties of null (reading 'localParticipant')")
    else v
  | _ => v

/-- The call's `setMicrophoneEnabled(true)` returns. -/
def enabled (k : Nat) (mic : Except (Option String) Unit) : Voice :=
  match v.tasks[k]? with
  | some (.enabling n) =>
    let service := v.service.modifyRoom n (·.setMicrophoneEnabled true mic.isOk)
    let v := { v with service }
    match mic with
    | .error message => v.fail k message
    | .ok () => v.setTask k .done
  | _ => v

/-- The call's `room.connect()` throws. -/
def refused (k : Nat) (message : Option String) : Voice :=
  match v.tasks[k]? with
  | some (.joining n) => (v.closeRoom n).fail k message
  | _ => v

/-- Room `n` reports an event. -/
def roomEvent (n : Nat) (e : RoomEvent) : Voice :=
  let service := v.service.modifyRoom n fun r => if r.isJoined then r.report e else r
  match e with
  | .connectionStateChanged state => { v with service, connectionState := v.reported state }
  | _ => { v with service }

end Voice

/-- What happens while the component is mounted, in any order. -/
inductive VoiceInput where
  | render
  /-- Another component with the hook mounts, which the service calls back from then on. -/
  | overtaken
  -- the callbacks that the hook returns
  | connect
  | disconnect
  | toggleMute (ok : Bool)
  | toggleDeafen (ok : Bool)
  -- the `k`th call of `connect` or `disconnect` goes on
  | answered (k : Nat) (answer : Except (Option String) Bool)
  | left (k : Nat)
  | joined (k : Nat) (present : List String)
  | enabled (k : Nat) (mic : Except (Option String) Unit)
  | refused (k : Nat) (message : Option String)
  | roomEvent (n : Nat) (e : RoomEvent)

/-- Whether the input makes the hook call `livekitService.disconnect`, and what it leaves. -/
def Voice.step (p : VoiceProps) (v : Voice) : VoiceInput → Bool × Voice
  | .render => v.render p
  | .overtaken => (false, { v with listening := false })
  | .connect => (false, v.connect)
  | .disconnect => (true, v.disconnect)
  | .toggleMute ok => (false, v.toggleMute ok)
  | .toggleDeafen ok => (false, v.toggleDeafen ok)
  | .answered k answer => (false, v.answered k answer)
  | .left k => (false, v.left k)
  | .joined k present => (false, v.joined k present)
  | .enabled k mic => (false, v.enabled k mic)
  | .refused k message => (false, v.refused k message)
  | .roomEvent n e => (false, v.roomEvent n e)

end Client

end VoxLink
