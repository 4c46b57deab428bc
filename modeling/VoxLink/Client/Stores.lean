import VoxLink.Backend.Gateway

/-! The stores of the client and the listeners of `WebSocketService`, which change them when an
event of the gateway arrives. -/

namespace VoxLink

open ProofKit

namespace Client

/-- A channel as the store keeps it. -/
structure ChannelItem where
  id : String
  memberCount : Int
deriving DecidableEq, Repr

/-- The list of `useChannelStore`. No listener reads the current channel of the store. -/
structure ChannelStore where
  channels : List ChannelItem
deriving DecidableEq, Repr

/-- `updateChannel` with a new `memberCount`. An id that is missing is that of no channel. -/
def ChannelStore.updateChannel (channelId : BodyField String) (memberCount : Int)
    (s : ChannelStore) : ChannelStore :=
  { channels := s.channels.map fun c =>
      if .value c.id = channelId then { c with memberCount } else c }

def ChannelStore.find (channelId : BodyField String) (s : ChannelStore) : Option ChannelItem :=
  s.channels.find? fun c => .value c.id = channelId

/-- A message as the store keeps it: from a listing, or from an event of its own. -/
inductive StoredMessage where
  | listed (m : MessageListing)
  | announced (m : NewMessage)
deriving DecidableEq, Repr

def StoredMessage.id : StoredMessage → Uuid
  | .listed m => m.id
  | .announced m => m.id

/-- The `messages` of `useMessageStore`, by channel. -/
abbrev MessageStore := String → Option (List StoredMessage)

def MessageStore.setMessages (channelId : String) (ms : List StoredMessage) (s : MessageStore) :
    MessageStore := Function.update s channelId (some ms)

def MessageStore.addMessage (channelId : String) (m : StoredMessage) (s : MessageStore) :
    MessageStore := Function.update s channelId (some ((s channelId).getD [] ++ [m]))

structure Stores where
  channels : ChannelStore
  messages : MessageStore

/-- The listeners of `setupEventListeners`. Those for typing and errors change other stores;
presence changes none, and nobody listens for the participants of voice channels. -/
def listen : GatewayEvent → Stores → Stores
  | .ready channelId messages members, s =>
    { channels := s.channels.updateChannel channelId members.length
      messages := s.messages.setMessages channelId.text (messages.map .listed) }
  | .memberJoined channelId _, s =>
    let current := ((s.channels.find channelId).map (·.memberCount)).getD 0
    { s with channels := s.channels.updateChannel channelId (current + 1) }
  | .memberLeft channelId _, s =>
    let current := ((s.channels.find (.value channelId)).map (·.memberCount)).getD 1
    { s with channels := s.channels.updateChannel (.value channelId) (max 0 (current - 1)) }
  | .messageNew m, s =>
    { s with messages := s.messages.addMessage m.channelId.text (.announced m) }
  | _, s => s

/-- The events that a socket receives, in the order of their emission. -/
def received (client : String) (sent : List Emission) : List GatewayEvent :=
  (sent.filter fun e => client ∈ e.recipients).map (·.event)

/-- What a step of the backend emits. An answer to a request is no emission. -/
def emissions : Output → List Emission
  | .response _ => []
  | .emitted sent => sent

/-- The socket is in the room of the channel. -/
def inRoom (id c : String) (g : Gateway) : Bool :=
  g.sockets.any fun s => s.id = id && s.rooms.contains (channelRoom c)

def listenAll (events : List GatewayEvent) (s : Stores) : Stores :=
  events.foldl (fun s event => listen event s) s

variable {w c : String} {g : Gateway}

theorem inRoom_mem : inRoom w c g = true ↔ ∃ s ∈ g.sockets, s.id = w ∧ channelRoom c ∈ s.rooms := by
  simp [inRoom]

theorem inRoom_iff : inRoom w c g = true ↔
    w ∈ (g.sockets.filter (channelRoom c ∈ ·.rooms)).map (·.id) := by
  rw [inRoom_mem]
  simp only [List.mem_map, List.mem_filter, decide_eq_true_eq]
  constructor
  · rintro ⟨s, hs, hid, hin⟩
    exact ⟨s, ⟨hs, hin⟩, hid⟩
  · rintro ⟨s, ⟨hs, hin⟩, hid⟩
    exact ⟨s, hs, hid, hin⟩

theorem received_append {sent sent' : List Emission} :
    received w (sent ++ sent') = received w sent ++ received w sent' := by
  rw [received, List.filter_append, List.map_append, received, received]

theorem received_pair {e e' : GatewayEvent} {r r' : List String} :
    received w [⟨e, r⟩, ⟨e', r'⟩] =
      (if w ∈ r then [e] else []) ++ if w ∈ r' then [e'] else [] := by
  by_cases h : w ∈ r <;> by_cases h' : w ∈ r' <;> simp [received, h, h']

theorem received_single {e : GatewayEvent} {r : List String} :
    received w [⟨e, r⟩] = if w ∈ r then [e] else [] := by
  by_cases h : w ∈ r <;> simp [received, h]

theorem listenAll_append {events events' : List GatewayEvent} {st : Stores} :
    listenAll (events ++ events') st = listenAll events' (listenAll events st) :=
  List.foldl_append

end Client

end VoxLink
