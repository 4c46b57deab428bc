import VoxLink.Client.Counts
import VoxLink.Content.Deletion

/-! What `MessageList` and `MessageItem` show of a message. Announced as new and listed in a
snapshot it comes as two different records, which the client takes for one interface. -/

namespace VoxLink

open ProofKit Prog

namespace Client

/-- The props and fields that `MessageItem` uses: the reply as its content, since its author, whose
name the component would show, comes in neither record. -/
structure MessageItem where
  isOwn : Bool
  username : String
  avatar : Option String
  content : Option String
  replyTo : Option (Option String)
  createdAt : Date
  editedAt : Option Date
deriving DecidableEq, Repr

namespace StoredMessage

/-- `message.authorId`: neither record has the field. -/
def authorId : StoredMessage → Option Uuid
  | .listed _ => none
  | .announced _ => none

def author : StoredMessage → Option UserSummary
  | .listed m => m.author
  | .announced m => some m.author

def content : StoredMessage → Option String
  | .listed m => m.content
  | .announced m => m.content

def replyTo : StoredMessage → Option ReplyPreview
  | .listed m => m.replyTo
  | .announced _ => none

def createdAt : StoredMessage → Date
  | .listed m => m.createdAt
  | .announced m => m.createdAt

def editedAt : StoredMessage → Option Date
  | .listed m => m.editedAt
  | .announced _ => none

end StoredMessage

/-- The name and the avatar that `MessageItem` shows of an author. -/
def shownAuthor (author : Option UserSummary) : String × Option String :=
  (author.map fun u => (u.username, u.avatar)).getD ("Unknown", none)

/-- `MessageList` makes the item of a message for the user who looks at it. -/
def messageItem (viewer : Uuid) (m : StoredMessage) : MessageItem :=
  { isOwn := m.authorId = some viewer, username := (shownAuthor m.author).1
    avatar := (shownAuthor m.author).2, content := m.content
    replyTo := m.replyTo.map (·.content), createdAt := m.createdAt, editedAt := m.editedAt }

/-- Announced or listed the message looks the same to the viewer, and it is his own if he wrote the
row. -/
structure LooksSame (db : Database) (viewer : Uuid) (a : NewMessage)
    (l : MessageListing) : Prop where
  item : messageItem viewer (.announced a) = messageItem viewer (.listed l)
  own : (messageItem viewer (.listed l)).isOwn =
    (db.messageById l.id).any (·.authorId = some viewer)

instance {db : Database} {viewer : Uuid} {a : NewMessage} {l : MessageListing} :
    Decidable (LooksSame db viewer a l) :=
  decidable_of_iff (messageItem viewer (.announced a) = messageItem viewer (.listed l) ∧
      (messageItem viewer (.listed l)).isOwn =
        (db.messageById l.id).any (·.authorId = some viewer))
    ⟨fun h => ⟨h.1, h.2⟩, fun h => ⟨h.1, h.2⟩⟩

variable {X : Externals} {env : Env} {client : String} {c : BodyField String} {g : Gateway}
  {db : Database} {user : Profile} {data : SendMessageData}

/-! ### The two records -/

/-- The event that announces a row. -/
def announcement (user : Profile) (channelId : BodyField String) (m : Message) : NewMessage :=
  ⟨m.id, channelId, m.content, m.attachments, m.replyToId, user.summary, m.createdAt⟩

/-- The row that a new message makes: it refers to a stored message if the body names one. -/
structure NewRow (db : Database) (user : Profile) (reply : BodyField String)
    (m : Message) : Prop where
  author : m.authorId = some user.id
  unedited : m.editedAt = none
  alone : reply.get? = none → m.replyToId = none
  reply : reply.get? ≠ none → ∃ k, m.replyToId = some k ∧ k ∈ db.messages.map (·.id)

theorem create_newRow {d : CreateMessageDto} {channelId : BodyField String} :
    wp (MessagesService.create env d user channelId)
      (fun v db' => NewRow db user d.replyToId v.message ∧
        db' = { db with messages := db.messages ++ [v.message] })
      (fun _ _ => True) db := by
  simp only [MessagesService.create, wp_bind, wp_texts, wp_query, wp_references, implies_true,
    and_true]
  intro _
  refine (newReference_wp.mono ?_ fun _ _ _ => trivial)
  rintro channel _ ⟨rfl, -, -⟩
  refine fun _ => newReference_wp.mono ?_ fun _ _ _ => trivial
  rintro reply db ⟨rfl, rfl, hfound⟩
  refine ⟨⟨rfl, rfl, fun hnone => ?_, fun hreplies => ?_⟩, rfl⟩
  · show d.replyToId.get?.bind Uuid.parse = none
    rw [hnone, Option.bind_none]
  · obtain ⟨text, htext⟩ := Option.ne_none_iff_exists'.mp hreplies
    rw [htext, Option.all_some] at hfound
    obtain ⟨key, hkey, hm⟩ := (Option.any_eq_true _ _).mp hfound
    obtain ⟨m, hm⟩ := Option.isSome_iff_exists.mp hm
    have hid : m.id = key := by simpa using List.find?_some hm
    refine ⟨key, ?_, List.mem_map.mpr ⟨m, List.mem_of_find?_eq_some hm, hid⟩⟩
    show d.replyToId.get?.bind Uuid.parse = some key
    rw [htext, Option.bind_some, hkey]

/-- `handleSendMessage` announces the row that it has stored. -/
theorem send_announces (haccount : WebsocketGateway.account client g = some user) :
    let g' := (WebsocketGateway.handleSendMessage env client data).final { g with sent := [] }
    ∀ e ∈ g'.sent, ∀ a, e.event = .messageNew a →
      ∃ m, NewRow g.server.db user data.replyToId m ∧ a = announcement user data.channelId m ∧
        g'.server.db.messages = g.server.db.messages ++ [m] := by
  intro g'
  have hstart : WebsocketGateway.account client { g with sent := [] } = some user := haccount
  apply wp.final (P := fun g' : Gateway => ∀ e ∈ g'.sent, ∀ a, e.event = .messageNew a →
    ∃ m, NewRow g.server.db user data.replyToId m ∧ a = announcement user data.channelId m ∧
      g'.server.db.messages = g.server.db.messages ++ [m])
  refine wp_bind.mpr ?_
  rw [wp_query, hstart]
  refine wp_recover.mpr (wp_bind.mpr (wp_onServer.mpr (wp_onDb.mpr ?_)))
  apply create_newRow.mono
  · rintro v _ ⟨hrow, rfl⟩ e he a hevent
    obtain rfl := List.mem_singleton.mp he
    obtain rfl := GatewayEvent.messageNew.inj hevent
    exact ⟨v.message, hrow, rfl, rfl⟩
  · rintro _ _ _ e he a hevent
    obtain rfl := List.mem_singleton.mp he
    exact nomatch hevent

theorem list_lists {channel : Channel} {limit offset : Nat} {selected : Database → List Message}
    (hselected : ∀ m ∈ selected db, m ∈ db.messages) :
    wp (MessagesService.list channel user limit offset selected)
      (fun ms db' => db' = db ∧ ∀ l ∈ ms, ∃ m ∈ db.messages, l = MessagesService.listing db m)
      (fun _ db' => db' = db) db := by
  simp only [MessagesService.list, wp_bind, wp_throwIf, wp_query, implies_true, and_true, true_and]
  intro _ l hl
  obtain ⟨m, hm, rfl⟩ := List.mem_map.mp hl
  exact ⟨m, hselected m (slice_sublist.subset hm), rfl⟩

theorem findAllOf_lists {limit offset : Nat} :
    wp (MessagesService.findAllOf env c user limit offset)
      (fun ms db' => db' = db ∧ ∀ l ∈ ms, ∃ m ∈ db.messages, l = MessagesService.listing db m)
      (fun _ db' => db' = db) db := by
  have hrows : ∀ {p : Message → Bool} {m : Message},
      m ∈ (db.messages.filter p).insertionSort (fun a b => b.createdAt ≤ a.createdAt) →
        m ∈ db.messages :=
    fun hm => (List.mem_filter.mp ((List.mem_insertionSort _).mp hm)).1
  cases c with
  | value channelId =>
    simp only [MessagesService.findAllOf, MessagesService.findAll, wp_bind, wp_uuidOf,
      implies_true, and_true]
    intro channel _
    apply ChannelsService.findChannel_wp.mono _ fun _ _ h => h
    rintro _ db ⟨rfl, -, -⟩
    exact list_lists fun _ => hrows
  | absent | null =>
    refine wp_bind.mpr (ChannelsService.findAnyChannel_wp.mono ?_ fun _ _ h => h)
    rintro _ _ ⟨rfl, -⟩
    exact list_lists fun _ => hrows

/-- The snapshots among the events list rows of the table. -/
def Snapshots (db : Database) (sent : List Emission) : Prop :=
  ∀ e ∈ sent, ∀ c ms members, e.event = .ready c ms members →
    ∀ l ∈ ms, ∃ m ∈ db.messages, l = MessagesService.listing db m

theorem snapshots_single {event : GatewayEvent} {r : List String}
    (h : ∀ c ms members, event ≠ .ready c ms members) : Snapshots db [⟨event, r⟩] := by
  intro e he c ms members hevent
  obtain rfl := List.mem_singleton.mp he
  exact absurd hevent (h c ms members)

theorem join_snapshots : Snapshots g.server.db
    ((WebsocketGateway.handleJoinChannel env client c).final { g with sent := [] }).sent := by
  apply wp.final (P := fun g' : Gateway => Snapshots g.server.db g'.sent)
  refine wp_bind.mpr ?_
  rw [wp_query]
  cases WebsocketGateway.account client { g with sent := [] } with
  | none => exact fun e he => absurd he List.not_mem_nil
  | some user =>
    refine wp_recover.mpr (wp_bind.mpr (wp_onServer.mpr (wp_onDb.mpr ?_)))
    apply ChannelsService.findOneOf_wp.mono
    · rintro view _ rfl
      refine wp_bind.mpr (wp_bind.mpr (wp_within.mpr (wp_bind.mpr ?_)))
      refine WebsocketService.attempt_runs.mono ?_ fun _ _ h => h.elim
      rintro _ _ ⟨-, rfl⟩
      refine wp_bind.mpr (wp_within.mpr (members_read.mono ?_ fun _ _ h => h.elim))
      rintro _ _ ⟨-, rfl⟩
      refine wp_bind.mpr (wp_within.mpr (wp_onDb.mpr (findAllOf_lists.mono ?_ ?_)))
      · rintro ms _ ⟨rfl, hlisted⟩ e he c' ms' members hevent l hl
        rcases List.mem_append.mp he with he | he
        · obtain rfl := List.mem_singleton.mp he
          exact nomatch hevent
        · obtain rfl := List.mem_singleton.mp he
          obtain ⟨-, rfl, -⟩ := GatewayEvent.ready.inj hevent
          exact hlisted l (List.mem_reverse.mp hl)
      · rintro e _ rfl
        exact snapshots_single fun _ _ _ => nofun
    · rintro e _ rfl
      exact snapshots_single fun _ _ _ => nofun

/-! ### What differs -/

theorem looksSame_listing_iff {m : Message} {viewer : Uuid} (hauthor : m.authorId = some user.id)
    (hunedited : m.editedAt = none) (hfound : db.messageById m.id = some m) :
    LooksSame db viewer (announcement user c m) (MessagesService.listing db m) ↔
      viewer ≠ user.id ∧ m.replyToId.bind db.messageById = none ∧
        shownAuthor (db.relatedSummary (some user.id)) = shownAuthor (some user.summary) := by
  have hown : (db.messageById (MessagesService.listing db m).id).any (·.authorId = some viewer) =
      decide (viewer = user.id) := by
    show (db.messageById m.id).any (·.authorId = some viewer) = _
    rw [hfound, Option.any_some, hauthor]
    simp [eq_comm]
  constructor
  · rintro ⟨hitem, hisOwn⟩
    rw [hown] at hisOwn
    refine ⟨?_, ?_, ?_⟩
    · -- the prop `isOwn` is never true
      rintro rfl
      simp [messageItem, StoredMessage.authorId] at hisOwn
    · have hreply := congrArg MessageItem.replyTo hitem
      simpa [messageItem, StoredMessage.replyTo, MessagesService.listing] using hreply.symm
    · have husername := congrArg MessageItem.username hitem
      have havatar := congrArg MessageItem.avatar hitem
      rw [← hauthor]
      exact Prod.ext husername.symm havatar.symm
  · rintro ⟨hother, hreply, hsame⟩
    constructor
    · simp only [messageItem, StoredMessage.authorId, StoredMessage.author, StoredMessage.content,
        StoredMessage.replyTo, StoredMessage.createdAt, StoredMessage.editedAt, announcement,
        MessagesService.listing, hauthor, hsame, hreply, hunedited, Option.map_none]
      rfl
    · rw [hown]
      simp [messageItem, StoredMessage.authorId, hother]

/-- No message is ever taken out of the table. -/
theorem step_keepsIds {i : Env × Input} :
    g.server.db.messages.map (·.id) ⊆ (Gateway.step X g i).2.server.db.messages.map (·.id) := by
  have h : Rewritten i.1 g.server.db _ (Gateway.step X g i).2.server.db.messages := step_rewritten
  generalize (Gateway.step X g i).2.server.db.messages = ms, i.2.adminDeletion i.1 g = key at h ⊢
  cases h with
  | same => exact List.Subset.refl _
  | posted _ => exact Rows.subset_append
  | edited _ => exact Rows.subset_modify fun _ _ => rfl
  | removed _ => exact Rows.subset_modify fun _ _ => rfl
  | removedByAdmin => exact Rows.subset_modify fun _ _ => rfl

theorem run_keepsIds {is : List (Env × Input)} : g.server.db.messages.map (·.id) ⊆
    (run (Gateway.step X) g is).server.db.messages.map (·.id) := by
  induction is generalizing g with
  | nil => exact List.Subset.refl _
  | cons i is ih => exact List.Subset.trans step_keepsIds ih

/-- Alice and Bob are connected, and Alice has opened a channel. -/
def bothOnline : Gateway :=
  run (Gateway.step sampleExternals) (channelOpened "secret")
    [(sampleEnv 4, .event "alice" (.connection ⟨some (sampleToken 1 "alice"), none, none⟩)),
      (sampleEnv 5, .event "bob" (.connection ⟨some (sampleToken 2 "bob"), none, none⟩)),
      (sampleEnv 6, .event "alice" (.joinChannel (.value openedChannel)))]

/-- What Alice sends, as it is announced and as it is listed. -/
def greeting : SendMessageData := ⟨.value openedChannel, .value "hello", .absent, .absent⟩

def greetingNew : NewMessage :=
  ⟨sampleUuid 7 0, .value openedChannel, some "hello", none, none, alice.summary, 7000⟩

def greetingListed : MessageListing :=
  ⟨sampleUuid 7 0, some "hello", none, none, none, none, 7000, some alice.summary, none⟩

/-- The gateway after the greeting. -/
def greeted : Gateway :=
  (Gateway.step sampleExternals bothOnline (sampleEnv 7, .event "alice" (.sendMessage greeting))).2

end Client

end VoxLink
