import VoxLink.Secrecy.Passwords

/-! Two databases that differ in nothing but what is written in one private channel, and which
requests and events of a user without access to it depend on that. -/

namespace VoxLink

open ProofKit Prog

/-- A message with its content and attachments blanked, if it is in the channel. -/
def Message.sealed (c : Uuid) (m : Message) : Message :=
  if m.channelId = some c then { m with content := none, attachments := none } else m

/-- The database with all that is written in the channel blanked. -/
def Database.sealed (c : Uuid) (db : Database) : Database :=
  { db with messages := db.messages.map (Message.sealed c) }

variable {X : Externals} {env : Env} {user : Profile} {c u : Uuid} {db s t : Database}

namespace Message

variable (m : Message)

@[simp] theorem sealed_id : (m.sealed c).id = m.id := by
  unfold sealed
  split <;> rfl

@[simp] theorem sealed_channelId : (m.sealed c).channelId = m.channelId := by
  unfold sealed
  split <;> rfl

@[simp] theorem sealed_isDeleted : (m.sealed c).isDeleted = m.isDeleted := by
  unfold sealed
  split <;> rfl

@[simp] theorem sealed_authorId : (m.sealed c).authorId = m.authorId := by
  unfold sealed
  split <;> rfl

@[simp] theorem sealed_createdAt : (m.sealed c).createdAt = m.createdAt := by
  unfold sealed
  split <;> rfl

@[simp] theorem sealed_replyToId : (m.sealed c).replyToId = m.replyToId := by
  unfold sealed
  split <;> rfl

theorem sealed_of_ne (h : m.channelId ≠ some c) : m.sealed c = m := if_neg h

@[simp] theorem sealed_sealed : (m.sealed c).sealed c = m.sealed c := by
  by_cases h : m.channelId = some c
  · simp [sealed, h]
  · rw [sealed_of_ne m h, sealed_of_ne m h]

/-- A message outside the channel is known from its sealed form. -/
theorem eq_of_sealed {m m' : Message} (h : m.sealed c = m'.sealed c) (hm : m.channelId ≠ some c) :
    m = m' := by
  have hm' : m'.channelId ≠ some c := by
    rw [← m'.sealed_channelId (c := c), ← h, sealed_channelId]
    exact hm
  rw [← m.sealed_of_ne hm, h, m'.sealed_of_ne hm']

end Message

namespace Database

variable (db)

theorem sealed_sealed : (db.sealed c).sealed c = db.sealed c := by
  simp [sealed, Function.comp_def]

theorem messageById_sealed (id : Uuid) :
    (db.sealed c).messageById id = (db.messageById id).map (Message.sealed c) := by
  simp [sealed, messageById, List.find?_map]

theorem any_sealed {p : Message → Bool} (hp : ∀ m : Message, p (m.sealed c) = p m) :
    (db.sealed c).messages.any p = db.messages.any p := by
  simp only [sealed, List.any_map]
  congr 1
  exact funext hp

/-- An update of messages that does not move them to another channel. -/
theorem sealed_modify {p : Message → Bool} {f : Message → Message}
    (hp : ∀ m : Message, p (m.sealed c) = p m)
    (hf : ∀ m : Message, (f (m.sealed c)).sealed c = (f m).sealed c) :
    (Rows.modify p f (db.sealed c).messages).map (Message.sealed c) =
      (Rows.modify p f db.messages).map (Message.sealed c) := by
  simp only [Rows.modify, sealed, List.map_map]
  refine List.map_congr_left fun m _ => ?_
  simp only [Function.comp_apply, hp]
  split
  · exact hf m
  · exact m.sealed_sealed

/-- A selection by channel and deletion. -/
theorem filter_sealed {p : Message → Bool} (hp : ∀ m : Message, p (m.sealed c) = p m) :
    (db.sealed c).messages.filter p = (db.messages.filter p).map (Message.sealed c) := by
  simp only [sealed, List.filter_map]
  congr 2
  exact funext hp

end Database

/-! ### Services that do not show what is written -/

abbrev SameOutside (c : Uuid) : Database → Database → Prop := SameUnder (Database.sealed c)

/-- A write to other tables than `messages`. -/
theorem outside_write {β : Type} {w : Database → Database} {v : Unit → β}
    (h : ∀ db : Database, w (db.sealed c) = (w db).sealed c) :
    AgreesVia (SameOutside c) v (write w : Service Unit) :=
  .commutes (fun db => db.sealed_sealed) h

theorem outside_accessible (channel : Option Channel) :
    Agrees (SameOutside c) (ChannelsService.accessible channel user) :=
  .bind (.orThrow _ _) fun _ => .bind (.throwIf _ _) fun _ => .pure _

theorem outside_findChannel (id : Uuid) :
    Agrees (SameOutside c) (ChannelsService.findChannel id user) :=
  .bind (.read fun _ => rfl) fun _ => outside_accessible _

theorem outside_findAnyChannel :
    Agrees (SameOutside c) (ChannelsService.findAnyChannel env user) :=
  .bind (.read fun _ => rfl) fun _ => outside_accessible _

theorem outside_channels_findOne (id : String) :
    Agrees (SameOutside c) (ChannelsService.findOne id user) := by
  refine .bind (agrees_uuidOf id) fun id => .bind (outside_findChannel id) fun _ => ?_
  exact .bind (.read fun _ => rfl) fun _ => .pure _

theorem outside_findOneOf (id : BodyField String) :
    Agrees (SameOutside c) (ChannelsService.findOneOf env id user) := by
  cases id with
  | value id => exact outside_channels_findOne id
  | absent | null =>
    exact .bind outside_findAnyChannel fun _ => .bind (.read fun _ => rfl) fun _ => .pure _

theorem outside_deleteRow (id : Uuid) : Agrees (SameOutside c) (ChannelsService.deleteRow id) := by
  refine .bind (.read fun db => ?_) fun _ => .bind (.throwIf _ _) fun _ =>
    outside_write fun _ => rfl
  rw [Database.channelReferenced, db.any_sealed fun m => by rw [m.sealed_channelId]]
  rfl

theorem outside_channelsController (r : ChannelRoute) :
    Agrees (SameOutside c) (channelsController X env user r) := by
  cases r with
  | create d =>
    refine .map (.bind (agrees_texts _) fun _ => .bind (agrees_column _ _) fun _ => ?_)
    refine .bind (.read fun _ => rfl) fun _ => .bind (agrees_references _ _) fun _ => ?_
    exact .bind (outside_write fun _ => rfl) fun _ => .pure _
  | findAll => exact .map (.read fun _ => rfl)
  | search q => exact .map (.bind (agrees_texts _) fun _ => .read fun _ => rfl)
  | findOne id => exact .map (outside_channels_findOne id).via
  | update id d =>
    refine .map (.bind (agrees_uuidOf id) fun key => .bind (outside_findChannel key) fun _ => ?_)
    refine .bind (.throwIf _ _) fun _ => .bind ?_ fun _ => (outside_channels_findOne id).via
    refine .bind (.throwIf _ _) fun _ => .bind (agrees_texts _) fun _ => ?_
    refine .bind (agrees_column _ _) fun _ => .bind (agrees_column _ _) fun _ => ?_
    exact .bind (agrees_column _ _) fun _ => outside_write fun _ => rfl
  | remove id =>
    refine .map (.bind (agrees_uuidOf id) fun key => .bind (outside_findChannel key) fun _ => ?_)
    exact .bind (.throwIf _ _) fun _ => (outside_deleteRow key).via

theorem outside_replyTarget (old : Option Uuid) (d : BodyField String) :
    Agrees (SameOutside c) (MessagesService.replyTarget old d) := by
  refine agrees_nullableReference (fun id => .read fun db => ?_) old d
  rw [db.messageById_sealed, Option.isSome_map]

theorem outside_channelTarget (old : Option Uuid) (d : BodyField String) :
    Agrees (SameOutside c) (channelTarget old d) := by
  refine agrees_nullableReference (fun id => ?_) old d
  exact .read fun _ => rfl

theorem outside_create (d : CreateMessageDto) (channelId : BodyField String) :
    Agrees (SameOutside c) (MessagesService.create env d user channelId) := by
  refine .bind (agrees_texts _) fun _ => .bind (outside_channelTarget _ _) fun _ => ?_
  refine .bind (.read fun _ => rfl) fun _ => ?_
  refine .bind (agrees_references _ _) fun _ => .bind (outside_replyTarget _ _) fun _ => ?_
  refine .bind (.save fun db => ?_) fun _ => .pure _
  simp [Database.sealed, Function.comp_def]

/-- The message with the id, unless it is deleted. -/
def Database.present (db : Database) (id : Uuid) : Option Message :=
  (db.messageById id).filter (!·.isDeleted)

theorem Database.present_sealed (db : Database) (id : Uuid) :
    (db.sealed c).present id = (db.present id).map (Message.sealed c) := by
  rw [present, messageById_sealed, present]
  cases db.messageById id with
  | none => rfl
  | some m => cases hm : m.isDeleted <;> simp [hm, Option.filter]

theorem outside_findMessage (id : Uuid) :
    AgreesVia (SameOutside c) (Message.sealed c) (MessagesService.findMessage id) := by
  have hread : AgreesVia (SameOutside c) (Option.map (Message.sealed c))
      (query fun db => db.present id : Service (Option Message)) := by
    refine .read fun db => ?_
    rw [db.present_sealed, Option.map_map]
    congr 1
    exact funext fun m => m.sealed_sealed
  exact hread.bind_via fun _ _ hab _ _ hst => .orThrow hab hst

theorem outside_remove (id : String) :
    Agrees (SameOutside c) (MessagesService.remove env id user) := by
  refine .bind (agrees_uuidOf id) fun key => (outside_findMessage key).bind_via ?_
  intro m m' hmm'
  have hauthor : m.authorId = m'.authorId := by
    rw [← m.sealed_authorId (c := c), hmm', Message.sealed_authorId]
  rw [hauthor]
  have hwrite : Agrees (SameOutside c) (write fun db => { db with
      messages := Rows.modify (·.id = key) (fun m => { m with
        isDeleted := true, content := some "[Message deleted]", attachments := none
        updatedAt := env.now }) db.messages } : Service Unit) := by
    refine .save fun db => ?_
    refine congrArg (fun ms => { db with messages := ms }) (db.sealed_modify ?_ ?_)
    · exact fun m => by rw [m.sealed_id]
    · intro m
      by_cases hm : m.channelId = some c
      · simp [Message.sealed, hm]
      · rw [m.sealed_of_ne hm]
  exact AgreesVia.bind (.throwIf _ _) fun _ => hwrite

/-! ### Services that show what is written -/

/-- The message replies to one in the channel. -/
def repliesInto (db : Database) (c : Uuid) (m : Message) : Bool :=
  (m.replyToId.bind db.messageById).any (·.channelId = some c)

/-- The message, shown with the one it replies to, shows what is written in the channel. -/
def showsChannel (db : Database) (c : Uuid) (m : Message) : Bool :=
  m.channelId = some c || repliesInto db c m

theorem reply_eq (hst : SameOutside c s t) {m : Message} (hm : repliesInto s c m = false) :
    m.replyToId.bind s.messageById = m.replyToId.bind t.messageById := by
  cases hid : m.replyToId with
  | none => rfl
  | some id =>
    have hsealed : (s.messageById id).map (Message.sealed c) =
        (t.messageById id).map (Message.sealed c) := by
      rw [← s.messageById_sealed, ← t.messageById_sealed]
      exact congrArg (Database.messageById · id) hst
    simp only [repliesInto, hid, Option.bind_some] at hm ⊢
    cases hs : s.messageById id with
    | none =>
      rw [hs, Option.map_none] at hsealed
      exact (Option.map_eq_none_iff.mp hsealed.symm).symm
    | some x =>
      rw [hs, Option.map_some] at hsealed
      obtain ⟨y, hy, hxy⟩ := Option.map_eq_some_iff.mp hsealed.symm
      have hx : x.channelId ≠ some c := by simpa [hs] using hm
      rw [hy, Message.eq_of_sealed hxy.symm hx]

theorem findOne_same {text : String} (hst : SameOutside c s t)
    (hshows : (storedMessage s text).any (showsChannel s c) = false) :
    SameResult (SameOutside c) id (MessagesService.findOne text s)
      (MessagesService.findOne text t) := by
  refine (agrees_uuidOf text s t hst).bind ?_
  intro key _ s' t' hkey _ hsame hst'
  obtain rfl : key = _ := hsame
  obtain ⟨hparse, hs'⟩ := uuidOf_ok hkey
  rw [hs'] at hst' ⊢
  refine (outside_findMessage key s t' hst').bind ?_
  intro m m' s'' t'' hm _ hmm' hst''
  obtain ⟨hs'', hfound⟩ := MessagesService.findMessage_wp.of_ok hm
  rw [hs''] at hst'' ⊢
  have hstored : storedMessage s text = some m :=
    MessagesService.storedMessage_eq_some.mpr ⟨key, hparse, hfound⟩
  simp only [hstored, Option.any_some, showsChannel, Bool.or_eq_false_iff,
    decide_eq_false_iff_not] at hshows
  obtain rfl : m = m' := Message.eq_of_sealed hmm' hshows.1
  refine ⟨?_, hst''⟩
  have hauthor : s.related m.authorId = t''.related m.authorId :=
    hst''.same (q := fun db => db.related m.authorId) fun _ => rfl
  have hchannel : m.channelId.bind s.channelById = m.channelId.bind t''.channelById :=
    hst''.same (q := fun db => m.channelId.bind db.channelById) fun _ => rfl
  show MessageView.mk m (s.related m.authorId) (m.channelId.bind s.channelById)
    (m.replyToId.bind s.messageById) = _
  rw [hauthor, hchannel, reply_eq hst'' hshows.2]
  rfl

/-- A selection of messages, newest first. -/
theorem sorted_sealed (db : Database) {p : Message → Bool}
    (hp : ∀ m : Message, p (m.sealed c) = p m) :
    ((db.sealed c).messages.filter p).insertionSort (fun a b => b.createdAt ≤ a.createdAt) =
      ((db.messages.filter p).insertionSort fun a b => b.createdAt ≤ a.createdAt).map
        (Message.sealed c) := by
  rw [db.filter_sealed hp]
  refine (List.map_insertionSort _ _ _ _ ?_).symm
  intro a _ b _
  rw [a.sealed_createdAt, b.sealed_createdAt]

theorem newest_sealed (db : Database) (key : Uuid) :
    MessagesService.newest key (db.sealed c) =
      (MessagesService.newest key db).map (Message.sealed c) :=
  sorted_sealed db fun m => by rw [m.sealed_channelId, m.sealed_isDeleted]

theorem newestOfAll_sealed (db : Database) :
    MessagesService.newestOfAll (db.sealed c) =
      (MessagesService.newestOfAll db).map (Message.sealed c) :=
  sorted_sealed db fun m => by rw [m.sealed_isDeleted]

theorem channelId_of_newest {key : Uuid} {m : Message} (h : m ∈ MessagesService.newest key db) :
    m.channelId = some key := by
  have hm := (List.mem_filter.mp ((List.mem_insertionSort _).mp h)).2
  simp only [decide_eq_true_eq] at hm
  exact hm.1

/-- Another channel than `c` is listed as it is. -/
theorem newest_sealed_of_ne (db : Database) {key : Uuid} (hkey : key ≠ c) :
    MessagesService.newest key (db.sealed c) = MessagesService.newest key db := by
  rw [newest_sealed]
  conv_rhs => rw [← List.map_id (MessagesService.newest key db)]
  refine List.map_congr_left fun m hm => m.sealed_of_ne fun heq => hkey ?_
  exact Option.some.inj ((channelId_of_newest hm).symm.trans heq)

theorem slice_sublist {α : Type} {take skip : Nat} {rows : List α} :
    (MessagesService.slice take skip rows).Sublist rows := by
  unfold MessagesService.slice
  split
  · exact List.drop_sublist skip rows
  · exact (List.take_sublist take _).trans (List.drop_sublist skip rows)

theorem slice_map {α β : Type} {f : α → β} {take skip : Nat} {rows : List α} :
    MessagesService.slice take skip (rows.map f) =
      (MessagesService.slice take skip rows).map f := by
  unfold MessagesService.slice
  split
  · rw [List.map_drop]
  · rw [List.map_take, List.map_drop]

/-- Messages outside the channel are known from their sealed forms. -/
theorem eq_of_map_sealed {ms ms' : List Message}
    (h : ms.map (Message.sealed c) = ms'.map (Message.sealed c))
    (hms : ∀ m ∈ ms, m.channelId ≠ some c) : ms = ms' := by
  induction ms generalizing ms' with
  | nil => exact (List.map_eq_nil_iff.mp h.symm).symm
  | cons m ms ih =>
    cases ms' with
    | nil => exact nomatch h
    | cons m' ms' =>
      obtain ⟨hhead, htail⟩ := List.cons.inj h
      rw [Message.eq_of_sealed hhead (hms m List.mem_cons_self),
        ih htail fun x hx => hms x (List.mem_cons_of_mem m hx)]

theorem listing_same (hst : SameOutside c s t) {m : Message} (hm : repliesInto s c m = false) :
    MessagesService.listing s m = MessagesService.listing t m := by
  have hsummary : ∀ id, s.relatedSummary id = t.relatedSummary id :=
    fun id => hst.same (q := fun db => db.relatedSummary id) fun _ => rfl
  simp only [MessagesService.listing, hsummary, reply_eq hst hm]

/-- A listing whose page shows nothing of the channel. -/
theorem list_same {ch : Channel} {limit offset : Nat} {selected : Database → List Message}
    (hst : SameOutside c s t)
    (hselected : ∀ db, selected (db.sealed c) = (selected db).map (Message.sealed c))
    (hshows : (MessagesService.slice limit offset (selected s)).any (showsChannel s c) = false) :
    SameResult (SameOutside c) id (MessagesService.list ch user limit offset selected s)
      (MessagesService.list ch user limit offset selected t) := by
  have hsealed : (MessagesService.slice limit offset (selected s)).map (Message.sealed c) =
      (MessagesService.slice limit offset (selected t)).map (Message.sealed c) := by
    rw [← slice_map, ← slice_map, ← hselected, ← hselected]
    exact congrArg (fun db => MessagesService.slice limit offset (selected db)) hst
  have hnot : ∀ m ∈ MessagesService.slice limit offset (selected s),
      m.channelId ≠ some c ∧ repliesInto s c m = false := by
    intro m hm
    simpa [showsChannel] using List.any_eq_false.mp hshows m hm
  have hsame := eq_of_map_sealed hsealed fun m hm => (hnot m hm).1
  unfold MessagesService.list
  cases ch.isPrivate && ch.createdById ≠ some user.id with
  | true => exact ⟨rfl, hst⟩
  | false =>
    refine ⟨?_, hst⟩
    show (MessagesService.slice limit offset (selected s)).map _ =
      (MessagesService.slice limit offset (selected t)).map _
    rw [← hsame]
    exact List.map_congr_left fun m hm => listing_same hst (hnot m hm).2

/-- A page of a channel that the user may read. -/
def page (db : Database) (user : Profile) (channelId : String) (limit offset : Nat) :
    List Message :=
  (visibleChannel db user channelId).elim [] fun ch =>
    MessagesService.slice limit offset (MessagesService.newest ch.id db)

/-- The channel that `findOne` returns to the user for an id of a payload: any for a missing one. -/
def visibleChannelOf (env : Env) (db : Database) (user : Profile) :
    BodyField String → Option Channel
  | .value channelId => visibleChannel db user channelId
  | .absent | .null => (Rows.pick (env.pick 0) (fun _ => true) db.channels).filter fun c =>
      !(c.isPrivate && c.createdById ≠ some user.id)

/-- A page of what the user is shown for an id of a payload: without one, of all channels. -/
def pageOf (env : Env) (db : Database) (user : Profile) (limit offset : Nat) :
    BodyField String → List Message
  | .value channelId => page db user channelId limit offset
  | .absent | .null => (visibleChannelOf env db user .absent).elim [] fun _ =>
      MessagesService.slice limit offset (MessagesService.newestOfAll db)

/-- The channel is private, and somebody else's. -/
def Guarded (c u : Uuid) (db : Database) : Prop :=
  ∃ ch, db.channelById c = some ch ∧ ch.isPrivate = true ∧ ch.createdById ≠ some u

instance : Decidable (Guarded c u db) :=
  decidable_of_iff
    ((db.channelById c).any (fun ch => ch.isPrivate ∧ ch.createdById ≠ some u) = true)
    (by simp [Guarded, Option.any_eq_true])

/-- A channel that the user may see is another one. -/
theorem Guarded.ne (h : Guarded c user.id db) {key : Uuid} {ch : Channel}
    (hfound : db.channelById key = some ch)
    (haccess : (ch.isPrivate && ch.createdById ≠ some user.id) = false) : key ≠ c := by
  rintro rfl
  obtain ⟨ch', hch', hprivate, hcreator⟩ := h
  obtain rfl : ch = ch' := Option.some.inj (hfound.symm.trans hch')
  simp [hprivate, hcreator] at haccess

theorem findAll_same {channelId : String} {limit offset : Nat} (hst : SameOutside c s t)
    (hguarded : Guarded c user.id s)
    (hreplies : (page s user channelId limit offset).any (repliesInto s c) = false) :
    SameResult (SameOutside c) id (MessagesService.findAll channelId user limit offset s)
      (MessagesService.findAll channelId user limit offset t) := by
  refine (agrees_uuidOf channelId s t hst).bind ?_
  intro key _ s₁ t₁ hkey _ hsame hst₁
  obtain rfl : key = _ := hsame
  obtain ⟨hparse, hs₁⟩ := uuidOf_ok hkey
  rw [hs₁] at hst₁ ⊢
  refine (outside_findChannel key s t₁ hst₁).bind ?_
  intro ch _ s₂ t₂ hch _ hsame hst₂
  obtain rfl : ch = _ := hsame
  obtain ⟨hs₂, hfound, haccess⟩ := ChannelsService.findChannel_wp.of_ok hch
  rw [hs₂] at hst₂ ⊢
  have hvisible : visibleChannel s user channelId = some ch :=
    visibleChannel_eq_some.mpr ⟨key, hparse, hfound, haccess⟩
  have hid : ch.id = key := by simpa using List.find?_some hfound
  have hother : key ≠ c := hguarded.ne hfound haccess
  refine list_same hst₂ (newest_sealed · key) ?_
  simp only [page, hvisible, Option.elim_some, hid, List.any_eq_false] at hreplies ⊢
  intro m hm
  have hchannel : m.channelId = some key := channelId_of_newest (slice_sublist.subset hm)
  simpa [showsChannel, hchannel, hother] using hreplies m hm

/-- A listing for an id of a payload, whose page shows nothing of the channel. -/
theorem findAllOf_same {channelId : BodyField String} {limit offset : Nat}
    (hst : SameOutside c s t) (hguarded : Guarded c user.id s)
    (hshows : (pageOf env s user limit offset channelId).any (showsChannel s c) = false) :
    SameResult (SameOutside c) id (MessagesService.findAllOf env channelId user limit offset s)
      (MessagesService.findAllOf env channelId user limit offset t) := by
  have hany : (pageOf env s user limit offset .absent).any (showsChannel s c) = false →
      SameResult (SameOutside c) id
        (MessagesService.findAllOf env .absent user limit offset s)
        (MessagesService.findAllOf env .absent user limit offset t) := by
    intro hshows
    refine (outside_findAnyChannel s t hst).bind ?_
    intro ch _ s₁ t₁ hch _ hsame hst₁
    obtain rfl : ch = _ := hsame
    obtain ⟨hs₁, hpick, haccess⟩ := ChannelsService.findAnyChannel_wp.of_ok hch
    rw [hs₁] at hst₁ ⊢
    have hvisible : visibleChannelOf env s user .absent = some ch :=
      Option.filter_eq_some_iff.mpr ⟨hpick, by rw [haccess]; rfl⟩
    rw [pageOf, hvisible] at hshows
    exact list_same hst₁ newestOfAll_sealed hshows
  cases channelId with
  | value channelId =>
    refine findAll_same hst hguarded ?_
    refine List.any_eq_false.mpr fun m hm hreplies => ?_
    exact List.any_eq_false.mp hshows m hm (by rw [showsChannel, hreplies, Bool.or_true])
  | absent => exact hany hshows
  | null => exact hany hshows

theorem search_same {q channelId : String} (hst : SameOutside c s t)
    (hempty : storable q = true → Uuid.parse channelId = some c → MessagesService.newest c s = []) :
    SameResult (SameOutside c) id (MessagesService.search X q channelId s)
      (MessagesService.search X q channelId t) := by
  cases hstorable : storable q with
  | false =>
    simp only [MessagesService.search, hstorable]
    exact ⟨rfl, hst⟩
  | true =>
    simp only [MessagesService.search, hstorable]
    refine (agrees_uuidOf channelId s t hst).bind ?_
    intro key _ s₁ t₁ hkey _ hsame hst₁
    obtain rfl : key = _ := hsame
    obtain ⟨hparse, hs₁⟩ := uuidOf_ok hkey
    rw [hs₁] at hst₁ ⊢
    have hsummary : ∀ id, s.relatedSummary id = t₁.relatedSummary id :=
      fun id => hst₁.same (q := fun db => db.relatedSummary id) fun _ => rfl
    have hnewest : MessagesService.newest key s = MessagesService.newest key t₁ := by
      by_cases hkey : key = c
      · have hlength := hst₁.same (q := fun db => (MessagesService.newest key db).length)
          fun db => by rw [newest_sealed, List.length_map]
        have hnil : MessagesService.newest key s = [] := by
          rw [hkey]
          exact hempty hstorable (hparse.trans (congrArg some hkey))
        rw [hnil] at hlength ⊢
        exact (List.eq_nil_of_length_eq_zero hlength.symm).symm
      · exact hst₁.same (q := MessagesService.newest key) fun db => newest_sealed_of_ne db hkey
    refine ⟨?_, hst₁⟩
    show List.map _ ((MessagesService.newest key s).filter _) =
      List.map _ ((MessagesService.newest key t₁).filter _)
    simp only [hnewest, hsummary]

/-- The message after the fields of the body. -/
def edited (env : Env) (d : UpdateMessageDto) (replyToId : Option Uuid) (m : Message) : Message :=
  { m with
    replyToId, content := d.content.nullable m.content
    attachments := d.attachments.nullable m.attachments
    metadata := d.metadata.nullable m.metadata, editedAt := some env.now, updatedAt := env.now }

/-- The messages after an edit of the one with the key. -/
def withEdit (env : Env) (d : UpdateMessageDto) (key : Uuid) (replyToId : Option Uuid)
    (db : Database) : Database :=
  { db with messages := Rows.modify (·.id = key) (edited env d replyToId) db.messages }

theorem messageById_withEdit {d : UpdateMessageDto} {key k : Uuid} {r : Option Uuid} :
    (withEdit env d key r db).messageById k =
      (db.messageById k).map fun m => if m.id = key then edited env d r m else m := by
  have hkept : (Rows.modify (·.id = key) (edited env d r) db.messages).find? (·.id = k) =
      (db.messages.find? (·.id = k)).map _ :=
    Rows.find?_modify_map (f := edited env d r) (c := Message.id) fun _ => rfl
  simp only [decide_eq_true_eq] at hkept
  exact hkept

theorem repliesInto_withEdit {d : UpdateMessageDto} {key : Uuid} {r : Option Uuid} {m : Message} :
    repliesInto (withEdit env d key r db) c m = repliesInto db c m := by
  unfold repliesInto
  cases m.replyToId with
  | none => rfl
  | some k =>
    rw [Option.bind_some, Option.bind_some, messageById_withEdit]
    cases db.messageById k with
    | none => rfl
    | some x =>
      rw [Option.map_some, Option.any_some, Option.any_some]
      split <;> rfl

theorem outside_withEdit {d : UpdateMessageDto} {key : Uuid} {r : Option Uuid} :
    Agrees (SameOutside c) (write (withEdit env d key r) : Service Unit) := by
  refine .save fun db => ?_
  refine congrArg (fun ms => { db with messages := ms }) (db.sealed_modify ?_ ?_)
  · exact fun m => by rw [m.sealed_id]
  · intro m
    by_cases hm : m.channelId = some c
    · simp [Message.sealed, edited, hm]
    · rw [m.sealed_of_ne hm]

/-- The message that an update answers with, before the edit. -/
def updated (db : Database) (user : Profile) (text : String) (d : UpdateMessageDto) :
    Option Message :=
  (storedMessage db text).bind fun m =>
    if mayChange user m.authorId ∧ d.storable = true then
      ((MessagesService.replyTarget m.replyToId d.replyToId).outcome db).toOption.map
        fun r => { m with replyToId := r }
    else none

theorem update_same {text : String} {d : UpdateMessageDto} (hst : SameOutside c s t)
    (hshows : (updated s user text d).any (showsChannel s c) = false) :
    SameResult (SameOutside c) id (MessagesService.update env text d user s)
      (MessagesService.update env text d user t) := by
  refine (agrees_uuidOf text s t hst).bind ?_
  intro key _ s₁ t₁ hkey _ hsame hst₁
  obtain rfl : key = _ := hsame
  obtain ⟨hparse, hs₁⟩ := uuidOf_ok hkey
  rw [hs₁] at hst₁ ⊢
  refine (outside_findMessage key s t₁ hst₁).bind ?_
  intro m m' s₂ t₂ hm _ hmm' hst₂
  obtain ⟨hs₂, hfound⟩ := MessagesService.findMessage_wp.of_ok hm
  rw [hs₂] at hst₂ ⊢
  have hauthor : m.authorId = m'.authorId := by
    rw [← m.sealed_authorId (c := c), hmm', Message.sealed_authorId]
  have hreply : m.replyToId = m'.replyToId := by
    rw [← m.sealed_replyToId (c := c), hmm', Message.sealed_replyToId]
  rw [← hauthor, ← hreply]
  cases hallowed : decide (m.authorId ≠ some user.id) && decide (user.role ≠ "admin") with
  | true => exact ⟨rfl, hst₂⟩
  | false =>
    cases hstorable : d.storable with
    | false => exact ⟨rfl, hst₂⟩
    | true =>
      show SameResult _ id ((MessagesService.replyTarget m.replyToId d.replyToId >>= _) s)
        ((MessagesService.replyTarget m.replyToId d.replyToId >>= _) t₂)
      refine (outside_replyTarget m.replyToId d.replyToId s t₂ hst₂).bind ?_
      intro r _ s₃ t₃ hr _ hsame hst₃
      obtain rfl : r = _ := hsame
      have hs₃ : s₃ = s := wp_nullableReference.of_ok hr
      rw [hs₃] at hst₃ ⊢
      show SameResult _ id (MessagesService.findOne text (withEdit env d key r s))
        (MessagesService.findOne text (withEdit env d key r t₃))
      refine findOne_same (outside_withEdit s t₃ hst₃).2 ?_
      -- the message that is read back is the edited one, and it does not show the channel either
      have hedited : storedMessage (withEdit env d key r s) text = some (edited env d r m) := by
        have hid : m.id = key := by
          simpa using List.find?_some (Option.filter_eq_some_iff.mp hfound).1
        refine MessagesService.storedMessage_eq_some.mpr ⟨key, hparse, ?_⟩
        rw [messageById_withEdit, (Option.filter_eq_some_iff.mp hfound).1, Option.map_some,
          if_pos hid]
        exact Option.filter_eq_some_iff.mpr ⟨rfl, (Option.filter_eq_some_iff.mp hfound).2⟩
      have hupdated : updated s user text d = some { m with replyToId := r } := by
        have hstored : storedMessage s text = some m :=
          MessagesService.storedMessage_eq_some.mpr ⟨key, hparse, hfound⟩
        have hchange : mayChange user m.authorId = true := by rw [mayChange, hallowed]; rfl
        simp [updated, hstored, hchange, hstorable, outcome, hr, Except.toOption]
      rw [hupdated, Option.any_some] at hshows
      rw [hedited, Option.any_some, showsChannel, repliesInto_withEdit]
      exact hshows

/-! ### Requests -/

/-- The answer depends on what is written in the channel. -/
def MessageRoute.leaks (db : Database) (user : Profile) (c : Uuid) : MessageRoute → Bool
  | .findAll channelId limit offset =>
    (page db user channelId limit offset).any (repliesInto db c)
  | .search channelId q =>
    storable q && (Uuid.parse channelId = some c ∧ MessagesService.newest c db ≠ [])
  | .findOne id => (storedMessage db id).any (showsChannel db c)
  | .update id d => (updated db user id d).any (showsChannel db c)
  | .create _ _ | .remove _ => false

theorem messagesController_same {r : MessageRoute} (hst : SameOutside c s t)
    (hguarded : Guarded c user.id s) (hleaks : r.leaks s user c = false) :
    SameResult (SameOutside c) id (messagesController X env user r s)
      (messagesController X env user r t) := by
  have mapped : ∀ {α : Type} {m : Service α} {f : α → Body},
      SameResult (SameOutside c) id (m s) (m t) →
      SameResult (SameOutside c) id ((f <$> m) s) ((f <$> m) t) :=
    fun {_ _ f} h => SameResult.map (h.image (w := f))
  cases r with
  | create channelId d => exact mapped (outside_create d _ s t hst)
  | findAll channelId limit offset => exact mapped (findAll_same hst hguarded hleaks)
  | search channelId q =>
    refine mapped (search_same hst fun hstorable hc => ?_)
    by_contra hne
    simp [MessageRoute.leaks, hstorable, hc, hne] at hleaks
  | findOne id => exact mapped (findOne_same hst hleaks)
  | update id d => exact mapped (update_same hst hleaks)
  | remove id => exact mapped (outside_remove id s t hst)

end VoxLink
