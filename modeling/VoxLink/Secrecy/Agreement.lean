import VoxLink.Backend.Gateway

/-! Two databases that differ in nothing but passwords, and the services that behave alike on
them. -/

namespace VoxLink

open ProofKit Prog

/-- A row of `users` with its password blanked. -/
def User.hidden (u : User) : User := { u with password := none }

/-- The database with all passwords blanked. -/
def Database.hidden (db : Database) : Database := { db with users := db.users.map User.hidden }

/-- The databases agree on everything except passwords. -/
abbrev SamePublic : Database → Database → Prop := SameUnder Database.hidden

@[simp] theorem User.hidden_hidden (u : User) : u.hidden.hidden = u.hidden := rfl

namespace Database

variable (db : Database)

theorem hidden_hidden : db.hidden.hidden = db.hidden := by
  simp only [hidden, List.map_map]
  rfl

/-- A search among the users that looks at no password. -/
theorem find?_hidden {p : User → Bool} (hp : ∀ u : User, p u.hidden = p u) :
    db.hidden.users.find? p = (db.users.find? p).map User.hidden := by
  simp only [hidden, List.find?_map]
  congr 2
  exact funext hp

theorem userById_hidden (id : Uuid) :
    db.hidden.userById id = (db.userById id).map User.hidden :=
  db.find?_hidden fun _ => rfl

theorem profile_hidden (id : Uuid) :
    (db.hidden.userById id).map User.toProfile = (db.userById id).map User.toProfile := by
  rw [userById_hidden, Option.map_map]
  rfl

theorem userById_isSome_hidden (id : Uuid) :
    (db.hidden.userById id).isSome = (db.userById id).isSome := by
  rw [userById_hidden, Option.isSome_map]

theorem related_hidden (id : Option Uuid) :
    db.hidden.related id = (db.related id).map User.hidden := by
  cases id with
  | none => rfl
  | some id => exact db.userById_hidden id

theorem relatedSummary_hidden (id : Option Uuid) :
    db.hidden.relatedSummary id = db.relatedSummary id := by
  rw [relatedSummary, related_hidden, Option.map_map]
  rfl

/-- A test of the users that looks at no password. -/
theorem any_hidden {p : User → Bool} (hp : ∀ u : User, p u.hidden = p u) :
    db.hidden.users.any p = db.users.any p := by
  simp only [hidden, List.any_map]
  congr 1
  exact funext hp

/-- An update of the users that looks at no password. -/
theorem hidden_modify {p : User → Bool} {f : User → User} (hp : ∀ u : User, p u.hidden = p u)
    (hf : ∀ u : User, (f u.hidden).hidden = (f u).hidden) :
    (Rows.modify p f db.hidden.users).map User.hidden =
      (Rows.modify p f db.users).map User.hidden := by
  simp only [Rows.modify, hidden, List.map_map]
  refine List.map_congr_left fun u _ => ?_
  simp only [Function.comp_apply, hp]
  split
  · exact hf u
  · rfl

end Database

/-! ### Rules -/

section Rules

variable {α β : Type}

/-- A write to other tables than `users`. -/
theorem agrees_write {w : Database → Database} {v : Unit → β}
    (h : ∀ db : Database, w db.hidden = (w db).hidden) :
    AgreesVia SamePublic v (write w : Service Unit) :=
  .commutes Database.hidden_hidden h

variable {σ : Type} {R : σ → σ → Prop}

theorem agrees_uuidOf (s : String) : Agrees R (uuidOf s : Prog Exception σ Uuid) := .orThrow _ _

theorem agrees_column (name : String) (a : Option α) :
    Agrees R (column name a : Prog Exception σ α) :=
  .orThrow _ _

theorem agrees_references (name : String) (found : Bool) :
    Agrees R (references name found : Prog Exception σ Unit) :=
  .throwIf _ _

theorem agrees_texts (ok : Bool) : Agrees R (texts ok : Prog Exception σ Unit) := .throwIf _ _

/-- A reference to a row of a table that is seen. -/
theorem agrees_nullableReference {name : String} {found : σ → Uuid → Bool}
    (hfound : ∀ id, Agrees R (query fun s => found s id : Prog Exception σ Bool))
    (old : Option Uuid) (d : BodyField String) :
    Agrees R (nullableReference name found old d) := by
  cases d with
  | absent => exact .pure _
  | null => exact .pure _
  | value s =>
    refine .bind (agrees_uuidOf s) fun id => .bind (hfound id) fun _ => ?_
    exact .bind (agrees_references _ _) fun _ => .pure _

theorem agrees_integerColumn (name : String) (bits : Nat) (old : Int) (d : BodyField ℚ) :
    Agrees R (integerColumn name bits old d : Prog Exception σ Int) := by
  cases d with
  | absent => exact .pure _
  | null => exact .throw _
  | value q => exact .orThrow _ _

/-- Whether the caller is still stored. -/
theorem agrees_stored (id : Uuid) :
    Agrees SamePublic (query fun db => (db.userById id).isSome : Service Bool) :=
  .read fun db => db.userById_isSome_hidden id

end Rules

variable {X : Externals} {env : Env} {user : Profile}

/-! ### Users -/

namespace UsersService

theorem uniqueColumns_agrees (self : Uuid) (username : String) (email : Option String) :
    Agrees SamePublic (uniqueColumns self username email) := by
  refine .bind (.read fun db => db.any_hidden fun _ => rfl) fun _ => ?_
  refine .bind (.throwIf _ _) fun _ => ?_
  exact .bind (.read fun db => db.any_hidden fun _ => rfl) fun _ => .throwIf _ _

theorem create_agrees (d : UserData) : Agrees SamePublic (create env d) := by
  refine .bind (agrees_texts _) fun _ => .bind (agrees_column _ _) fun role => ?_
  refine .bind (agrees_column _ _) fun status => .bind ?_ fun _ => .pure _
  refine .bind (uniqueColumns_agrees _ _ _) fun _ => .save fun db => ?_
  simp only [Database.hidden, List.map_append, List.map_map]
  rfl

theorem findAll_agrees : Agrees SamePublic findAll := by
  refine .read fun db => ?_
  simp only [Database.hidden, List.map_map]
  rfl

theorem profile_agrees (id : Uuid) : Agrees SamePublic (profile id) :=
  .bind (.read fun db => db.profile_hidden id) fun _ => .orThrow _ _

theorem findById_agrees (id : String) : Agrees SamePublic (findById id) :=
  .bind (agrees_uuidOf id) profile_agrees

theorem updateRow_agrees (id : Uuid) (d : UpdateUserDto) :
    Agrees SamePublic (updateRow env id d) := by
  refine .bind (agrees_texts _) fun _ => .bind (.read fun db => db.profile_hidden id) fun old => ?_
  cases old with
  | none => exact .pure _
  | some old =>
    refine .bind (agrees_column _ _) fun _ => .bind (agrees_column _ _) fun _ => ?_
    refine .bind (uniqueColumns_agrees _ _ _) fun _ => .save fun db => ?_
    exact congrArg (Database.mk · _ _ _ _ _ _ _)
      (db.hidden_modify (fun _ => rfl) fun _ => by cases d.password <;> rfl)

theorem update_agrees (id : String) (d : UpdateUserDto) :
    Agrees SamePublic (update env id d) :=
  .bind (agrees_uuidOf id) fun id => .bind (updateRow_agrees id d) fun _ => profile_agrees id

theorem updateStatus_agrees (id : Uuid) (status : String) :
    Agrees SamePublic (updateStatus env id status) := by
  refine .bind (.save fun db => ?_) fun _ => profile_agrees id
  exact congrArg (Database.mk · _ _ _ _ _ _ _) (db.hidden_modify (fun _ => rfl) fun _ => rfl)

theorem remove_agrees (id : String) : Agrees SamePublic (remove id) := by
  refine .bind (agrees_uuidOf id) fun id => ?_
  refine .bind (.read fun db => db.any_hidden fun _ => rfl) fun _ => ?_
  refine .bind (.throwIf _ _) fun _ => .bind (.read fun _ => rfl) fun _ => ?_
  refine .bind (.throwIf _ _) fun _ => .save fun db => ?_
  simp only [Database.deleteUser, Database.hidden, Rows.remove, List.filter_map, List.map_map]
  rfl

theorem search_agrees (q : String) : Agrees SamePublic (search X q) := by
  refine .bind (agrees_texts _) fun _ => .read fun db => ?_
  simp only [Database.hidden, List.filter_map, List.map_map]
  rfl

end UsersService

/-! ### Channels -/

/-- A loaded channel with the password of its creator blanked. -/
def ChannelView.hidden (c : ChannelView User) : ChannelView User :=
  { c with createdBy := c.createdBy.map User.hidden }

theorem related_agrees (id : Option Uuid) :
    AgreesVia SamePublic (Option.map User.hidden)
      (query fun db => db.related id : Service (Option User)) :=
  .read fun db => by simp [db.related_hidden, Function.comp_def]

theorem channelTarget_agrees (old : Option Uuid) (d : BodyField String) :
    Agrees SamePublic (channelTarget old d) := by
  refine agrees_nullableReference (fun id => ?_) old d
  exact .read fun _ => rfl

namespace ChannelsService

theorem create_agrees (d : CreateChannelDto) : Agrees SamePublic (create env d user) := by
  refine .bind (agrees_texts _) fun _ => .bind (agrees_column _ _) fun _ => ?_
  refine .bind (agrees_stored _) fun _ => .bind (agrees_references _ _) fun _ => ?_
  exact .bind (agrees_write fun _ => rfl) fun _ => .pure _

theorem findAll_agrees : Agrees SamePublic findAll := by
  refine .read fun db => ?_
  simp only [Database.relatedSummary_hidden]
  rfl

theorem accessible_agrees (channel : Option Channel) :
    Agrees SamePublic (accessible channel user) :=
  .bind (.orThrow _ _) fun _ => .bind (.throwIf _ _) fun _ => .pure _

theorem findChannel_agrees (id : Uuid) : Agrees SamePublic (findChannel id user) :=
  .bind (.read fun _ => rfl) fun _ => accessible_agrees _

theorem findAnyChannel_agrees : Agrees SamePublic (findAnyChannel env user) :=
  .bind (.read fun _ => rfl) fun _ => accessible_agrees _

theorem findOne_agrees (id : String) :
    AgreesVia SamePublic ChannelView.hidden (findOne id user) := by
  refine .bind (agrees_uuidOf id) fun id => .bind (findChannel_agrees id) fun channel => ?_
  refine (related_agrees _).bind_via fun a b hab s t hst => ⟨?_, hst⟩
  exact congrArg (ChannelView.mk channel) hab

theorem findOneOf_agrees (id : BodyField String) :
    AgreesVia SamePublic ChannelView.hidden (findOneOf env id user) := by
  cases id with
  | value id => exact findOne_agrees id
  | absent | null =>
    refine .bind findAnyChannel_agrees fun channel => ?_
    refine (related_agrees _).bind_via fun a b hab s t hst => ⟨?_, hst⟩
    exact congrArg (ChannelView.mk channel) hab

theorem updateRow_agrees (id : Uuid) (old : Channel) (d : UpdateChannelDto) :
    Agrees SamePublic (updateRow env id old d) := by
  refine .bind (.throwIf _ _) fun _ => .bind (agrees_texts _) fun _ => ?_
  refine .bind (agrees_column _ _) fun _ => .bind (agrees_column _ _) fun _ => ?_
  exact .bind (agrees_column _ _) fun _ => agrees_write fun _ => rfl

theorem update_agrees (id : String) (d : UpdateChannelDto) :
    AgreesVia SamePublic ChannelView.hidden (update env id d user) := by
  refine .bind (agrees_uuidOf id) fun key => .bind (findChannel_agrees key) fun channel => ?_
  refine .bind (.throwIf _ _) fun _ => ?_
  exact .bind (updateRow_agrees key channel d) fun _ => findOne_agrees id

theorem deleteRow_agrees (id : Uuid) : Agrees SamePublic (deleteRow id) :=
  .bind (.read fun _ => rfl) fun _ => .bind (.throwIf _ _) fun _ => agrees_write fun _ => rfl

theorem remove_agrees (id : String) : Agrees SamePublic (remove id user) := by
  refine .bind (agrees_uuidOf id) fun key => .bind (findChannel_agrees key) fun _ => ?_
  exact .bind (.throwIf _ _) fun _ => deleteRow_agrees key

theorem search_agrees (q : String) : Agrees SamePublic (search X q) := by
  refine .bind (agrees_texts _) fun _ => .read fun db => ?_
  simp only [Database.relatedSummary_hidden]
  rfl

end ChannelsService

/-! ### Messages -/

def MessageView.hidden (m : MessageView User) : MessageView User :=
  { m with author := m.author.map User.hidden }

namespace MessagesService

theorem replyTarget_agrees (old : Option Uuid) (d : BodyField String) :
    Agrees SamePublic (replyTarget old d) := by
  refine agrees_nullableReference (fun id => ?_) old d
  exact .read fun _ => rfl

theorem create_agrees (d : CreateMessageDto) (channelId : BodyField String) :
    Agrees SamePublic (create env d user channelId) := by
  refine .bind (agrees_texts _) fun _ => .bind (channelTarget_agrees _ _) fun _ => ?_
  refine .bind (agrees_stored _) fun _ => .bind (agrees_references _ _) fun _ => ?_
  refine .bind (replyTarget_agrees _ _) fun _ => ?_
  exact .bind (agrees_write fun _ => rfl) fun _ => .pure _

theorem listing_hidden (db : Database) (m : Message) : listing db.hidden m = listing db m := by
  simp only [listing, Database.relatedSummary_hidden]
  rfl

/-- What a selection by the messages alone lists. -/
theorem list_agrees (channel : Channel) (limit offset : Nat) {selected : Database → List Message}
    (hselected : ∀ db, selected db.hidden = selected db) :
    Agrees SamePublic (list channel user limit offset selected) := by
  refine .bind (.throwIf _ _) fun _ => .read fun db => ?_
  rw [hselected]
  exact List.map_congr_left fun m _ => listing_hidden db m

theorem findAll_agrees (channelId : String) (limit offset : Nat) :
    Agrees SamePublic (findAll channelId user limit offset) := by
  refine .bind (agrees_uuidOf _) fun id => ?_
  exact .bind (ChannelsService.findChannel_agrees id) fun _ => list_agrees _ _ _ fun _ => rfl

theorem findAllOf_agrees (channelId : BodyField String) (limit offset : Nat) :
    Agrees SamePublic (findAllOf env channelId user limit offset) := by
  cases channelId with
  | value channelId => exact findAll_agrees channelId limit offset
  | absent | null =>
    exact .bind ChannelsService.findAnyChannel_agrees fun _ => list_agrees _ _ _ fun _ => rfl

theorem findMessage_agrees (id : Uuid) : Agrees SamePublic (findMessage id) :=
  .bind (.read fun _ => rfl) fun _ => .orThrow _ _

theorem findOne_agrees (id : String) :
    AgreesVia SamePublic MessageView.hidden (findOne id) := by
  refine .bind (agrees_uuidOf id) fun id => .bind (findMessage_agrees id) fun message => ?_
  refine (related_agrees _).bind_via fun a b hab s t hst => ⟨?_, hst⟩
  have hchannel : message.channelId.bind s.channelById = message.channelId.bind t.channelById :=
    hst.same (q := fun db => message.channelId.bind db.channelById) fun _ => rfl
  have hreplyTo : message.replyToId.bind s.messageById = message.replyToId.bind t.messageById :=
    hst.same (q := fun db => message.replyToId.bind db.messageById) fun _ => rfl
  show MessageView.mk message (a.map User.hidden) (message.channelId.bind s.channelById)
      (message.replyToId.bind s.messageById) = _
  rw [hab, hchannel, hreplyTo]
  rfl

theorem update_agrees (id : String) (d : UpdateMessageDto) :
    AgreesVia SamePublic MessageView.hidden (update env id d user) := by
  refine .bind (agrees_uuidOf id) fun key => .bind (findMessage_agrees key) fun _ => ?_
  refine .bind (.throwIf _ _) fun _ => .bind (agrees_texts _) fun _ => ?_
  refine .bind (replyTarget_agrees _ _) fun _ => ?_
  exact .bind (agrees_write fun _ => rfl) fun _ => findOne_agrees id

theorem remove_agrees (id : String) : Agrees SamePublic (remove env id user) := by
  refine .bind (agrees_uuidOf id) fun key => .bind (findMessage_agrees key) fun _ => ?_
  exact .bind (.throwIf _ _) fun _ => agrees_write fun _ => rfl

theorem search_agrees (q channelId : String) : Agrees SamePublic (search X q channelId) := by
  refine .bind (agrees_texts _) fun _ => .bind (agrees_uuidOf _) fun _ => .read fun db => ?_
  simp only [Database.relatedSummary_hidden]
  rfl

end MessagesService

/-! ### Events -/

def EventView.hidden (e : EventView User) : EventView User :=
  { e with createdBy := e.createdBy.map User.hidden }

namespace EventsService

theorem create_agrees (d : CreateEventDto) : Agrees SamePublic (create X env d user) := by
  refine .bind (agrees_texts _) fun _ => .bind (agrees_column _ _) fun _ => ?_
  refine .bind (agrees_stored _) fun _ => .bind (agrees_references _ _) fun _ => ?_
  refine .bind (channelTarget_agrees _ _) fun _ => ?_
  exact .bind (agrees_write fun _ => rfl) fun _ => .pure _

theorem selection_agrees (channelId : Option String) :
    Agrees SamePublic (selection channelId) := by
  cases channelId with
  | none => exact .pure _
  | some s =>
    dsimp only [selection]
    split
    · exact .pure _
    · exact .map (agrees_uuidOf s).via

theorem findAll_agrees (channelId : Option String) : Agrees SamePublic (findAll channelId) := by
  refine .bind (selection_agrees channelId) fun _ => .read fun db => ?_
  simp only [Database.relatedSummary_hidden]
  rfl

theorem view_hidden (db : Database) (e : Event) :
    (view db.hidden e).hidden = (view db e).hidden := by
  simp only [view, EventView.hidden, db.related_hidden, Option.map_map]
  rfl

theorem findEvent_agrees (id : Uuid) : Agrees SamePublic (findEvent id) :=
  .bind (.read fun _ => rfl) fun _ => .orThrow _ _

theorem findOne_agrees (id : String) : AgreesVia SamePublic EventView.hidden (findOne id) := by
  refine .bind (agrees_uuidOf id) fun id => .bind (findEvent_agrees id) fun event => ?_
  exact .read fun db => view_hidden db event

theorem update_agrees (id : String) (d : UpdateEventDto) :
    AgreesVia SamePublic EventView.hidden (update X env id d user) := by
  refine .bind (agrees_uuidOf id) fun key => .bind (findEvent_agrees key) fun _ => ?_
  refine .bind (.throwIf _ _) fun _ => .bind (agrees_texts _) fun _ => ?_
  refine .bind (agrees_column _ _) fun _ => .bind (agrees_column _ _) fun _ => ?_
  refine .bind (agrees_column _ _) fun _ => .bind (channelTarget_agrees _ _) fun _ => ?_
  exact .bind (agrees_write fun _ => rfl) fun _ => findOne_agrees id

theorem remove_agrees (id : String) : Agrees SamePublic (remove id user) := by
  refine .bind (agrees_uuidOf id) fun key => .bind (findEvent_agrees key) fun _ => ?_
  exact .bind (.throwIf _ _) fun _ => agrees_write fun _ => rfl

theorem findUpcoming_agrees (days : Nat) :
    AgreesVia SamePublic (List.map EventView.hidden) (findUpcoming env days) := by
  refine .read fun db => ?_
  simp only [List.map_map]
  exact List.map_congr_left fun e _ => view_hidden db e

end EventsService

/-! ### Administration -/

namespace AdminService

theorem requireAdmin_agrees : Agrees SamePublic (requireAdmin user) := .throwIf _ _

theorem setRole_agrees (id : Uuid) (role : String) (metadata : UserMetadata) :
    Agrees SamePublic (setRole env id role metadata) := by
  refine .save fun db => ?_
  exact congrArg (Database.mk · _ _ _ _ _ _ _) (db.hidden_modify (fun _ => rfl) fun _ => rfl)

theorem adminController_agrees (r : AdminRoute) :
    Agrees SamePublic (adminController env user r) := by
  cases r with
  | getStats =>
    refine .map (.bind requireAdmin_agrees fun _ => .read fun db => ?_)
    simp [Database.hidden]
  | banUser id reason =>
    exact .map (.bind requireAdmin_agrees fun _ => .bind (agrees_uuidOf id) fun _ =>
      .bind (agrees_texts _) fun _ => (setRole_agrees _ _ _).via)
  | unbanUser id =>
    exact .map (.bind requireAdmin_agrees fun _ => .bind (agrees_uuidOf id) fun _ =>
      (setRole_agrees _ _ _).via)
  | deleteChannel id =>
    exact .map (.bind requireAdmin_agrees fun _ => .bind (agrees_uuidOf id) fun _ =>
      (ChannelsService.deleteRow_agrees _).via)
  | deleteMessage id =>
    exact .map (.bind requireAdmin_agrees fun _ => .bind (agrees_uuidOf id) fun _ =>
      agrees_write fun _ => rfl)
  | getUserActivity id =>
    exact .map (.bind requireAdmin_agrees fun _ => .bind (agrees_uuidOf id) fun _ =>
      .read fun _ => rfl)

end AdminService

end VoxLink
