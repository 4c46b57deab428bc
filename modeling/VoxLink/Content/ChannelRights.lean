import VoxLink.Guilds.ChannelAccess
import VoxLink.Secrecy.PrivateRuns

/-! Who may change or delete a channel. `update` and `remove` ask first whether the caller sees the
channel and then whether he is its creator or an admin; `update` asks the first again of the new
row. -/

namespace VoxLink

open ProofKit Prog

variable {env : Env} {db : Database} {id : String} {d : UpdateChannelDto} {user : Profile}

/-- The caller is the creator of the channel. -/
def Channel.createdBy (c : Channel) (user : Profile) : Bool := c.createdById = some user.id

namespace ChannelsService

/-- The checks of `update` and `remove` before they write. -/
def authorise (message id : String) (user : Profile) : Service (Uuid × Channel) := do
  let key ← uuidOf id
  let channel ← findChannel key user
  throwIf (channel.createdById ≠ some user.id && user.role ≠ "admin") (.forbidden message)
  pure (key, channel)

def authoriseUpdate (id : String) (user : Profile) : Service (Uuid × Channel) :=
  authorise "Only channel creator or admin can update channel" id user

def authoriseRemove (id : String) (user : Profile) : Service (Uuid × Channel) :=
  authorise "Only channel creator or admin can delete channel" id user

/-- `update` up to and with its write. -/
def writeUpdate (env : Env) (id : String) (d : UpdateChannelDto) (user : Profile) :
    Service Unit := do
  let found ← authoriseUpdate id user
  updateRow env found.1 found.2 d

theorem update_eq : update env id d user =
    (writeUpdate env id d user >>= fun _ => findOne id user) := by
  simp only [update, writeUpdate, authoriseUpdate, authorise, bind_assoc, pure_bind]

theorem remove_eq : remove id user =
    (authoriseRemove id user >>= fun found => deleteRow found.1) := by
  simp only [remove, authoriseRemove, authorise, bind_assoc, pure_bind]

/-- Whether the columns take the fields of the body. -/
def acceptable (d : UpdateChannelDto) : Bool :=
  d.permissions = .absent && d.storable && d.name ≠ .null && d.type ≠ .null && d.isPrivate ≠ .null

/-- The row after the fields of the body. -/
def updated (env : Env) (old : Channel) (d : UpdateChannelDto) (c : Channel) : Channel :=
  { c with
    name := (d.name.required old.name).getD old.name
    type := (d.type.required old.type).getD old.type
    isPrivate := (d.isPrivate.required old.isPrivate).getD old.isPrivate
    topic := d.topic.nullable c.topic, description := d.description.nullable c.description
    updatedAt := env.now }

theorem updateRow_runs {key : Uuid} {old : Channel} :
    wp (updateRow env key old d)
      (fun _ db' => acceptable d = true ∧
        db' = { db with channels := Rows.modify (·.id = key) (updated env old d) db.channels })
      (fun _ db' => acceptable d = false ∧ db' = db) db := by
  simp only [updateRow, wp_bind, wp_throwIf, wp_texts, wp_column, wp_write, acceptable]
  constructor
  · intro hpermissions
    refine ⟨fun hstorable => ?_, fun hstorable => by simp [hstorable]⟩
    refine ⟨fun name hname => ⟨fun type htype => ⟨fun isPrivate hprivate => ⟨?_, ?_⟩, ?_⟩, ?_⟩, ?_⟩
    · have hname' := BodyField.ne_null_of_required hname
      have htype' := BodyField.ne_null_of_required htype
      have hprivate' := BodyField.ne_null_of_required hprivate
      simpa [hstorable, hname', htype', hprivate'] using hpermissions
    · unfold updated
      simp only [hname, htype, hprivate, Option.getD_some]
    · intro hnull
      simp [BodyField.eq_null_of_required hnull]
    · intro hnull
      simp [BodyField.eq_null_of_required hnull]
    · intro hnull
      simp [BodyField.eq_null_of_required hnull]
  · intro hpermissions
    simp_all

/-- The rule of the two checks. -/
def authorised (db : Database) (id : String) (user : Profile) : Bool :=
  (storedChannel db id).any fun c => c.createdBy user || !c.isPrivate && user.role = "admin"

theorem authorise_runs {message : String} :
    wp (authorise message id user)
      (fun found db' => db' = db ∧ authorised db id user = true ∧ Uuid.parse id = some found.1 ∧
        db.channelById found.1 = some found.2)
      (fun _ db' => db' = db ∧ authorised db id user = false) db := by
  simp only [authorise, findChannel, accessible, wp_bind, wp_uuidOf, wp_query, wp_orThrow,
    wp_throwIf, wp_pure, authorised, storedChannel, Channel.createdBy]
  constructor
  · intro key hkey
    constructor
    · intro c hc
      cases hcreator : decide (c.createdById = some user.id) <;> cases hprivate : c.isPrivate <;>
        cases hadmin : decide (user.role = "admin") <;> simp_all
    · intro hnone
      simp [hkey, hnone]
  · intro hkey
    simp [hkey]

theorem authorise_passes (message : String) :
    (authorise message id user).passes db = authorised db id user := by
  rw [Bool.eq_iff_iff]
  apply wp.passes_iff
  refine authorise_runs.mono ?_ ?_
  · exact fun _ _ hruns => hruns.2.1
  · intro _ _ hruns hauthorised
    rw [hruns.2] at hauthorised
    exact nomatch hauthorised

/-! ### Updates that fail -/

/-- The update makes a public channel of somebody else private: then its caller, an admin, does not
see it any more. -/
def locksOut (db : Database) (id : String) (d : UpdateChannelDto) (user : Profile) : Bool :=
  authorised db id user && acceptable d && d.isPrivate = .value true &&
    (storedChannel db id).any fun c => !c.createdBy user

theorem writeUpdate_runs :
    wp (writeUpdate env id d user)
      (fun _ db' => authorised db id user = true ∧ acceptable d = true ∧
        ∃ key old, Uuid.parse id = some key ∧ db.channelById key = some old ∧
          db' = { db with channels := Rows.modify (·.id = key) (updated env old d) db.channels })
      (fun _ db' => (authorised db id user && acceptable d) = false ∧ db' = db) db := by
  rw [writeUpdate, wp_bind]
  apply authorise_runs.mono
  · rintro ⟨key, old⟩ _ ⟨rfl, hauthorised, hkey, hold⟩
    apply updateRow_runs.mono
    · rintro _ _ ⟨haccepted, rfl⟩
      exact ⟨hauthorised, haccepted, key, old, hkey, hold, rfl⟩
    · rintro _ _ ⟨hrefused, rfl⟩
      simp [hrefused]
  · rintro _ _ ⟨rfl, hrefused⟩
    simp [hrefused]

/-- The second read of the channel, after the write. -/
theorem findOne_updated {key : Uuid} {old : Channel} (hauthorised : authorised db id user = true)
    (haccepted : acceptable d = true) (hkey : Uuid.parse id = some key)
    (hold : db.channelById key = some old) :
    let db' := { db with channels := Rows.modify (·.id = key) (updated env old d) db.channels }
    wp (findOne id user) (fun _ db'' => db'' = db' ∧ locksOut db id d user = false)
      (fun _ db'' => db'' = db' ∧ locksOut db id d user = true) db' := by
  intro db'
  have hfound : db'.channelById key = some (updated env old d old) :=
    Rows.find?_modify (fun _ => rfl) hold
  have hchannel : storedChannel db id = some old := by rw [storedChannel, hkey]; exact hold
  simp only [findOne, findChannel, accessible, wp_bind, wp_uuidOf, wp_query, wp_orThrow, wp_throwIf,
    wp_pure, hkey, hfound, Option.some.injEq, forall_eq', reduceCtorEq, false_implies,
    and_true, true_and]
  simp only [locksOut, authorised, hchannel, Option.any_some, Channel.createdBy, haccepted,
    Bool.and_true] at hauthorised ⊢
  have hcolumn : d.isPrivate ≠ .null := by
    simp only [acceptable, Bool.and_eq_true, decide_eq_true_eq] at haccepted
    exact haccepted.2
  cases hprivate : d.isPrivate with
  | null => exact absurd hprivate hcolumn
  | absent =>
    simp only [updated, hprivate, BodyField.required, Option.getD_some]
    grind
  | value b =>
    simp only [updated, hprivate, BodyField.required, Option.getD_some, hauthorised]
    cases b <;> grind

/-- A failed update leaves the channels as they were, unless it is the second check that fails. -/
theorem update_atomic_iff (env : Env) (db : Database) (id : String) (d : UpdateChannelDto)
    (user : Profile) :
    ((update env id d user).passes db = false →
        ((update env id d user).final db).channels = db.channels) ↔
      locksOut db id d user = false := by
  have hruns : wp (update env id d user) (fun _ _ => locksOut db id d user = false)
      (fun _ db' => locksOut db id d user = false ∧ db' = db ∨
        locksOut db id d user = true ∧ db'.channels ≠ db.channels) db := by
    rw [update_eq, wp_bind]
    apply writeUpdate_runs.mono
    · rintro _ _ ⟨hauthorised, haccepted, key, old, hkey, hold, rfl⟩
      apply (findOne_updated hauthorised haccepted hkey hold).mono
      · exact fun _ _ hfound => hfound.2
      · rintro _ _ ⟨rfl, hlocked⟩
        refine .inr ⟨hlocked, fun hsame => ?_⟩
        -- the row was public and is private now
        have hchannel : storedChannel db id = some old := by rw [storedChannel, hkey]; exact hold
        simp only [locksOut, authorised, hchannel, Option.any_some, Bool.and_eq_true,
          decide_eq_true_eq, Bool.not_eq_true', Bool.or_eq_true] at hlocked
        have hpublic : old.isPrivate = false := by
          rcases hlocked.1.1.1 with hcreator | hadmin
          · exact nomatch hlocked.2.symm.trans hcreator
          · exact hadmin.1
        have hupdated : db.channels.find? (·.id = key) = some (updated env old d old) := by
          rw [← Rows.find?_modify (c := Channel.id) (f := updated env old d) (fun _ => rfl) hold]
          exact congrArg (List.find? _) hsame.symm
        have hrow : old = updated env old d old := Option.some.inj (hold.symm.trans hupdated)
        have hprivate : (updated env old d old).isPrivate = true := by
          simp [updated, hlocked.1.2, BodyField.required]
        rw [← hrow, hpublic] at hprivate
        exact nomatch hprivate
    · rintro _ _ ⟨hrefused, rfl⟩
      refine .inl ⟨?_, rfl⟩
      rw [locksOut, hrefused]
      rfl
  unfold wp at hruns
  unfold Prog.passes Prog.final
  split at hruns
  · exact iff_of_true nofun hruns
  · rcases hruns with ⟨hnot, rfl⟩ | ⟨hlocked, hchanged⟩
    · exact iff_of_true (fun _ => rfl) hnot
    · rw [hlocked]
      exact iff_of_false (fun hsame => hchanged (hsame rfl)) nofun

/-- Bob, an administrator, makes Alice's public channel private. -/
theorem othersChannel_not_atomic :
    let db := (channelOpened "secret").server.db
    let m := update (sampleEnv 4) openedChannel
      ⟨.absent, .absent, .absent, .absent, .value true, .absent⟩ { bob with role := "admin" }
    m.passes db = false ∧ (m.final db).channels ≠ db.channels := by
  decide +kernel

/-! ### The rule for managing a channel -/

/-- The channel exists, and the caller is its creator or an admin. -/
def mayManage (db : Database) (id : String) (user : Profile) : Bool :=
  (storedChannel db id).any fun c => c.createdBy user || user.role = "admin"

/-- An admin names a private channel of somebody else. -/
def hidden (db : Database) (id : String) (user : Profile) : Bool :=
  user.role = "admin" && (storedChannel db id).any fun c => c.isPrivate && !c.createdBy user

/-- The program deletes the channel that `id` names. -/
def deletes (m : Service Unit) (db : Database) (id : String) : Bool :=
  (storedChannel db id).isSome && (storedChannel (m.final db) id).isNone

/-- Creator or admin is the whole rule for a write of `update` and a delete of `remove`, and by it
an admin deletes with `remove` what he deletes with `AdminService.deleteChannel`. -/
structure Managed (env : Env) (db : Database) (id : String) (d : UpdateChannelDto)
    (user : Profile) :
    Prop where
  update : (writeUpdate env id d user).passes db = mayManage db id user
  remove : (authoriseRemove id user).passes db = mayManage db id user
  delete : user.role = "admin" →
    deletes (ChannelsService.remove id user) db id =
      deletes (AdminService.deleteChannel id user) db id

theorem authorised_eq : authorised db id user = (mayManage db id user && !hidden db id user) := by
  simp only [authorised, mayManage, hidden]
  cases storedChannel db id with
  | none => rfl
  | some c =>
    simp only [Option.any_some]
    cases c.createdBy user <;> cases c.isPrivate <;> cases decide (user.role = "admin") <;> rfl

theorem mayManage_of_hidden (h : hidden db id user = true) : mayManage db id user = true := by
  simp only [hidden, Bool.and_eq_true, Option.any_eq_true] at h
  obtain ⟨hadmin, c, hc, -⟩ := h
  simp [mayManage, hc, hadmin]

theorem writeUpdate_passes :
    (writeUpdate env id d user).passes db = (authorised db id user && acceptable d) := by
  rw [Bool.eq_iff_iff]
  apply wp.passes_iff
  apply writeUpdate_runs.mono
  · rintro _ _ ⟨hauthorised, haccepted, -⟩
    simp [hauthorised, haccepted]
  · rintro _ _ ⟨hrefused, -⟩
    simp [hrefused]

/-- For an admin to whom the channel is not hidden both ways of deleting come to the same. -/
theorem deletes_eq (hadmin : user.role = "admin") (hseen : hidden db id user = false) :
    deletes (remove id user) db id = deletes (AdminService.deleteChannel id user) db id := by
  unfold deletes
  cases hc : storedChannel db id with
  | none => rfl
  | some c =>
    obtain ⟨key, hkey, hfound⟩ := Option.bind_eq_some_iff.mp hc
    have hauthorised : authorised db id user = true := by
      rw [authorised_eq, hseen, mayManage, hc]
      simp [hadmin]
    have hpasses : (authoriseRemove id user).passes db = true :=
      (authorise_passes _).trans hauthorised
    obtain ⟨found, after, hruns, hafter, -, hkey', -⟩ := wp.ok_of_passes authorise_runs hpasses
    rw [hafter] at hruns
    have hremove : (remove id user).final db = (deleteRow key).final db := by
      rw [remove_eq, authoriseRemove, final_bind_at hruns, Option.some.inj (hkey.symm.trans hkey')]
    have hadminDelete : (AdminService.deleteChannel id user).final db =
        (deleteRow key).final db := by
      simp only [AdminService.deleteChannel, AdminService.requireAdmin, hadmin, uuidOf, hkey]
      rfl
    rw [hremove, hadminDelete]

/-- The rule holds for a request if and only if no admin names a private channel of somebody else,
and the columns take the fields of a body that the rule admits. -/
theorem managed_iff (env : Env) (db : Database) (id : String) (d : UpdateChannelDto)
    (user : Profile) :
    Managed env db id d user ↔
      hidden db id user = false ∧ (mayManage db id user = true → acceptable d = true) := by
  constructor
  · intro h
    have hauthorised : authorised db id user = mayManage db id user :=
      (authorise_passes _).symm.trans h.remove
    constructor
    · by_contra hhidden
      rw [Bool.not_eq_false] at hhidden
      rw [authorised_eq, hhidden, mayManage_of_hidden hhidden] at hauthorised
      exact nomatch hauthorised
    · intro hmanage
      have hupdate := h.update
      rw [writeUpdate_passes, hauthorised, hmanage] at hupdate
      exact hupdate
  · rintro ⟨hseen, haccepted⟩
    have hauthorised : authorised db id user = mayManage db id user := by
      rw [authorised_eq, hseen, Bool.not_false, Bool.and_true]
    refine ⟨?_, (authorise_passes _).trans hauthorised, fun hadmin => deletes_eq hadmin hseen⟩
    rw [writeUpdate_passes, hauthorised]
    cases hmanage : mayManage db id user with
    | false => rfl
    | true => exact haccepted hmanage

/-- Bob, an administrator, names Alice's private channel. -/
theorem privateChannel_not_managed :
    ¬Managed (sampleEnv 5) (privateChat "yes").server.db (sampleUuid 3 0).toText
      ⟨.value "notes", .absent, .absent, .absent, .absent, .absent⟩
        { bob with role := "admin" } := by
  intro h
  exact absurd h.remove (by decide +kernel)

end ChannelsService

end VoxLink
