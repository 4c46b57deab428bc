import VoxLink.Guilds.Seats

/-! The owner of a guild. Requests that give their ids in canonical form keep every owner seated:
one membership row, and an active one. -/

namespace VoxLink

open ProofKit Prog GuildsService

variable {X : Externals} {env : Env} {user : Profile} {db db' : Database} {route : Route}
  {guild : Guild} {u : Uuid}

/-- Every owner has one row in the guild, which is active. -/
def OwnersSeated (db : Database) : Prop :=
  ∀ guild ∈ db.guilds, ∀ u, guild.ownerId = some u → db.standing guild.id u = [.active]

theorem guildById_of_mem (hids : UniqueIds db) (hguild : guild ∈ db.guilds) :
    db.guildById guild.id = some guild := by
  cases hfound : db.guildById guild.id with
  | none =>
    have := List.find?_eq_none.mp hfound guild hguild
    simp at this
  | some x =>
    obtain ⟨hx, hid⟩ := guildById_mem hfound
    rw [Rows.eq_of_nodup hids.guilds hx hguild hid]

/-- The owner check refuses the canonical text of the owner. -/
theorem not_notOwnerText (hids : UniqueIds db) (hguild : guild ∈ db.guilds)
    (howner : guild.ownerId = some u) {target : String} (hcanonical : Canonical target)
    (htarget : Uuid.parse target = some u) : ¬NotOwnerText db guild.id target := by
  unfold NotOwnerText
  rw [guildById_of_mem hids hguild, hcanonical u htarget]
  simp [howner]

/-- Where the guilds with owners come from: they were there with their owner, or this change
creates them and seats the owner. -/
theorem Change.owner_cases (hc : Change env user db route db') (hguild : guild ∈ db'.guilds)
    (howner : guild.ownerId = some u) :
    (∃ old ∈ db.guilds, old.id = guild.id ∧ old.ownerId = some u) ∨
      (guild.id = env.uuids 0 ∧
        db'.standing guild.id u = db.standing guild.id u ++ [.active]) := by
  cases hc with
  | elsewhere _ hsame =>
    rw [hsame.guilds] at hguild
    exact .inl ⟨guild, hguild, rfl, howner⟩
  | @createGuild _ new hid hnew =>
    rcases List.mem_append.mp hguild with hguild | hguild
    · exact .inl ⟨guild, hguild, rfl, howner⟩
    · obtain rfl := List.mem_singleton.mp hguild
      refine .inr ⟨hid, ?_⟩
      have hu : user.id = u := Option.some.inj (hnew.symm.trans howner)
      exact standing_append
        (m := newMember env (env.uuids 4) guild.id user.id .active [env.uuids 1]) rfl ⟨rfl, hu⟩
  | updateGuild hf =>
    obtain ⟨x, hx, rfl⟩ := Rows.mem_modify.mp hguild
    refine .inl ⟨x, hx, ?_⟩
    split at howner
    · rw [if_pos ‹_›]
      exact ⟨(hf x).1.symm, (hf x).2.symm.trans howner⟩
    · rw [if_neg ‹_›]
      exact ⟨rfl, howner⟩
  | deleteGuild _ _ => exact .inl ⟨guild, (Rows.mem_remove.mp hguild).1, rfl, howner⟩
  | deleteUser =>
    obtain ⟨x, hx, rfl⟩ := Rows.mem_modify.mp hguild
    split at howner
    · exact nomatch howner
    · rw [if_neg ‹_›]
      exact .inl ⟨x, hx, rfl, howner⟩
  | _ => exact .inl ⟨guild, hguild, rfl, howner⟩

/-- A change that does not expel an owner keeps every owner who still is one seated. -/
theorem OwnersSeated.kept_of (hcons : Consistent db) (hfresh : Fresh env db) (h : OwnersSeated db)
    (hnot : ∀ text target, route = .guilds (.kickMember text target) ∨
      route = .guilds (.banMember text target) → ∀ guild ∈ db.guilds, ∀ u,
      guild.ownerId = some u → Uuid.parse target = some u → ¬NotOwnerText db guild.id target)
    (hc : Change env user db route db') : OwnersSeated db' := by
  intro guild hguild u howner
  rcases hc.owner_cases hguild howner with ⟨old, hold, hid, holdOwner⟩ | ⟨hid, hst⟩
  · have hseated := h old hold u holdOwner
    rw [hid] at hseated
    cases hc.reseated guild.id u with
    | same hst => exact hst.trans hseated
    | founded hg _ => exact absurd (hid.trans hg) (hfresh.ne_guild (by decide) hold)
    | joined _ _ _ _ _ _ _ hadm _ _ =>
      -- the owner has an active row, so a join of the owner is refused
      rw [hseated] at hadm
      simp at hadm
    | kicked text target hroute _ htarget _ hown _ _ =>
      exact absurd (hid ▸ hown) (hnot text target (.inl hroute) old hold u holdOwner htarget)
    | banned text target hroute htarget hown _ _ =>
      exact absurd (hid ▸ hown) (hnot text target (.inr hroute) old hold u holdOwner htarget)
    | accountDeleted _ _ hdb _ =>
      rw [hdb] at hguild
      obtain ⟨x, _, rfl⟩ := Rows.mem_modify.mp hguild
      split at howner
      · exact nomatch howner
      · rename_i hne
        simp [howner] at hne
    | guildDeleted _ _ _ hdb _ =>
      rw [hdb] at hguild
      have hne := (Rows.mem_remove.mp hguild).2
      simp at hne
  · rw [hst, hid, standing_fresh hcons.refs hfresh (by decide)]
    rfl

/-- A change whose ids are canonical keeps every owner who still is one seated. -/
theorem OwnersSeated.kept (hcons : Consistent db) (hfresh : Fresh env db)
    (hcanonical : ∀ text ∈ route.ids, Canonical text) (h : OwnersSeated db)
    (hc : Change env user db route db') : OwnersSeated db' := by
  refine h.kept_of hcons hfresh ?_ hc
  intro text target hroute guild hguild u howner htarget
  refine not_notOwnerText hcons.ids hguild howner (hcanonical target ?_) htarget
  rcases hroute with rfl | rfl
  · simp [Route.ids, GuildRoute.ids]
  · simp [Route.ids, GuildRoute.ids]

/-- The states that requests with fresh ids and canonical texts reach from an empty server. -/
def ReachedCanonically (X : Externals) (s : Server) : Prop :=
  Reachable (serve X) CanonicalStep Server.empty s

theorem ReachedCanonically.reached {s : Server} (hs : ReachedCanonically X s) : Reached X s :=
  hs.mono fun _ _ h => h.1

theorem ReachedCanonically.ownersSeated {s : Server} (hs : ReachedCanonically X s) :
    OwnersSeated s.db := by
  have hI : Reached X s ∧ OwnersSeated s.db := by
    refine hs.invariant (I := fun s => Reached X s ∧ OwnersSeated s.db) ?_
      ⟨⟨[], trivial, rfl⟩, fun guild hguild => nomatch hguild⟩
    intro s i ⟨hr, hseated⟩ ⟨hfresh, hcanonical⟩
    refine ⟨hr.next hfresh, ?_⟩
    rcases serve_handled (X := X) s i with hsame | ⟨user, _, hc⟩
    · intro guild hguild u howner
      rw [hsame.guilds] at hguild
      rw [Database.standing, Database.seats, hsame.members]
      exact hseated guild hguild u howner
    · exact hseated.kept hr.consistent hfresh hcanonical hc
  exact hI.2

/-! ### The owner is never locked out -/

theorem exists_active_of_standing {g : Uuid} (h : db.standing g u = [.active]) :
    ∃ m, db.seats g u = [m] ∧ m.status = .active := by
  obtain ⟨m, hm, hstatus⟩ := List.map_eq_singleton_iff.mp h
  exact ⟨m, hm, hstatus⟩

theorem activeMember_of_standing {g : Uuid} (h : db.standing g u = [.active]) :
    ∃ m, ActiveMember db g u m := by
  obtain ⟨m, hm, hstatus⟩ := exists_active_of_standing h
  have hmem : m ∈ db.seats g u := hm ▸ List.mem_singleton.mpr rfl
  obtain ⟨hmember, hg, hu⟩ := mem_seats.mp hmem
  exact ⟨m, hmember, hg, hu, hstatus⟩

section Reading

variable {g : Uuid} (hmember : ∃ m, ActiveMember db g user.id m)
include hmember

/-- An active member gets past the membership check of a reading operation. -/
theorem member_reads {α : Type} {k : Uuid → Service α}
    (hk : ∃ v, (k g).outcome db = .ok v) :
    ∃ v, (do let id ← uuidOf g.toText
             let _ ← getMemberOrThrow env 1 id user.id
             k id).outcome db = .ok v := by
  obtain ⟨m, hm⟩ := hmember
  obtain ⟨v, hv⟩ := hk
  have hwp : wp (do let id ← uuidOf g.toText
                    let _ ← getMemberOrThrow env 1 id user.id
                    k id) (fun v' _ => v' = v) (fun _ _ => False) db := by
    simp only [wp_bind, wp_uuidOf, Uuid.parse_toText]
    refine ⟨fun id hid => ?_, fun h => by cases h⟩
    obtain rfl := Option.some.inj hid
    refine getMemberOrThrow_wp.mono (fun _ db' hdb => ?_) fun _ _ h => h.2 m hm
    rw [hdb.1]
    exact wp.of_outcome hv
  obtain ⟨_, hout, _⟩ := hwp.returns
  exact ⟨_, hout⟩

theorem getMembers_returns : ∃ v, (getMembers env g.toText user).outcome db = .ok v :=
  member_reads hmember ⟨_, rfl⟩

theorem getRoles_returns : ∃ v, (getRoles env g.toText user).outcome db = .ok v :=
  member_reads hmember ⟨_, rfl⟩

variable {guild : Guild} (hguild : db.guildById g = some guild)
include hguild

theorem getChannels_returns : ∃ v, (getChannels env g.toText user).outcome db = .ok v := by
  refine member_reads hmember ?_
  have hwp : wp (do let found ← query fun db => db.guildById g
                    let _ ← orThrow (.notFound "Guild not found") found
                    query fun db => db.structureOf g : Service _)
      (fun _ _ => True) (fun _ _ => False) db := by
    simp [wp_orThrow, hguild]
  obtain ⟨v, hout, _⟩ := hwp.returns
  exact ⟨v, hout⟩

theorem findOne_returns : ∃ v, (findOne env g.toText user).outcome db = .ok v := by
  obtain ⟨m, hm⟩ := hmember
  have hwp : wp (findOne env g.toText user) (fun _ _ => True) (fun _ _ => False) db := by
    simp only [findOne, wp_bind, wp_uuidOf, Uuid.parse_toText]
    refine ⟨fun id hid => ?_, nofun⟩
    obtain rfl := Option.some.inj hid
    refine findGuild_wp.mono (fun _ _ _ => trivial) fun _ _ h => ?_
    rcases h.2 with hnone | hno
    · rw [hguild] at hnone
      exact nomatch hnone
    · exact hno m hm
  obtain ⟨v, hout, _⟩ := hwp.returns
  exact ⟨v, hout⟩

end Reading

theorem requirePermission_owner {g : Uuid} (hguild : db.guildById g = some guild)
    (howner : guild.ownerId = some u) (p : Permission) :
    (requirePermission env g u p).outcome db = .ok () := by
  have hwp : wp (requirePermission env g u p) (fun _ _ => True) (fun _ _ => False) db := by
    simp only [requirePermission, wp_bind, wp_query, wp_orThrow, hguild]
    refine ⟨fun x hx => ?_, fun h => by cases h⟩
    obtain rfl := Option.some.inj hx
    rw [if_pos howner]
    trivial
  obtain ⟨_, h, _⟩ := hwp.returns
  exact h

/-- In every state that canonical requests reach, the owner of a guild has one row there, an active
one, passes every permission check, and can read the guild. -/
theorem owner_not_locked_out {s : Server} (hs : ReachedCanonically X s)
    (hguild : guild ∈ s.db.guilds) (howner : guild.ownerId = some user.id) (env : Env) :
    (∃ m, s.db.seats guild.id user.id = [m] ∧ m.status = .active) ∧
      (∀ p, (requirePermission env guild.id user.id p).outcome s.db = .ok ()) ∧
      (∃ v, (findOne env guild.id.toText user).outcome s.db = .ok v) ∧
      (∃ v, (getMembers env guild.id.toText user).outcome s.db = .ok v) ∧
      (∃ v, (getRoles env guild.id.toText user).outcome s.db = .ok v) ∧
      ∃ v, (getChannels env guild.id.toText user).outcome s.db = .ok v := by
  have hseated := hs.ownersSeated guild hguild user.id howner
  have hfound := guildById_of_mem hs.reached.consistent.ids hguild
  have hmember := activeMember_of_standing hseated
  refine ⟨exists_active_of_standing hseated, requirePermission_owner hfound howner, ?_, ?_, ?_, ?_⟩
  · exact findOne_returns hmember hfound
  · exact getMembers_returns hmember
  · exact getRoles_returns hmember
  · exact getChannels_returns hmember hfound

/-- Bob joins the guild and tries to ban its owner. -/
def attacked : Server :=
  run (serve sampleExternals) Server.empty (guildRun .absent ++
    [byBob 4 (.joinByInvite "code3"), byBob 5 (.banMember sampleGuild.toText alice.id.toText)])

theorem attacked_reached : ReachedCanonically sampleExternals attacked :=
  ⟨_, by decide +kernel, rfl⟩

def alicesGuild : Guild :=
  { id := sampleGuild, name := "guild", description := none, icon := none, banner := none
    inviteCode := some "code3", isPublic := false, requiresApproval := false
    ownerId := some alice.id, createdAt := 3000, updatedAt := 3000 }

theorem attacked_owner_reads :
    ∃ v, (findOne (sampleEnv 6) sampleGuild.toText alice).outcome attacked.db = .ok v := by
  have hguild : alicesGuild ∈ attacked.db.guilds := by decide +kernel
  have howner : alicesGuild.ownerId = some alice.id := rfl
  exact (owner_not_locked_out attacked_reached hguild howner (sampleEnv 6)).2.2.1

end VoxLink
