import VoxLink.Guilds.Invariants

/-! The rows of one user in one guild. `Reseated` says what a change can do to their statuses, and
the properties of memberships over whole runs follow from it. -/

namespace VoxLink

open ProofKit Prog GuildsService

variable {X : Externals} {env : Env} {user : Profile} {db db' : Database} {route : Route}
  {g u : Uuid}

/-- The membership rows of `u` in `g`. -/
def Database.seats (db : Database) (g u : Uuid) : List GuildMember :=
  db.guildMembers.filter fun m => m.guildId = g ∧ m.userId = u

/-- The statuses of these rows. -/
def Database.standing (db : Database) (g u : Uuid) : List MemberStatus :=
  (db.seats g u).map (·.status)

theorem mem_seats {m : GuildMember} :
    m ∈ db.seats g u ↔ m ∈ db.guildMembers ∧ m.guildId = g ∧ m.userId = u := by
  simp [Database.seats]

theorem mem_standing {status : MemberStatus} : status ∈ db.standing g u ↔
    ∃ m ∈ db.guildMembers, m.guildId = g ∧ m.userId = u ∧ m.status = status := by
  simp only [Database.standing, List.mem_map, mem_seats, and_assoc]

theorem standing_eq_nil : db.standing g u = [] ↔
    ∀ m ∈ db.guildMembers, ¬(m.guildId = g ∧ m.userId = u) := by
  simp [Database.standing, Database.seats, List.filter_eq_nil_iff]

/-! ### What a change does to the rows of a pair -/

/-- Rows that change in other columns only leave the standing alone. -/
theorem standing_map {f : GuildMember → GuildMember}
    (hmembers : db'.guildMembers = db.guildMembers.map f)
    (hf : ∀ m, (f m).guildId = m.guildId ∧ (f m).userId = m.userId ∧ (f m).status = m.status) :
    db'.standing g u = db.standing g u := by
  have hfilter : (db.guildMembers.map f).filter (fun m => m.guildId = g ∧ m.userId = u) =
      (db.guildMembers.filter fun m => m.guildId = g ∧ m.userId = u).map f := by
    rw [List.filter_map]
    congr 1
    refine List.filter_congr fun m _ => ?_
    simp only [Function.comp_apply, (hf m).1, (hf m).2.1]
  rw [Database.standing, Database.seats, hmembers, hfilter, List.map_map]
  exact List.map_congr_left fun m _ => (hf m).2.2

theorem standing_append {m : GuildMember} (hmembers : db'.guildMembers = db.guildMembers ++ [m])
    (hm : m.guildId = g ∧ m.userId = u) :
    db'.standing g u = db.standing g u ++ [m.status] := by
  rw [Database.standing, Database.seats, hmembers, List.filter_append, List.map_append]
  congr 1
  simp [hm]

theorem standing_append_of_not {m : GuildMember}
    (hmembers : db'.guildMembers = db.guildMembers ++ [m]) (hm : ¬(m.guildId = g ∧ m.userId = u)) :
    db'.standing g u = db.standing g u := by
  rw [Database.standing, Database.seats, hmembers, List.filter_append]
  simp [hm, Database.standing, Database.seats]

theorem standing_remove {p : GuildMember → Bool}
    (hmembers : db'.guildMembers = Rows.remove p db.guildMembers)
    (hp : ∀ m, m.guildId = g → m.userId = u → p m = false) :
    db'.standing g u = db.standing g u := by
  rw [Database.standing, Database.seats, hmembers, Rows.filter_remove_disjoint]
  · rfl
  · intro m _ hm
    by_contra hne
    simp only [decide_eq_false_iff_not, not_not] at hne
    rw [hp m hne.1 hne.2] at hm
    exact nomatch hm

/-- What the change to `db'` makes of the standing of `u` in `g`. -/
inductive Reseated (env : Env) (user : Profile) (db : Database) (route : Route) (db' : Database)
    (g u : Uuid) : Prop
  | same : db'.standing g u = db.standing g u → Reseated env user db route db' g u
  | founded : g = env.uuids 0 → db'.standing g u = db.standing g u ++ [.active] →
      Reseated env user db route db' g u
  | joined (code : String) (guild : Guild) (status : MemberStatus) :
      route = .guilds (.joinByInvite code) → guildByCode code db = some guild → guild.id = g →
      user.id = u → (db.standing g u = [] ∨ .pending ∈ db.standing g u) → status ≠ .banned →
      db'.standing g u = db.standing g u ++ [status] → Reseated env user db route db' g u
  | kicked (text target : String) : route = .guilds (.kickMember text target) →
      Uuid.parse text = some g → Uuid.parse target = some u →
      Permitted db g user.id .kickMembers → NotOwnerText db g target →
      db'.standing g u = [] → db'.guilds = db.guilds → Reseated env user db route db' g u
  | banned (text target : String) : route = .guilds (.banMember text target) →
      Uuid.parse target = some u → NotOwnerText db g target →
      db'.standing g u = (db.standing g u).map (fun _ => .banned) → db'.guilds = db.guilds →
      Reseated env user db route db' g u
  | accountDeleted (text : String) : route = .users (.remove text) → db' = db.deleteUser u →
      db'.standing g u = [] → Reseated env user db route db' g u
  | guildDeleted (text : String) : route = .guilds (.delete text) → Uuid.parse text = some g →
      db' = db.deleteGuild g → db'.standing g u = [] → Reseated env user db route db' g u

theorem standing_deleteGuild : (db.deleteGuild g).standing g u = [] := by
  rw [standing_eq_nil]
  intro m hm hpair
  obtain ⟨x, hx, rfl⟩ := List.mem_map.mp hm
  have hne := (Rows.mem_remove.mp hx).2
  exact absurd hpair.1 (by simpa using hne)

theorem standing_deleteGuild_of_ne {h : Uuid} (hne : g ≠ h) :
    (db.deleteGuild h).standing g u = db.standing g u := by
  let kept : Database := { db with guildMembers := Rows.remove (·.guildId = h) db.guildMembers }
  have hkept : kept.standing g u = db.standing g u :=
    standing_remove rfl fun m hm _ => by simp [hm, hne]
  rw [← hkept]
  exact standing_map rfl fun _ => ⟨rfl, rfl, rfl⟩

theorem standing_deleteUser : (db.deleteUser u).standing g u = [] := by
  rw [standing_eq_nil]
  intro m hm hpair
  have hne := (Rows.mem_remove.mp hm).2
  simp [hpair.2] at hne

/-- A change of the rows of another pair leaves the standing alone. -/
theorem standing_modify_of_not {h t : Uuid} {f : GuildMember → GuildMember}
    (hmembers : db'.guildMembers =
      Rows.modify (fun m => m.guildId = h ∧ m.userId = t) f db.guildMembers)
    (hf : ∀ m, (f m).guildId = m.guildId ∧ (f m).userId = m.userId) (hne : ¬(h = g ∧ t = u)) :
    db'.standing g u = db.standing g u := by
  rw [Database.standing, Database.seats, hmembers, Rows.filter_modify_disjoint]
  · rfl
  · intro m _ hm
    simp only [decide_eq_true_eq] at hm
    rw [(hf m).1, (hf m).2, hm.1, hm.2]
    exact ⟨decide_eq_false hne, decide_eq_false hne⟩

theorem standing_modify {f : GuildMember → GuildMember} {status : MemberStatus}
    (hmembers : db'.guildMembers =
      Rows.modify (fun m => m.guildId = g ∧ m.userId = u) f db.guildMembers)
    (hf : ∀ m, (f m).guildId = m.guildId ∧ (f m).userId = m.userId ∧ (f m).status = status) :
    db'.standing g u = (db.standing g u).map fun _ => status := by
  rw [Database.standing, Database.seats, hmembers, Rows.filter_modify]
  · simp only [Rows.modify, Database.standing, Database.seats, List.map_map]
    refine List.map_congr_left fun m hm => ?_
    have hp := (List.mem_filter.mp hm).2
    simp only [Function.comp_apply, hp, if_true, (hf m).2.2]
  · intro m _
    rw [(hf m).1, (hf m).2.1]

theorem standing_of_joinAdmitted (h : JoinAdmitted db g u) :
    db.standing g u = [] ∨ .pending ∈ db.standing g u := by
  rcases h with hnone | hpending
  · exact .inl (standing_eq_nil.mpr hnone)
  · exact .inr (mem_standing.mpr hpending)

theorem Change.reseated (hc : Change env user db route db') (g u : Uuid) :
    Reseated env user db route db' g u := by
  cases hc with
  | elsewhere _ hsame =>
    refine .same ?_
    rw [Database.standing, Database.seats, hsame.members]
    rfl
  | @createGuild _ guild hid _ =>
    by_cases hpair : guild.id = g ∧ user.id = u
    · refine .founded (hpair.1.symm.trans hid) ?_
      exact standing_append
        (m := newMember env (env.uuids 4) guild.id user.id .active [env.uuids 1]) rfl hpair
    · exact .same (standing_append_of_not rfl hpair)
  | @deleteGuild text h hparse _ =>
    by_cases hg : g = h
    · subst hg
      exact .guildDeleted text rfl hparse rfl standing_deleteGuild
    · exact .same (standing_deleteGuild_of_ne hg)
  | @deleteUser text v =>
    by_cases hu : u = v
    · subst hu
      exact .accountDeleted text rfl rfl standing_deleteUser
    · exact .same (standing_remove rfl fun m _ hm => by simp [hm, hu])
  | @join code guild status hguild hadm hstatus =>
    by_cases hpair : guild.id = g ∧ user.id = u
    · have hnot : status ≠ .banned := by
        rw [hstatus]
        split <;> decide
      have hadm := standing_of_joinAdmitted hadm
      rw [hpair.1, hpair.2] at hadm
      refine .joined code guild status rfl hguild hpair.1 hpair.2 hadm hnot ?_
      exact standing_append (m := newMember env (env.uuids 0) guild.id user.id status
        ((lowestRole env guild.id db).map (·.id)).toList) rfl hpair
    · exact .same (standing_append_of_not rfl hpair)
  | @kick text target h t hparse htarget hperm hown =>
    by_cases hpair : h = g ∧ t = u
    · obtain ⟨rfl, rfl⟩ := hpair
      refine .kicked text target rfl hparse htarget hperm hown (standing_eq_nil.mpr ?_) rfl
      intro m hm hmp
      have hne := (Rows.mem_remove.mp hm).2
      simp [hmp.1, hmp.2] at hne
    · refine .same (standing_remove rfl fun m hg hu => ?_)
      rw [hg, hu]
      exact decide_eq_false fun h => hpair ⟨h.1.symm, h.2.symm⟩
  | @ban text target h t hparse htarget hperm hown =>
    by_cases hpair : h = g ∧ t = u
    · obtain ⟨rfl, rfl⟩ := hpair
      refine .banned text target rfl htarget hown ?_ rfl
      exact standing_modify rfl fun _ => ⟨rfl, rfl, rfl⟩
    · exact .same (standing_modify_of_not rfl (fun _ => ⟨rfl, rfl⟩) hpair)
  | setRoles _ _ =>
    refine .same (standing_map rfl fun m => ?_)
    split <;> exact ⟨rfl, rfl, rfl⟩
  | deleteRole _ _ => exact .same (standing_map rfl fun _ => ⟨rfl, rfl, rfl⟩)
  | _ => exact .same rfl

theorem serve_reseated (s : Server) (i : Env × Request) (g u : Uuid) :
    (serve X s i).2.db.standing g u = s.db.standing g u ∨
      ∃ user, Authenticated i.1 s i.2.token user ∧
        Reseated i.1 user s.db i.2.route (serve X s i).2.db g u := by
  rcases serve_handled (X := X) s i with h | ⟨user, huser, h⟩
  · left
    rw [Database.standing, Database.seats, h.members]
    rfl
  · exact .inr ⟨user, huser, h.reseated g u⟩

/-- Nobody has a row in a guild that is about to be created. -/
theorem standing_fresh (hrefs : Scoped db) (hfresh : Fresh env db) {n : Nat} (hn : n < 11) :
    db.standing (env.uuids n) u = [] := by
  rw [standing_eq_nil]
  intro m hm hpair
  obtain ⟨guild, hguild, hid⟩ := List.mem_map.mp (hrefs.member m hm)
  exact hfresh.ne_guild hn hguild (hid.trans hpair.1)

/-! ### One row for each pair -/

/-- Each user has at most one row in each guild. -/
def UniqueSeats (db : Database) : Prop := ∀ g u, (db.seats g u).length ≤ 1

/-- A user joins a guild in which they have a pending row. -/
def joinsWhilePending (s : Server) (i : Env × Request) : Bool :=
  match i.2.route with
  | .guilds (.joinByInvite code) => (callerOf i.1 s i.2.token).any fun user =>
      (guildByCode code s.db).any fun guild => .pending ∈ s.db.standing guild.id user.id
  | _ => false

theorem length_seats : (db.seats g u).length = (db.standing g u).length :=
  (List.length_map _).symm

theorem step_uniqueSeats {s : Server} {i : Env × Request} (hs : Reached X s)
    (hfresh : FreshStep s i) (hpending : joinsWhilePending s i = false)
    (h : UniqueSeats s.db) : UniqueSeats (serve X s i).2.db := by
  intro g u
  have hold := h g u
  rw [length_seats] at hold ⊢
  rcases serve_reseated (X := X) s i g u with hsame | ⟨user, huser, hre⟩
  · rw [hsame]
    exact hold
  cases hre with
  | same hst =>
    rw [hst]
    exact hold
  | founded hg hst =>
    rw [hst, hg, standing_fresh hs.consistent.refs hfresh (by decide)]
    exact le_refl 1
  | joined code guild status hroute hguild hg hu hadm _ hst =>
    rcases hadm with hempty | hpend
    · rw [hst, hempty]
      exact le_refl 1
    · unfold joinsWhilePending at hpending
      rw [hroute] at hpending
      simp [authenticated_iff.mp huser, hguild, hg, hu, hpend] at hpending
  | kicked _ _ _ _ _ _ _ hst _ =>
    rw [hst]
    exact Nat.zero_le 1
  | banned _ _ _ _ _ hst _ =>
    rw [hst, List.length_map]
    exact hold
  | accountDeleted _ _ _ hst =>
    rw [hst]
    exact Nat.zero_le 1
  | guildDeleted _ _ _ _ hst =>
    rw [hst]
    exact Nat.zero_le 1

/-- In a run in which nobody joins while pending, every state has at most one row for each user and
guild. -/
theorem run_uniqueSeats {is : List (Env × Request)}
    (hfresh : Along (serve X) FreshStep Server.empty is)
    (hpending : Along (serve X) (fun s i => joinsWhilePending s i = false) Server.empty is) :
    UniqueSeats (run (serve X) Server.empty is).db := by
  have hI : Reached X (run (serve X) Server.empty is) ∧
      UniqueSeats (run (serve X) Server.empty is).db := by
    refine (along_and.mpr ⟨hfresh, hpending⟩).invariant
      (I := fun s => Reached X s ∧ UniqueSeats s.db) ?_ ⟨⟨[], trivial, rfl⟩, ?_⟩
    · intro s i ⟨hs, hunique⟩ ⟨hf, hp⟩
      exact ⟨hs.next hf, step_uniqueSeats hs hf hp hunique⟩
    · intro g u
      exact Nat.zero_le 1
  exact hI.2

/-- Bob asks to join a guild that approves its members. -/
def joinRun : List (Env × Request) :=
  guildRun (.value true) ++ [byBob 4 (.joinByInvite "code3")]

theorem joinRun_uniqueSeats : UniqueSeats (run (serve sampleExternals) Server.empty joinRun).db :=
  run_uniqueSeats (by decide +kernel) (by decide +kernel)

/-- Bob, who is not approved yet, joins again. -/
theorem rejoin_not_uniqueSeats :
    Along (serve sampleExternals) FreshStep Server.empty
        (joinRun ++ [byBob 5 (.joinByInvite "code3")]) ∧
      ¬UniqueSeats (run (serve sampleExternals) Server.empty
        (joinRun ++ [byBob 5 (.joinByInvite "code3")])).db := by
  refine ⟨by decide +kernel, fun h => ?_⟩
  exact absurd (h sampleGuild bob.id) (by decide +kernel)

/-! ### Bans -/

/-- A user with a banned row in a guild has no other rows there. -/
def BansCover (db : Database) : Prop :=
  ∀ g u, .banned ∈ db.standing g u → ∀ status ∈ db.standing g u, status = .banned

theorem reseated_bansCover (hrefs : Scoped db) (hfresh : Fresh env db) (h : BansCover db)
    (hre : Reseated env user db route db' g u) (hban : .banned ∈ db'.standing g u) :
    ∀ status ∈ db'.standing g u, status = .banned := by
  cases hre with
  | same hst =>
    rw [hst] at hban ⊢
    exact h g u hban
  | founded hg hst =>
    rw [hst, hg, standing_fresh hrefs hfresh (by decide)] at hban
    simp at hban
  | joined _ _ status _ _ _ _ hadm hnot hst =>
    rw [hst] at hban
    have hold : .banned ∈ db.standing g u := by
      rcases List.mem_append.mp hban with hold | hnew
      · exact hold
      · exact absurd (List.mem_singleton.mp hnew).symm hnot
    -- the rows that were there are banned, so the join was refused
    rcases hadm with hempty | hpending
    · simp [hempty] at hold
    · exact absurd (h g u hold _ hpending) (by decide)
  | kicked _ _ _ _ _ _ _ hst _ =>
    rw [hst] at hban
    simp at hban
  | banned _ _ _ _ _ hst _ =>
    rw [hst]
    intro status hstatus
    obtain ⟨_, _, rfl⟩ := List.mem_map.mp hstatus
    rfl
  | accountDeleted _ _ _ hst =>
    rw [hst] at hban
    simp at hban
  | guildDeleted _ _ _ _ hst =>
    rw [hst] at hban
    simp at hban

theorem Reached.bansCover {s : Server} (hs : Reached X s) : BansCover s.db := by
  have hI : Consistent s.db ∧ BansCover s.db := by
    refine hs.invariant (P := fun db => Consistent db ∧ BansCover db) ⟨consistent_empty, ?_⟩ ?_ ?_
    · intro g u hban
      simp [Database.standing, Database.seats, Database.empty] at hban
    · rintro db db' hsame ⟨hcons, hcover⟩
      refine ⟨hcons.same hsame, fun g u => ?_⟩
      rw [Database.standing, Database.seats, hsame.members]
      exact hcover g u
    · rintro env user db route db' hfresh ⟨hcons, hcover⟩ hc
      refine ⟨hcons.kept hfresh hc, fun g u => ?_⟩
      exact reseated_bansCover hcons.refs hfresh hcover (hc.reseated g u)
  exact hI.2

/-- The request kicks `t` from `g`: its caller may, and `t` is not named as the owner. -/
def KicksOut (s : Server) (i : Env × Request) (g t : Uuid) : Prop :=
  ∃ text target user, i.2.route = .guilds (.kickMember text target) ∧
    Uuid.parse text = some g ∧ Uuid.parse target = some t ∧
    Authenticated i.1 s i.2.token user ∧ Permitted s.db g user.id .kickMembers ∧
    NotOwnerText s.db g target

/-- A step of a run of guild requests after which `g` is still there. -/
def GuildStep (X : Externals) (g : Uuid) (s : Server) (i : Env × Request) : Prop :=
  FreshStep s i ∧ (∃ r, i.2.route = .guilds r) ∧ g ∈ (serve X s i).2.db.guilds.map (·.id)

theorem step_banned {s : Server} {i : Env × Request} {t : Uuid} (hstep : GuildStep X g s i)
    (hkick : ¬KicksOut s i g t) (hban : .banned ∈ s.db.standing g t) :
    .banned ∈ (serve X s i).2.db.standing g t := by
  obtain ⟨hfresh, ⟨r, hroute⟩, hguild⟩ := hstep
  rcases serve_reseated (X := X) s i g t with hsame | ⟨user, huser, hre⟩
  · rw [hsame]
    exact hban
  cases hre with
  | same hst =>
    rw [hst]
    exact hban
  | founded hg hst =>
    rw [hst]
    exact List.mem_append_left _ hban
  | joined _ _ _ _ _ _ _ _ _ hst =>
    rw [hst]
    exact List.mem_append_left _ hban
  | kicked text target hroute hg ht hperm hown _ _ =>
    exact absurd ⟨text, target, user, hroute, hg, ht, huser, hperm, hown⟩ hkick
  | banned _ _ _ _ _ hst _ =>
    rw [hst]
    exact List.mem_map.mpr ⟨.banned, hban, rfl⟩
  | accountDeleted _ hremove _ _ =>
    rw [hroute] at hremove
    exact Route.noConfusion hremove
  | guildDeleted _ _ _ hdb _ =>
    rw [hdb] at hguild
    obtain ⟨x, hx, hid⟩ := List.mem_map.mp hguild
    have hne := (Rows.mem_remove.mp hx).2
    simp [hid] at hne

/-- While a guild stands and nobody kicks a user banned from it, that user has no active row
there. -/
theorem run_ban_durable {s : Server} {t : Uuid} {is : List (Env × Request)} (hs : Reached X s)
    (hban : .banned ∈ s.db.standing g t) (hsteps : Along (serve X) (GuildStep X g) s is)
    (hkick : Along (serve X) (fun s i => ¬KicksOut s i g t) s is) :
    .active ∉ (run (serve X) s is).db.standing g t := by
  have hI : Reached X (run (serve X) s is) ∧ .banned ∈ (run (serve X) s is).db.standing g t := by
    refine (along_and.mpr ⟨hsteps, hkick⟩).invariant
      (I := fun s => Reached X s ∧ .banned ∈ s.db.standing g t) ?_ ⟨hs, hban⟩
    intro s i ⟨hs, hban⟩ ⟨hstep, hnot⟩
    exact ⟨hs.next hstep.1, step_banned hstep hnot hban⟩
  intro hactive
  exact absurd (hI.1.bansCover g t hI.2 _ hactive) (by decide)

/-- Bob joins the guild and Alice bans him. -/
def bobBanned : Server :=
  run (serve sampleExternals) Server.empty (guildRun .absent ++
    [byBob 4 (.joinByInvite "code3"), byAlice 5 (.banMember sampleGuild.toText bob.id.toText)])

theorem bobBanned_reached : Reached sampleExternals bobBanned := ⟨_, by decide +kernel, rfl⟩

theorem bobBanned_join_refused :
    .active ∉ (run (serve sampleExternals) bobBanned
      [byBob 6 (.joinByInvite "code3")]).db.standing sampleGuild bob.id := by
  refine run_ban_durable bobBanned_reached (by decide +kernel) ⟨?_, trivial⟩ ⟨?_, trivial⟩
  · exact ⟨by decide +kernel, ⟨_, rfl⟩, by decide +kernel⟩
  · intro ⟨_, _, _, hroute, _⟩
    simp [byBob] at hroute

/-- Alice kicks Bob, who joins again. -/
def kickRun : List (Env × Request) :=
  [byAlice 6 (.kickMember sampleGuild.toText bob.id.toText), byBob 7 (.joinByInvite "code3")]

theorem kick_lifts_ban :
    Reached sampleExternals bobBanned ∧ .banned ∈ bobBanned.db.standing sampleGuild bob.id ∧
      Along (serve sampleExternals) (GuildStep sampleExternals sampleGuild) bobBanned kickRun ∧
      .active ∈ (run (serve sampleExternals) bobBanned kickRun).db.standing sampleGuild bob.id := by
  refine ⟨bobBanned_reached, by decide +kernel, ⟨?_, ?_, trivial⟩, by decide +kernel⟩
  · exact ⟨by decide +kernel, ⟨_, rfl⟩, by decide +kernel⟩
  · exact ⟨by decide +kernel, ⟨_, rfl⟩, by decide +kernel⟩

end VoxLink
