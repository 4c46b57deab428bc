import VoxLink.Guilds.Seats

/-! The approval of members: while a guild requires it, nobody becomes an active member, and nobody
who is not active passes the checks of membership. -/

namespace VoxLink

open ProofKit Prog GuildsService

variable {X : Externals} {env : Env} {user : Profile} {db db' : Database} {route : Route}
  {s : Server} {g u : Uuid}

/-- The guild is there and requires approval. -/
def RequiresApproval (db : Database) (g : Uuid) : Prop :=
  ∃ guild ∈ db.guilds, guild.id = g ∧ guild.requiresApproval = true

instance : Decidable (RequiresApproval db g) := inferInstanceAs (Decidable (∃ _ ∈ _, _))

/-- An active row of a guild that is there comes from an active row of the same user, or from a
guild with its id that requires no approval. -/
theorem Change.active_row (hc : Change env user db route db') (hfresh : Fresh env db)
    (hguild : g ∈ db.guilds.map (·.id)) {m : GuildMember} (hm : m ∈ db'.guildMembers)
    (hpair : m.guildId = g ∧ m.userId = u) (hactive : m.status = .active) :
    .active ∈ db.standing g u ∨
      ∃ guild ∈ db.guilds, guild.id = g ∧ guild.requiresApproval = false := by
  have kept : ∀ old ∈ db.guildMembers, old.guildId = m.guildId → old.userId = m.userId →
      old.status = m.status → .active ∈ db.standing g u := by
    intro old hold hg hu hs
    exact mem_standing.mpr ⟨old, hold, hg.trans hpair.1, hu.trans hpair.2, hs.trans hactive⟩
  have same : m ∈ db.guildMembers → .active ∈ db.standing g u := fun h => kept m h rfl rfl rfl
  cases hc with
  | elsewhere _ hsame => exact .inl (same (hsame.members ▸ hm))
  | @createGuild _ guild hid _ =>
    rcases List.mem_append.mp hm with hm | hm
    · exact .inl (same hm)
    · -- the new guild has an id of its own
      rw [List.mem_singleton.mp hm] at hpair
      obtain ⟨old, hold, hg⟩ := List.mem_map.mp hguild
      exact absurd (hg.trans (hpair.1.symm.trans hid)) (hfresh.ne_guild (by omega) hold)
  | deleteGuild _ _ =>
    obtain ⟨old, hold, rfl⟩ := List.mem_map.mp hm
    exact .inl (kept old (Rows.mem_remove.mp hold).1 rfl rfl rfl)
  | deleteUser => exact .inl (same (Rows.mem_remove.mp hm).1)
  | @join code guild status hcode _ hstatus =>
    rcases List.mem_append.mp hm with hm | hm
    · exact .inl (same hm)
    · rw [List.mem_singleton.mp hm] at hpair hactive
      have hopen : guild.requiresApproval = false := by
        rw [show status = .active from hactive] at hstatus
        simpa using hstatus
      exact .inr ⟨guild, (guildByCode_mem hcode).1, hpair.1, hopen⟩
  | kick _ _ _ _ => exact .inl (same (Rows.mem_remove.mp hm).1)
  | ban _ _ _ _ =>
    obtain ⟨old, hold, heq⟩ := Rows.mem_modify.mp hm
    split at heq
    · rw [← heq] at hactive
      exact nomatch hactive
    · exact .inl (same (heq ▸ hold))
  | setRoles _ _ =>
    obtain ⟨old, hold, heq⟩ := Rows.mem_modify.mp hm
    split at heq <;> exact .inl (kept old hold (heq ▸ rfl) (heq ▸ rfl) (heq ▸ rfl))
  | deleteRole _ _ =>
    obtain ⟨old, hold, rfl⟩ := List.mem_map.mp hm
    exact .inl (kept old hold rfl rfl rfl)
  | _ => exact .inl (same hm)

/-- No step makes a user an active member of a guild that requires approval. -/
theorem step_active {i : Env × Request} (hs : Reached X s) (hfresh : FreshStep s i)
    (happroval : RequiresApproval s.db g)
    (hactive : .active ∈ (serve X s i).2.db.standing g u) : .active ∈ s.db.standing g u := by
  obtain ⟨guild, hguild, hid, hrequires⟩ := happroval
  obtain ⟨m, hm, hg, hu, hstatus⟩ := mem_standing.mp hactive
  rcases serve_handled (X := X) s i with hsame | ⟨user, -, hc⟩
  · rw [hsame.members] at hm
    exact mem_standing.mpr ⟨m, hm, hg, hu, hstatus⟩
  · have hstored : g ∈ s.db.guilds.map (·.id) := List.mem_map.mpr ⟨guild, hguild, hid⟩
    rcases hc.active_row hfresh hstored hm ⟨hg, hu⟩ hstatus with h | ⟨other, hother, hid', hopen⟩
    · exact h
    · have hone := Rows.eq_of_nodup hs.consistent.ids.guilds hguild hother (hid.trans hid'.symm)
      rw [hone, hopen] at hrequires
      exact nomatch hrequires

/-- A user without an active row passes no check of membership. -/
theorem getMemberOrThrow_refuses {site : Nat} (h : .active ∉ db.standing g u) :
    (getMemberOrThrow env site g u).passes db = false := by
  by_contra hpasses
  rw [Bool.not_eq_false] at hpasses
  obtain ⟨m, -, -, -, hm⟩ := getMemberOrThrow_wp.ok_of_passes hpasses
  exact h (mem_standing.mpr ⟨m, hm.1, hm.2⟩)

theorem requirePermission_refuses {p : Permission} (h : .active ∉ db.standing g u)
    (howner : ∀ guild, db.guildById g = some guild → guild.ownerId ≠ some u) :
    (requirePermission env g u p).passes db = false := by
  by_contra hpasses
  rw [Bool.not_eq_false] at hpasses
  obtain ⟨-, -, -, -, guild, hguild, hallowed⟩ := requirePermission_wp.ok_of_passes hpasses
  rcases hallowed with hown | ⟨m, hm, -⟩
  · exact howner guild hguild hown
  · exact h (mem_standing.mpr ⟨m, hm.1, hm.2⟩)

/-- Those who are active after a stretch of a run on which the guild requires approval were active
before it. -/
theorem run_active {is : List (Env × Request)} (hs : Reached X s)
    (hgate : Along (serve X) (fun s i => FreshStep s i ∧ RequiresApproval s.db g) s is)
    (hactive : .active ∈ (run (serve X) s is).db.standing g u) : .active ∈ s.db.standing g u := by
  induction is generalizing s with
  | nil => exact hactive
  | cons i is ih =>
    obtain ⟨⟨hfresh, happroval⟩, hrest⟩ := hgate
    have hnext : .active ∈ (serve X s i).2.db.standing g u := ih (hs.next hfresh) hrest hactive
    exact step_active hs hfresh happroval hnext

/-- On every stretch of a run on which the guild requires approval, nobody becomes an active
member; and where all rows of a user are pending or banned, the user passes no check of membership
and, unless the owner, none of a permission. -/
theorem approval_gate (X : Externals) (s : Server) (g u : Uuid) (is : List (Env × Request))
    (hs : Reached X s)
    (hgate : Along (serve X) (fun s i => FreshStep s i ∧ RequiresApproval s.db g) s is) :
    let db := (run (serve X) s is).db
    (.active ∈ db.standing g u → .active ∈ s.db.standing g u) ∧
      ((∀ status ∈ db.standing g u, status = .pending ∨ status = .banned) → ∀ env,
        (∀ site, (getMemberOrThrow env site g u).passes db = false) ∧
        ((∀ guild, db.guildById g = some guild → guild.ownerId ≠ some u) →
          ∀ p, (requirePermission env g u p).passes db = false)) := by
  intro db
  constructor
  · exact run_active hs hgate
  · intro hwaiting env
    have hnone : .active ∉ db.standing g u := by
      intro hactive
      rcases hwaiting _ hactive with h | h <;> exact nomatch h
    constructor
    · exact fun site => getMemberOrThrow_refuses hnone
    · exact fun howner p => requirePermission_refuses hnone howner

/-- Bob asks to join the guild that approves its members, twice, and Alice makes him an officer. -/
def waitingRun : List (Env × Request) :=
  [byBob 4 (.joinByInvite "code3"), byBob 5 (.joinByInvite "code3"),
    byAlice 6 (.assignRole sampleGuild.toText bob.id.toText (sampleUuid 3 2).toText)]

theorem bob_waits :
    let s := run (serve sampleExternals) Server.empty (guildRun (.value true))
    let db := (run (serve sampleExternals) s waitingRun).db
    db.standing sampleGuild bob.id = [.pending, .pending] ∧
      (.active ∈ db.standing sampleGuild bob.id → .active ∈ s.db.standing sampleGuild bob.id) := by
  refine ⟨by decide +kernel, ?_⟩
  exact (approval_gate sampleExternals _ sampleGuild bob.id waitingRun
    ⟨guildRun (.value true), by decide +kernel, rfl⟩ (by decide +kernel)).1

end VoxLink
