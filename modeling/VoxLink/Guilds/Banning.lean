import VoxLink.Guilds.InviteCodes
import VoxLink.Guilds.Seats
import VoxLink.Guilds.Spelling

/-! What a ban leaves behind. It is stored in the rows that the target has in the guild, so that a
target without a row is not banned at all. -/

namespace VoxLink

open ProofKit Prog GuildsService

variable {X : Externals} {env : Env} {user : Profile} {db : Database} {s : Server} {g t : Uuid}
  {guildId targetUserId : String}

/-- The user has no active and no pending row in the guild, and is refused as banned, without an
effect, when joining by the code of the guild. -/
def BarredFrom (db : Database) (g t : Uuid) : Prop :=
  .active ∉ db.standing g t ∧ .pending ∉ db.standing g t ∧
    ∀ guild ∈ db.guilds, guild.id = g → ∀ code, guild.inviteCode = some code →
      ∀ env (user : Profile), user.id = t →
        (joinByInvite env code user).outcome db =
            .error (.forbidden "You are banned from this guild") ∧
          (joinByInvite env code user).final db = db

/-! ### Joining -/

section Joining

variable {code : String} {guild : Guild} (hcode : guildByCode code db = some guild)
include hcode

/-- A join of a user all of whose rows are banned, when there are some. -/
theorem joinByInvite_banned {m : GuildMember} (hm : m ∈ db.guildMembers)
    (hpair : m.guildId = guild.id ∧ m.userId = user.id)
    (hall : ∀ m ∈ db.guildMembers, m.guildId = guild.id ∧ m.userId = user.id →
      m.status = .banned) :
    (joinByInvite env code user).outcome db = .error (.forbidden "You are banned from this guild") ∧
      (joinByInvite env code user).final db = db := by
  obtain ⟨seat, hseat⟩ := Rows.exists_pick (k := env.pick 2)
    (p := fun m => decide (m.guildId = guild.id ∧ m.userId = user.id)) hm (by simpa using hpair)
  obtain ⟨hmem, hp⟩ := Rows.pick_some hseat
  have hbanned : seat.status = .banned := hall seat hmem (by simpa using hp)
  have hwp : wp (joinByInvite env code user) (fun _ _ => False)
      (fun e db' => e = .forbidden "You are banned from this guild" ∧ db' = db) db := by
    simp only [joinByInvite, wp_bind, wp_query, wp_orThrow, hcode]
    refine ⟨fun found hfound => ?_, fun h => by cases h⟩
    obtain rfl := Option.some.inj hfound
    rw [hseat]
    simp [wp_throwIf, hbanned]
  obtain ⟨e, hout, rfl, hfinal⟩ := hwp.throws
  exact ⟨hout, hfinal⟩

/-- A join of a user without rows is not refused as one of a banned user. -/
theorem joinByInvite_stranger (hstranger : db.standing guild.id user.id = []) :
    (joinByInvite env code user).outcome db ≠
      .error (.forbidden "You are banned from this guild") := by
  have hseat : Rows.pick (env.pick 2)
      (fun m => decide (m.guildId = guild.id ∧ m.userId = user.id)) db.guildMembers = none := by
    refine Rows.pick_eq_none.mpr fun m hm => ?_
    simpa using standing_eq_nil.mp hstranger m hm
  have hwp : wp (joinByInvite env code user) (fun _ _ => True)
      (fun e _ => e = .queryFailed (.foreignKey "userId")) db := by
    simp only [joinByInvite, wp_bind, wp_query, wp_orThrow, hcode]
    refine ⟨fun found hfound => ?_, fun h => by cases h⟩
    obtain rfl := Option.some.inj hfound
    rw [hseat]
    simp [wp_throwIf, wp_references, saveMember]
  intro hout
  cases hwp.of_thrown hout

end Joining

/-! ### After a ban -/

/-- The tables after a ban. -/
def withBan (env : Env) (db : Database) (g t : Uuid) : Database :=
  { db with
    guildMembers := Rows.modify (fun m => m.guildId = g ∧ m.userId = t)
      (fun m => { m with status := .banned, updatedAt := env.now }) db.guildMembers }

theorem standing_withBan :
    (withBan env db g t).standing g t = (db.standing g t).map fun _ => .banned :=
  standing_modify rfl fun _ => ⟨rfl, rfl, rfl⟩

theorem banned_of_mem_withBan {m : GuildMember} (hm : m ∈ (withBan env db g t).guildMembers)
    (hpair : m.guildId = g ∧ m.userId = t) : m.status = .banned := by
  have hstatus : m.status ∈ (withBan env db g t).standing g t :=
    mem_standing.mpr ⟨m, hm, hpair.1, hpair.2, rfl⟩
  rw [standing_withBan] at hstatus
  obtain ⟨_, -, hbanned⟩ := List.mem_map.mp hstatus
  exact hbanned.symm

theorem barredFrom_withBan (hcoded : Coded db) (h : db.standing g t ≠ []) :
    BarredFrom (withBan env db g t) g t := by
  refine ⟨?_, ?_, ?_⟩
  · rw [standing_withBan]
    simp
  · rw [standing_withBan]
    simp
  · rintro guild hguild rfl code hcode env' user' rfl
    have hfound : guildByCode code (withBan env db guild.id user'.id) = some guild :=
      hcoded.guildByCode_eq hguild hcode
    obtain ⟨status, hstatus⟩ := List.exists_mem_of_ne_nil _ h
    obtain ⟨old, hold, hg, hu, -⟩ := mem_standing.mp hstatus
    -- the rows that were there are there still, all of them banned
    refine joinByInvite_banned hfound (Rows.mem_modify.mpr ⟨old, hold, rfl⟩) ?_ ?_
    · simp [hg, hu]
    · exact fun m hm hpair => banned_of_mem_withBan hm hpair

theorem not_barredFrom_withBan (hcoded : Coded db) (hguild : ∃ guild ∈ db.guilds, guild.id = g)
    (h : db.standing g t = []) : ¬BarredFrom (withBan env db g t) g t := by
  rintro ⟨-, -, hjoin⟩
  obtain ⟨guild, hguild, rfl⟩ := hguild
  obtain ⟨code, hcode⟩ := hcoded.present guild hguild
  have hstranger : (withBan env db guild.id t).standing guild.id t = [] := by
    rw [standing_withBan, h]
    rfl
  let stranger : Profile := ⟨t, "", none, none, "", "", none, none, 0, 0⟩
  have hfound : guildByCode code (withBan env db guild.id t) = some guild :=
    hcoded.guildByCode_eq hguild hcode
  exact joinByInvite_stranger hfound hstranger
    (hjoin guild hguild rfl code hcode env stranger rfl).1

/-- In every reachable state, a ban that succeeds bars its target from the guild exactly when the
target has a row there. -/
theorem ban_bars_entry_iff (hs : Reached X s) (hg : Uuid.parse guildId = some g)
    (ht : Uuid.parse targetUserId = some t)
    (hban : (banMember env guildId targetUserId user).outcome s.db = .ok ()) :
    BarredFrom ((banMember env guildId targetUserId user).final s.db) g t ↔
      s.db.standing g t ≠ [] := by
  obtain ⟨g', t', hg', hperm, ht', -, hafter⟩ := banMember_wp.of_returned hban
  obtain rfl := Option.some.inj (hg.symm.trans hg')
  obtain rfl := Option.some.inj (ht.symm.trans ht')
  rw [show (banMember env guildId targetUserId user).final s.db = withBan env s.db g t from hafter]
  constructor
  · intro hbarred hnone
    exact not_barredFrom_withBan hs.coded hperm.exists_guild hnone hbarred
  · exact barredFrom_withBan hs.coded

/-- Bob joins the guild. -/
def bobJoined : Server :=
  run (serve sampleExternals) Server.empty (guildRun .absent ++ [byBob 4 (.joinByInvite "code3")])

theorem bobJoined_reached : Reached sampleExternals bobJoined := ⟨_, by decide +kernel, rfl⟩

/-- Alice bans him, and he is barred. -/
theorem banned_member_barred :
    BarredFrom ((banMember (sampleEnv 5) sampleGuild.toText bob.id.toText alice).final bobJoined.db)
      sampleGuild bob.id :=
  (ban_bars_entry_iff bobJoined_reached (Uuid.parse_toText _) (Uuid.parse_toText _)
    (by decide +kernel)).mpr (by decide +kernel)

/-- Alice bans Bob before he has joined. -/
theorem banned_stranger_enters :
    let before := (run (serve sampleExternals) Server.empty (guildRun .absent)).db
    let ban := banMember (sampleEnv 4) sampleGuild.toText bob.id.toText alice
    Reached sampleExternals (run (serve sampleExternals) Server.empty (guildRun .absent)) ∧
      ownerOf before sampleGuild ≠ some bob.id ∧ ban.outcome before = .ok () ∧
      (joinByInvite (sampleEnv 5) "code3" bob).passes (ban.final before) = true ∧
      ¬BarredFrom (ban.final before) sampleGuild bob.id := by
  intro before ban
  have hjoined : (joinByInvite (sampleEnv 5) "code3" bob).passes (ban.final before) = true := by
    decide +kernel
  refine ⟨⟨_, by decide +kernel, rfl⟩, by decide +kernel, by decide +kernel, hjoined, ?_⟩
  rintro ⟨-, -, hrefused⟩
  have hguild : ∃ guild ∈ (ban.final before).guilds,
      guild.id = sampleGuild ∧ guild.inviteCode = some "code3" := by decide +kernel
  obtain ⟨guild, hguild, hid, hcode⟩ := hguild
  have hout := (hrefused guild hguild hid "code3" hcode (sampleEnv 5) bob rfl).1
  rw [passes_eq_isOk, hout] at hjoined
  exact nomatch hjoined

end VoxLink
