import VoxLink.Accounts.Clock
import VoxLink.Content.Requests
import VoxLink.Guilds.Joining
import VoxLink.Guilds.Revocations

/-! `joinByInvite` cut at its `await`s. A call that has been let in stores its membership in a later
turn, whatever has become of the guild, the role or the user since. -/

namespace VoxLink

open ProofKit Prog GuildsService

/-! ### The turns of a call -/

/-- A call of `joinByInvite`. -/
structure Join where
  env : Env
  inviteCode : String
  user : Profile

/-- What a call awaits, with what it has loaded. -/
inductive JoinAwaits where
  | findGuild
  | findMember (guild : Guild)
  | findRole (guild : Guild)
  | save (guild : Guild) (memberRole : Option GuildRole)
deriving DecidableEq

namespace Join

/-- The insertion of the membership and of its link, in one transaction. The columns and the link
refer to a user, a guild and a role. -/
def store (j : Join) (now : Date) (guild : Guild) (memberRole : Option GuildRole) :
    Service GuildMember := do
  let userFound ← query fun db => (db.userById j.user.id).isSome
  references "userId" userFound
  let guildFound ← query fun db => (db.guildById guild.id).isSome
  references "guildId" guildFound
  let roleFound ← query fun db => memberRole.all fun role => (db.roleById role.id).isSome
  references "roleId" roleFound
  let status := if guild.requiresApproval then MemberStatus.pending else .active
  let member := newMember (j.env.at now) (j.env.uuids 0) guild.id j.user.id status
    (memberRole.map (·.id)).toList
  saveMember member
  pure member

/-- What a call does when what it awaits is there, up to the next `await`. -/
def turnAt (j : Join) (now : Date) : JoinAwaits → Service (JoinAwaits ⊕ GuildMember)
  | .findGuild => do
    let guild ← query fun db => guildByCode j.inviteCode db
    let guild ← orThrow (.notFound "Invalid invite code") guild
    pure (.inl (.findMember guild))
  | .findMember guild => do
    let existing ← query fun db => Rows.pick (j.env.pick 2)
      (fun m => m.guildId = guild.id ∧ m.userId = j.user.id) db.guildMembers
    throwIf (existing.map (·.status) = some .active) (.conflict "Already a member")
    throwIf (existing.map (·.status) = some .banned) (.forbidden "You are banned from this guild")
    pure (.inl (.findRole guild))
  | .findRole guild => do
    let memberRole ← query fun db => lowestRole j.env guild.id db
    pure (.inl (.save guild memberRole))
  | .save guild memberRole => .inr <$> j.store now guild memberRole

def turn (j : Join) (w : JoinAwaits) : Prog Exception Clocked (JoinAwaits ⊕ GuildMember) :=
  clocked fun now => onDb (j.turnAt now w)

/-- The rest of a call from where it stands. -/
def restAt (j : Join) (now : Date) : JoinAwaits → Service GuildMember
  | .findGuild => joinByInvite (j.env.at now) j.inviteCode j.user
  | .findMember guild => do
    let existing ← query fun db => Rows.pick (j.env.pick 2)
      (fun m => m.guildId = guild.id ∧ m.userId = j.user.id) db.guildMembers
    throwIf (existing.map (·.status) = some .active) (.conflict "Already a member")
    throwIf (existing.map (·.status) = some .banned) (.forbidden "You are banned from this guild")
    let memberRole ← query fun db => lowestRole j.env guild.id db
    j.store now guild memberRole
  | .findRole guild => do
    let memberRole ← query fun db => lowestRole j.env guild.id db
    j.store now guild memberRole
  | .save guild memberRole => j.store now guild memberRole

/-- The turns that a call still needs after the next. -/
def left : JoinAwaits → Nat
  | .findGuild => 3
  | .findMember _ => 2
  | .findRole _ => 1
  | .save _ _ => 0

abbrev move := advance turn

variable {c : Clocked} {j : Join} {w : JoinAwaits} {db : Database}

theorem lowestRole_found {env : Env} {g : Uuid} :
    (lowestRole env g db).all (fun role => (db.roleById role.id).isSome) = true := by
  cases hrole : lowestRole env g db with
  | none => rfl
  | some role =>
    have hmem := (lowestRole_some hrole).1
    rw [Option.all_some, Database.roleById]
    exact List.find?_isSome.mpr ⟨role, hmem, decide_eq_true rfl⟩

/-- In one go, a call finds the guild and the role that it has loaded. -/
theorem joinByInvite_eq (now : Date) : joinByInvite (j.env.at now) j.inviteCode j.user =
    (do
      let guild ← query fun db => guildByCode j.inviteCode db
      let guild ← orThrow (.notFound "Invalid invite code") guild
      j.restAt now (.findMember guild)) := by
  funext db
  refine bind_congr_at fun found db hfound => ?_
  obtain ⟨rfl, rfl⟩ := query_ok hfound
  refine bind_congr_at fun guild db hguild => ?_
  obtain ⟨hguild, rfl⟩ := orThrow_ok hguild
  have hguildFound : (db.guildById guild.id).isSome = true :=
    List.find?_isSome.mpr ⟨guild, (guildByCode_mem hguild).1, decide_eq_true rfl⟩
  refine bind_congr_at fun existing db hexisting => ?_
  obtain ⟨rfl, rfl⟩ := query_ok hexisting
  refine bind_congr_at fun _ db hactive => ?_
  obtain ⟨-, rfl⟩ := throwIf_ok hactive
  refine bind_congr_at fun _ db hsettled => ?_
  obtain ⟨-, rfl⟩ := throwIf_ok hsettled
  refine bind_congr_at fun memberRole db hrole => ?_
  obtain ⟨rfl, rfl⟩ := query_ok hrole
  refine bind_congr_at fun userFound db huser => ?_
  obtain ⟨rfl, rfl⟩ := query_ok huser
  refine bind_congr_at fun _ db hreferences => ?_
  obtain ⟨-, rfl⟩ := throwIf_ok hreferences
  rw [bind_at (query_at rfl), bind_at (references_at hguildFound), bind_at (query_at rfl),
    bind_at (references_at lowestRole_found)]
  rfl

theorem restAt_turn (now : Date) (w : JoinAwaits) :
    j.restAt now w = (j.turnAt now w >>= fun x => Sum.elim (j.restAt now) pure x) := by
  cases w with
  | findGuild =>
    simp only [turnAt, bind_assoc, pure_bind, Sum.elim_inl]
    exact joinByInvite_eq now
  | findMember guild => simp only [turnAt, restAt, bind_assoc, pure_bind, Sum.elim_inl]
  | findRole guild => simp only [turnAt, restAt, bind_assoc, pure_bind, Sum.elim_inl]
  | save guild memberRole =>
    simp only [turnAt, restAt, bind_map_left, Sum.elim_inr, bind_pure]

/-! ### What a turn does -/

/-- What a turn of a call makes of what it awaits and of the tables. -/
inductive Moves (j : Join) (now : Date) (db : Database) :
    JoinAwaits → Course JoinAwaits Exception GuildMember → Database → Prop
  | found {guild : Guild} (hguild : guildByCode j.inviteCode db = some guild) :
      Moves j now db .findGuild (.awaits (.findMember guild)) db
  | unknown (hguild : guildByCode j.inviteCode db = none) :
      Moves j now db .findGuild (.ended (.error (.notFound "Invalid invite code"))) db
  | letIn {guild : Guild} (hadm : JoinAdmitted db guild.id j.user.id) :
      Moves j now db (.findMember guild) (.awaits (.findRole guild)) db
  | already {guild : Guild} (hactive : .active ∈ db.standing guild.id j.user.id) :
      Moves j now db (.findMember guild) (.ended (.error (.conflict "Already a member"))) db
  | banned {guild : Guild} (hsettled : .banned ∈ db.standing guild.id j.user.id) :
      Moves j now db (.findMember guild)
        (.ended (.error (.forbidden "You are banned from this guild"))) db
  | role {guild : Guild} :
      Moves j now db (.findRole guild) (.awaits (.save guild (lowestRole j.env guild.id db))) db
  | stored {guild : Guild} {memberRole : Option GuildRole} {m : GuildMember}
      (hm : m = newMember (j.env.at now) (j.env.uuids 0) guild.id j.user.id
        (if guild.requiresApproval then .pending else .active) (memberRole.map (·.id)).toList) :
      Moves j now db (.save guild memberRole) (.ended (.ok m))
        { db with guildMembers := db.guildMembers ++ [m] }
  | dangling {guild : Guild} {memberRole : Option GuildRole} {column : String}
      (hgone : db.userById j.user.id = none ∨ db.guildById guild.id = none ∨
        ∃ role, memberRole = some role ∧ db.roleById role.id = none) :
      Moves j now db (.save guild memberRole)
        (.ended (.error (.queryFailed (.foreignKey column)))) db

theorem pick_standing {k : Nat} {g u : Uuid} {status : MemberStatus}
    (h : ((Rows.pick k (fun m => decide (m.guildId = g ∧ m.userId = u)) db.guildMembers).map
      (·.status)) = some status) : status ∈ db.standing g u := by
  obtain ⟨m, hpick, rfl⟩ := Option.map_eq_some_iff.mp h
  obtain ⟨hm, hp⟩ := Rows.pick_some hpick
  have hpair := of_decide_eq_true hp
  exact mem_standing.mpr ⟨m, hm, hpair.1, hpair.2, rfl⟩

theorem move_moves : Moves j c.now c.server.db w (move (j, .awaits w) c).1.2
    (move (j, .awaits w) c).2.server.db := by
  refine advance_of_wp (r := j) (p := w) (s := c)
    (C := fun l c' => Moves j c.now c.server.db w l.2 c'.server.db) ?_
  apply wp_clocked.mpr
  rw [wp_onDb]
  cases w with
  | findGuild =>
    simp only [turnAt, wp_bind, wp_query, wp_orThrow, wp_pure]
    exact ⟨fun _ => .found, .unknown⟩
  | findMember guild =>
    simp only [turnAt, wp_bind, wp_query, wp_throwIf, wp_pure, decide_eq_true_eq]
    refine ⟨fun hactive => ⟨fun hsettled => ?_, fun hsettled => ?_⟩, fun hactive => ?_⟩
    · exact .letIn (joinAdmitted_of_pick rfl hactive hsettled)
    · exact .banned (pick_standing hsettled)
    · exact .already (pick_standing hactive)
  | findRole guild => exact .role
  | save guild memberRole =>
    simp only [turnAt, store, saveMember, wp_map, wp_bind, wp_query, wp_references,
      wp_write, wp_pure]
    refine ⟨fun huser => ⟨fun hguild => ⟨fun hrole => ?_, fun hrole => ?_⟩, fun hguild => ?_⟩,
      fun huser => ?_⟩
    · exact .stored rfl
    · refine .dangling (.inr (.inr ?_))
      cases memberRole with
      | none => cases hrole
      | some role => exact ⟨role, rfl, by simpa using hrole⟩
    · exact .dangling (.inr (.inl (by simpa using hguild)))
    · exact .dangling (.inl (by simpa using huser))

theorem left_lt {w' : JoinAwaits} {c c' : Clocked} (h : j.turn w c = .ok (.inl w') c') :
    left w' < left w := by
  have hmoves : Moves j c.now c.server.db w (.awaits w') c'.server.db := by
    have hmove := move_moves (j := j) (w := w) (c := c)
    rwa [move, advance_ok h] at hmove
  generalize c'.server.db = db' at hmoves
  cases hmoves with
  | found | letIn | role => exact Nat.lt_succ_self _

/-- A call that is not interrupted does what `joinByInvite` does. -/
theorem join_alone : run (Pool.turn move) ⟨[(j, .awaits .findGuild)], c⟩ (List.replicate 4 0) =
    ⟨[(j, .ended ((joinByInvite (j.env.at c.now) j.inviteCode j.user).outcome c.server.db))],
      { c with server := { c.server with
          db := (joinByInvite (j.env.at c.now) j.inviteCode j.user).final c.server.db } }⟩ := by
  have hprog : ∀ w, clocked (fun now => onDb (j.restAt now w)) = j.turn w >>= fun x =>
      Sum.elim (fun w => clocked fun now => onDb (j.restAt now w)) pure x := by
    refine clocked_rest fun now w => ?_
    rw [restAt_turn, ContentRequest.onDb_bind]
    congr 1
    funext x
    cases x <;> rfl
  rw [run_course hprog (fun _ _ _ _ => left_lt) (show left .findGuild < 4 by decide)]
  simp only [Prog.outcome, Prog.final, clocked, onDb, within, restAt]
  cases joinByInvite (j.env.at c.now) j.inviteCode j.user c.server.db <;> rfl

/-! ### Calls between other requests -/

abbrev Call := Join × Course JoinAwaits Exception GuildMember

namespace Call

/-- The call has been let into `g` for `t` and has not stored the membership yet. -/
def underWay (g t : Uuid) (l : Call) : Bool :=
  match l.2 with
  | .awaits (.findRole guild) | .awaits (.save guild _) => guild.id = g ∧ l.1.user.id = t
  | _ => false

/-- The call has stored its membership. -/
def entered (l : Call) : Bool :=
  match l.2 with
  | .ended (.ok _) => true
  | _ => false

def refused (l : Call) : Bool :=
  match l.2 with
  | .ended (.error _) => true
  | _ => false

theorem not_entered {g t : Uuid} {l : Call} (h : l.underWay g t = true ∨ l.refused = true) :
    l.entered = false := by
  obtain ⟨j, course⟩ := l
  cases course with
  | awaits w => rfl
  | ended o =>
    cases o with
    | error e => rfl
    | ok m => rcases h with h | h <;> exact Bool.noConfusion h

end Call

/-- Time passes, or another request is handled. -/
def drift (X : Externals) : Nat ⊕ (Env × Request) → Clocked → Clocked
  | .inl ms, c => c.pass ms
  | .inr i, c => { c with server := (serve X c.server (i.1.at c.now, i.2)).2 }

/-- Call `k` takes its turn, or something else happens. -/
abbrev step (X : Externals) :
    Pool Call Clocked → Nat ⊕ (Nat ⊕ (Env × Request)) → Unit × Pool Call Clocked :=
  Pool.step move (drift X)

/-- The request is one to kick or to ban `t` from `g`. -/
def expels (g t : Uuid) (route : Route) : Bool :=
  match route with
  | .guilds r => r.expelled.any fun x => Uuid.parse x.1 = some g ∧ Uuid.parse x.2 = some t
  | _ => false

/-- A request is not one to expel `t` from `g`, and both are there after it. -/
def Spares (X : Externals) (g t : Uuid) (p : Pool Call Clocked) :
    Nat ⊕ (Nat ⊕ (Env × Request)) → Prop
  | .inr (.inr i) => FreshStep p.state.server i ∧ expels g t i.2.route = false ∧
      g ∈ (step X p (.inr (.inr i))).2.state.server.db.guilds.map (·.id) ∧
      t ∈ (step X p (.inr (.inr i))).2.state.server.db.users.map (·.id)
  | _ => True

instance (X : Externals) (g t : Uuid) : ∀ (p : Pool Call Clocked) i, Decidable (Spares X g t p i)
  | _, .inr (.inr _) => inferInstanceAs (Decidable (_ ∧ _ ∧ _ ∧ _))
  | _, .inl _ => inferInstanceAs (Decidable True)
  | _, .inr (.inl _) => inferInstanceAs (Decidable True)

def underWayAt (g t : Uuid) (p : Pool Call Clocked) (k : Nat) : Bool :=
  (p.jobs[k]?).any (Call.underWay g t)

/-- Call `k` was let into `g` for `t` before, and has stored its membership since. -/
def SlipsIn (g t : Uuid) (before after : Pool Call Clocked) (k : Nat) : Prop :=
  underWayAt g t before k = true ∧ (after.jobs[k]?).any Call.entered = true

instance (g t : Uuid) (before after : Pool Call Clocked) (k : Nat) :
    Decidable (SlipsIn g t before after k) :=
  inferInstanceAs (Decidable (_ ∧ _))

variable {X : Externals} {g t : Uuid} {p before : Pool Call Clocked}

/-- A request that spares `t` leaves the rows of `t` in `g` alone, or `t` joins `g`. -/
theorem standing_of_spares {env : Env} {user : Profile} {route : Route} {db' : Database}
    (hc : Change env user db route db') (hfresh : Fresh env db)
    (hguild : g ∈ db.guilds.map (·.id)) (hexpels : expels g t route = false)
    (hguild' : g ∈ db'.guilds.map (·.id)) (huser' : t ∈ db'.users.map (·.id)) :
    db'.standing g t = db.standing g t ∨
      (db.standing g t = [] ∨ .pending ∈ db.standing g t) ∧
        ∃ status, db'.standing g t = db.standing g t ++ [status] := by
  cases hc.reseated g t with
  | same hst => exact .inl hst
  | founded hg _ =>
    obtain ⟨x, hx, hid⟩ := List.mem_map.mp hguild
    exact absurd (hid.trans hg) (hfresh.ne_guild (by decide) hx)
  | joined _ _ status _ _ _ _ hadm _ hst => exact .inr ⟨hadm, status, hst⟩
  | kicked text target hroute hg ht _ _ _ _ =>
    rw [hroute] at hexpels
    simp [expels, GuildRoute.expelled, hg, ht] at hexpels
  | banned text target hroute _ _ _ _ =>
    rw [hroute] at hc hexpels
    cases hc with
    | elsewhere hother _ => exact Bool.noConfusion hother
    | @ban _ _ h u hg hu _ _ =>
      -- another pair is banned
      refine .inl (standing_modify_of_not rfl (fun _ => ⟨rfl, rfl⟩) ?_)
      rintro ⟨rfl, rfl⟩
      simp [expels, GuildRoute.expelled, hg, hu] at hexpels
    | setRoles _ _ =>
      refine .inl (standing_map rfl fun m => ?_)
      split <;> exact ⟨rfl, rfl, rfl⟩
    | deleteRole _ _ => exact .inl (standing_map rfl fun _ => ⟨rfl, rfl, rfl⟩)
    | _ => exact .inl rfl
  | accountDeleted _ _ hdb _ =>
    rw [hdb] at huser'
    obtain ⟨x, hx, hid⟩ := List.mem_map.mp huser'
    have hne := (Rows.mem_remove.mp hx).2
    simp [hid] at hne
  | guildDeleted _ _ _ hdb _ =>
    rw [hdb] at hguild'
    obtain ⟨x, hx, hid⟩ := List.mem_map.mp hguild'
    have hne := (Rows.mem_remove.mp hx).2
    simp [hid] at hne

/-- `t` has a row in `g`, and none is pending: no further call is let in. -/
def Settled (db : Database) (g t : Uuid) : Prop :=
  db.standing g t ≠ [] ∧ .pending ∉ db.standing g t

instance (db : Database) (g t : Uuid) : Decidable (Settled db g t) :=
  inferInstanceAs (Decidable (_ ∧ _))

theorem Settled.not_admitted (h : Settled db g t) :
    ¬(db.standing g t = [] ∨ .pending ∈ db.standing g t) :=
  not_or.mpr h

/-- A ban settles the standing of a member. -/
theorem settled_withBan {env : Env} (h : db.standing g t ≠ []) :
    Settled (withBan env db g t) g t := by
  rw [Settled, standing_withBan]
  refine ⟨fun hnone => h (List.map_eq_nil_iff.mp hnone), fun hpending => ?_⟩
  obtain ⟨_, -, heq⟩ := List.mem_map.mp hpending
  cases heq

/-- The standing of `t` in `g` is what it was, or a call has slipped in. -/
inductive Afterwards (g t : Uuid) (before p : Pool Call Clocked) : Prop
  | holds (hsame : p.state.server.db.standing g t = before.state.server.db.standing g t)
      (hknown : ∀ k, underWayAt g t p k = true → underWayAt g t before k = true)
      (hleft : ∀ k, underWayAt g t before k = true →
        underWayAt g t p k = true ∨ (p.jobs[k]?).any Call.refused = true) : Afterwards g t before p
  | broken {k : Nat} {extra : List MemberStatus} (hextra : extra ≠ [])
      (hstanding : p.state.server.db.standing g t = before.state.server.db.standing g t ++ extra)
      (hslips : SlipsIn g t before p k) : Afterwards g t before p

section Turns

variable {k : Nat} {course : Course JoinAwaits Exception GuildMember} {c' : Clocked}
  (hk : p.jobs[k]? = some (j, .awaits w))
include hk

/-- A call that has stored its membership has no turn any more. -/
theorem SlipsIn.stays {i : Nat} (h : SlipsIn g t before p i) :
    SlipsIn g t before ⟨p.jobs.set k (j, course), c'⟩ i := by
  refine ⟨h.1, ?_⟩
  rw [set_get_any hk, if_neg]
  · exact h.2
  · rintro rfl
    exact Bool.false_ne_true ((jobs_get_any hk).symm.trans h.2)

/-- A turn that leaves the rows of `t` in `g` alone and lets nobody in while they are settled. -/
theorem Afterwards.stays (h : Afterwards g t before p)
    (hsettled : Settled before.state.server.db g t)
    (hsame : c'.server.db.standing g t = p.state.server.db.standing g t)
    (hknows : Settled p.state.server.db g t → Call.underWay g t (j, course) = true →
      Call.underWay g t (j, .awaits w) = true)
    (hstays : Call.underWay g t (j, .awaits w) = true → Call.underWay g t (j, course) = true ∨
      Call.refused (j, course) = true) :
    Afterwards g t before ⟨p.jobs.set k (j, course), c'⟩ := by
  cases h with
  | broken hextra hstanding hslips =>
    exact .broken hextra (hsame.trans hstanding) (hslips.stays hk)
  | holds hstanding hknown hleft =>
    have hstill : Settled p.state.server.db g t := by
      rw [Settled, hstanding]
      exact hsettled
    have hthis : underWayAt g t p k = Call.underWay g t (j, .awaits w) := jobs_get_any hk
    have hset : ∀ i f, ((p.jobs.set k (j, course))[i]?).any f =
        if i = k then f (j, course) else (p.jobs[i]?).any f := fun i f => set_get_any hk i
    refine .holds (hsame.trans hstanding) (fun i hi => ?_) fun i hi => ?_
    · rw [underWayAt, hset] at hi
      split at hi
      · rename_i hik
        rw [hik]
        exact hknown k (hthis.trans (hknows hstill hi))
      · exact hknown i hi
    · rw [underWayAt, hset, hset]
      have hold := hleft i hi
      split
      · rename_i hik
        rw [hik] at hold
        refine hstays (hold.elim hthis.symm.trans fun hrefused => ?_)
        exact absurd ((jobs_get_any hk).symm.trans hrefused) Bool.false_ne_true
      · exact hold

/-- A call stores the membership of `t` in `g`. -/
theorem Afterwards.enters {m : GuildMember} (h : Afterwards g t before p)
    (hm : m.guildId = g ∧ m.userId = t)
    (hmembers : c'.server.db.guildMembers = p.state.server.db.guildMembers ++ [m])
    (hunderWay : Call.underWay g t (j, .awaits w) = true) :
    Afterwards g t before ⟨p.jobs.set k (j, .ended (.ok m)), c'⟩ := by
  have happend : c'.server.db.standing g t = p.state.server.db.standing g t ++ [m.status] :=
    standing_append hmembers hm
  cases h with
  | broken hextra hstanding hslips =>
    rw [hstanding, List.append_assoc] at happend
    exact .broken (List.append_ne_nil_of_left_ne_nil hextra _) happend (hslips.stays hk)
  | holds hsame hknown _ =>
    rw [hsame] at happend
    refine .broken (k := k) (List.cons_ne_nil _ _) happend ⟨?_, ?_⟩
    · exact hknown k ((jobs_get_any hk).trans hunderWay)
    · rw [set_get_any hk, if_pos rfl]
      rfl

end Turns

theorem turn_afterwards {k : Nat} (hsettled : Settled before.state.server.db g t)
    (h : Afterwards g t before p) : Afterwards g t before (p.turn move k).2 := by
  refine turn_moves (M := fun j c w course c' => Moves j c.now c.server.db w course c'.server.db)
    (I := Afterwards g t before) (fun _ _ _ => move_moves) h ?_
  intro j w course c' hk hmoves
  generalize hdb' : c'.server.db = db' at hmoves
  cases hmoves with
  | found | unknown | already | banned =>
    refine h.stays hk hsettled (hdb' ▸ rfl) (fun _ hnew => ?_) fun hold => ?_
    · exact Bool.noConfusion hnew
    · exact Bool.noConfusion hold
  | letIn hadm =>
    refine h.stays hk hsettled (hdb' ▸ rfl) (fun hstill hnew => ?_) fun hold => ?_
    · obtain ⟨rfl, rfl⟩ := of_decide_eq_true hnew
      exact absurd (standing_of_joinAdmitted hadm) hstill.not_admitted
    · exact Bool.noConfusion hold
  | role => exact h.stays hk hsettled (hdb' ▸ rfl) (fun _ hnew => hnew) .inl
  | dangling hgone =>
    refine h.stays hk hsettled (hdb' ▸ rfl) (fun _ hnew => ?_) fun _ => .inr rfl
    exact Bool.noConfusion hnew
  | @stored guild _ m hm =>
    by_cases hpair : guild.id = g ∧ j.user.id = t
    · refine h.enters hk ?_ (hdb' ▸ rfl) (decide_eq_true hpair)
      rw [hm]
      exact hpair
    · have hother : ¬(m.guildId = g ∧ m.userId = t) := by
        rw [hm]
        exact hpair
      refine h.stays hk hsettled ?_ (fun _ hnew => ?_) fun hold => ?_
      · exact hdb' ▸ standing_append_of_not rfl hother
      · exact Bool.noConfusion hnew
      · exact absurd (of_decide_eq_true hold) hpair

theorem turn_guilds {k : Nat} :
    (p.turn move k).2.state.server.db.guilds = p.state.server.db.guilds := by
  refine turn_moves (M := fun j c w course c' => Moves j c.now c.server.db w course c'.server.db)
    (I := fun q : Pool Call Clocked => q.state.server.db.guilds = p.state.server.db.guilds)
    (fun _ _ _ => move_moves) rfl ?_
  intro j w course c' hk hmoves
  generalize c'.server.db = db' at hmoves ⊢
  cases hmoves <;> rfl

/-- Another request, while the calls stand where they do. -/
theorem Afterwards.drifts {c' : Clocked} (h : Afterwards g t before p)
    (hsettled : Settled before.state.server.db g t)
    (hstanding : c'.server.db.standing g t = p.state.server.db.standing g t ∨
      (p.state.server.db.standing g t = [] ∨ .pending ∈ p.state.server.db.standing g t) ∧
        ∃ status, c'.server.db.standing g t = p.state.server.db.standing g t ++ [status]) :
    Afterwards g t before { p with state := c' } := by
  cases h with
  | holds hsame hknown hleft =>
    have hstill : Settled p.state.server.db g t := by
      rw [Settled, hsame]
      exact hsettled
    refine .holds ?_ hknown hleft
    exact (hstanding.resolve_right fun hadm => hstill.not_admitted hadm.1).trans hsame
  | broken hextra hbefore hslips =>
    rcases hstanding with hsame | ⟨-, status, happend⟩
    · exact .broken hextra (hsame.trans hbefore) hslips
    · rw [hbefore, List.append_assoc] at happend
      exact .broken (List.append_ne_nil_of_left_ne_nil hextra _) happend hslips

theorem step_afterwards {i : Nat ⊕ (Nat ⊕ (Env × Request))}
    (hsettled : Settled before.state.server.db g t)
    (h : g ∈ p.state.server.db.guilds.map (·.id) ∧ Afterwards g t before p)
    (hspares : Spares X g t p i) :
    g ∈ (step X p i).2.state.server.db.guilds.map (·.id) ∧
      Afterwards g t before (step X p i).2 := by
  obtain ⟨hguild, h⟩ := h
  cases i with
  | inl k =>
    have hguilds : (step X p (.inl k)).2.state.server.db.guilds = p.state.server.db.guilds :=
      turn_guilds
    exact ⟨hguilds ▸ hguild, turn_afterwards hsettled h⟩
  | inr e =>
    cases e with
    | inl ms => exact ⟨hguild, h.drifts hsettled (.inl rfl)⟩
    | inr i =>
      obtain ⟨hfresh, hexpels, hguild', huser'⟩ := hspares
      refine ⟨hguild', h.drifts hsettled ?_⟩
      rcases serve_handled (X := X) p.state.server (i.1.at p.state.now, i.2) with hsame |
        ⟨user, -, hc⟩
      · left
        show (serve X p.state.server (i.1.at p.state.now, i.2)).2.db.standing g t = _
        rw [Database.standing, Database.seats, hsame.members]
        rfl
      · exact standing_of_spares hc hfresh hguild hexpels hguild' huser'

/-- Once a user has a row in a guild and none is pending, after a ban for one, the statuses of the
rows stay what they are, whatever calls of `joinByInvite` and requests that spare the user come
then, unless a call stores its membership that had been let in before. -/
theorem settled_standing_iff (X : Externals) (g t : Uuid) (before : Pool Call Clocked)
    (is : List (Nat ⊕ (Nat ⊕ (Env × Request)))) (hsettled : Settled before.state.server.db g t)
    (hguild : g ∈ before.state.server.db.guilds.map (·.id))
    (hspares : Along (step X) (Spares X g t) before is) :
    (run (step X) before is).state.server.db.standing g t = before.state.server.db.standing g t ↔
      ∀ k, ¬SlipsIn g t before (run (step X) before is) k := by
  have hstart : Afterwards g t before before := .holds rfl (fun _ h => h) fun _ h => .inl h
  have hafter := (hspares.invariant
    (I := fun p => g ∈ p.state.server.db.guilds.map (·.id) ∧ Afterwards g t before p)
    (fun _ _ h hi => step_afterwards hsettled h hi) ⟨hguild, hstart⟩).2
  generalize run (step X) before is = p at hafter ⊢
  cases hafter with
  | holds hsame hknown hleft =>
    refine iff_of_true hsame fun k hslips => ?_
    have hk := hleft k hslips.1
    have hentered := hslips.2
    cases hjob : p.jobs[k]? with
    | none => simp [hjob] at hentered
    | some l =>
      rw [underWayAt, hjob, Option.any_some, Option.any_some] at hk
      rw [hjob, Option.any_some, Call.not_entered hk] at hentered
      exact Bool.false_ne_true hentered
  | broken hextra hstanding hslips =>
    refine iff_of_false (fun hsame => ?_) fun hnone => hnone _ hslips
    exact hextra (List.append_right_eq_self.mp (hstanding.symm.trans hsame))

/-- Bob has called `joinByInvite` twice. Both calls have found that he is no member; the second has
stored its membership, and Alice has banned him. -/
def bobBannedTwice : Pool Call Clocked :=
  run (step sampleExternals)
    ⟨[(⟨sampleEnv 4, "code3", bob⟩, .awaits .findGuild),
      (⟨sampleEnv 5, "code3", bob⟩, .awaits .findGuild)],
      ⟨(sampleEnv 6).now, run (serve sampleExternals) Server.empty (guildRun .absent)⟩⟩
    [.inl 0, .inl 0, .inl 1, .inl 1, .inl 1, .inl 1,
      .inr (.inr (byAlice 6 (.banMember sampleGuild.toText bob.id.toText)))]

/-- The first call stores its membership after the ban. -/
theorem bob_slips_in :
    (run (step sampleExternals) bobBannedTwice
      [.inl 0, .inr (.inl 1000), .inl 0]).state.server.db.standing
        sampleGuild bob.id ≠ bobBannedTwice.state.server.db.standing sampleGuild bob.id := by
  intro hsame
  have hnone := (settled_standing_iff sampleExternals sampleGuild bob.id bobBannedTwice
    [.inl 0, .inr (.inl 1000), .inl 0] (by decide +kernel) (by decide +kernel)
    (by decide +kernel)).mp hsame
  exact hnone 0 (by decide +kernel)

end Join

end VoxLink
