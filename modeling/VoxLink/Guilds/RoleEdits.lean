import VoxLink.Guilds.Spelling
import VoxLink.ProofKit.Pools

/-! `assignRole` and `removeRole` cut at their `await`s. Each of them reads the roles of a member,
and later stores a list of roles for him, so that requests that take turns may overwrite each
other's lists. -/

namespace VoxLink

open ProofKit Prog GuildsService

/-- A call of `assignRole` or of `removeRole`. -/
structure RoleEdit where
  assigns : Bool
  env : Env
  guildId : String
  targetUserId : String
  roleId : String
  user : Profile

/-- What a call awaits, with what it has loaded: the membership of its caller, unless he owns the
guild, the role to assign, and the target's membership. -/
inductive Stage where
  | guild
  | caller (g : Uuid)
  | role (g : Uuid) (caller : Option GuildMember)
  | target (g : Uuid) (caller : Option GuildMember) (role : Option GuildRole)
  | save (caller : Option GuildMember) (member : GuildMember) (roles : List GuildRole)
  | settled (o : Except Exception Unit)
deriving DecidableEq, Repr

namespace RoleEdit

/-- The call, run without interruption. -/
def program (e : RoleEdit) : Service Unit :=
  if e.assigns then assignRole e.env e.guildId e.targetUserId e.roleId e.user
  else removeRole e.env e.guildId e.targetUserId e.roleId e.user

/-- The first stage after `requirePermission`. -/
def permitted (e : RoleEdit) (g : Uuid) (caller : Option GuildMember) : Stage :=
  if e.assigns then .role g caller else .target g caller none

/-- What a call does when what it awaits is there, up to the next `await`. -/
def turn (e : RoleEdit) : Stage → Service Stage
  | .guild => do
    let g ← uuidOf e.guildId
    let guild ← query fun db => db.guildById g
    let guild ← orThrow (.notFound "Guild not found") guild
    pure (if guild.ownerId = some e.user.id then e.permitted g none else .caller g)
  | .caller g => do
    let member ← getMemberOrThrow e.env 0 g e.user.id
    let permitted ← query fun db => hasPermission db member .manageRoles
    throwIf (!permitted) (.forbidden "Insufficient permissions")
    pure (e.permitted g (some member))
  | .role g caller => do
    let role ← findRole e.roleId g
    pure (.target g caller (some role))
  | .target g caller role => do
    let target ← uuidOf e.targetUserId
    let member ← getMemberOrThrow e.env 1 g target
    let roles ← query fun db => db.rolesOf member
    match role with
    | some role =>
      if roles.any (fun r => r.id.toText = e.roleId) then pure (.settled (.ok ()))
      else pure (.save caller member (roles ++ [role]))
    | none => pure (.save caller member (roles.filter fun r => r.id.toText ≠ e.roleId))
  | .save _ member roles => do
    saveRoles member.id roles
    pure (.settled (.ok ()))
  | .settled o => pure (.settled o)

/-- A turn of a call; an exception settles it. -/
def move (l : RoleEdit × Stage) (db : Database) : (RoleEdit × Stage) × Database :=
  match l.1.turn l.2 db with
  | .ok st db' => ((l.1, st), db')
  | .error x db' => ((l.1, .settled (.error x)), db')

/-- The rest of a call from the load of the target's membership on, without interruption. -/
def toSave (e : RoleEdit) (g : Uuid) (role : Option GuildRole) : Service Unit := do
  let target ← uuidOf e.targetUserId
  let member ← getMemberOrThrow e.env 1 g target
  let roles ← query fun db => db.rolesOf member
  match role with
  | some role =>
    if roles.any (fun r => r.id.toText = e.roleId) then pure ()
    else saveRoles member.id (roles ++ [role])
  | none => saveRoles member.id (roles.filter fun r => r.id.toText ≠ e.roleId)

/-- The rest of a call from any stage on. -/
def rest (e : RoleEdit) : Stage → Service Unit
  | .guild => e.program
  | .caller g => do
    let member ← getMemberOrThrow e.env 0 g e.user.id
    let permitted ← query fun db => hasPermission db member .manageRoles
    throwIf (!permitted) (.forbidden "Insufficient permissions")
    onPermit g
  | .role g _ => do
    let role ← findRole e.roleId g
    e.toSave g (some role)
  | .target g _ role => e.toSave g role
  | .save _ member roles => saveRoles member.id roles
  | .settled (.ok ()) => pure ()
  | .settled (.error x) => throw x
where
  onPermit (g : Uuid) : Service Unit :=
    if e.assigns then do
      let role ← findRole e.roleId g
      e.toSave g (some role)
    else e.toSave g none

end RoleEdit

variable {e : RoleEdit} {st st' : Stage} {base s s' : Database}

theorem rest_permitted (g : Uuid) (c : Option GuildMember) :
    e.rest (e.permitted g c) = RoleEdit.rest.onPermit e g := by
  rw [RoleEdit.permitted, RoleEdit.rest.onPermit]
  by_cases he : e.assigns = true
  · rw [if_pos he, if_pos he, RoleEdit.rest]
  · rw [if_neg he, if_neg he, RoleEdit.rest]

theorem program_eq : e.program = guardedBy e.env e.user .manageRoles e.guildId
    (RoleEdit.rest.onPermit e) := by
  unfold RoleEdit.program RoleEdit.rest.onPermit
  by_cases he : e.assigns = true
  · simp only [if_pos he]
    rfl
  · simp only [if_neg he]
    rfl

theorem rest_turn (st : Stage) : e.rest st = (e.turn st >>= e.rest) := by
  cases st with
  | guild =>
    show e.program = _
    simp only [program_eq, guardedBy, requirePermission, RoleEdit.turn, bind_assoc, pure_bind]
    refine bind_congr fun g => bind_congr fun _ => bind_congr fun guild => ?_
    by_cases howner : guild.ownerId = some e.user.id
    · rw [if_pos howner, if_pos howner, pure_bind, rest_permitted]
    · rw [if_neg howner, if_neg howner, RoleEdit.rest]
      simp only [bind_assoc]
  | caller g =>
    simp only [RoleEdit.turn, bind_assoc, pure_bind, rest_permitted]
    rfl
  | role g c =>
    simp only [RoleEdit.rest, RoleEdit.turn, bind_assoc, pure_bind]
  | target g c role =>
    simp only [RoleEdit.rest, RoleEdit.toSave, RoleEdit.turn, bind_assoc]
    refine bind_congr fun t => bind_congr fun m => bind_congr fun roles => ?_
    cases role with
    | none => simp only [pure_bind, RoleEdit.rest]
    | some role =>
      by_cases hheld : roles.any (fun r => r.id.toText = e.roleId) = true
      · simp only [if_pos hheld, pure_bind, RoleEdit.rest]
      · simp only [if_neg hheld, pure_bind, RoleEdit.rest]
  | save c m roles => rfl
  | settled o => simp only [RoleEdit.turn, pure_bind]

/-- The tables without the links of members to roles. -/
def Database.unlinked (db : Database) : Database :=
  { db with guildMembers := db.guildMembers.map fun m => { m with roles := [] } }

/-- The tables agree but for links, and no two members have one id. -/
structure LinksApart (base s : Database) : Prop where
  same : SameUnder Database.unlinked s base
  ids : (s.guildMembers.map (·.id)).Nodup

theorem LinksApart.guildById (h : LinksApart base s) (g : Uuid) :
    s.guildById g = base.guildById g :=
  h.same.same (q := (·.guildById g)) fun _ => rfl

theorem LinksApart.guildRoles (h : LinksApart base s) : s.guildRoles = base.guildRoles :=
  h.same.same (q := (·.guildRoles)) fun _ => rfl

theorem LinksApart.rolesOf (h : LinksApart base s) (m : GuildMember) :
    s.rolesOf m = base.rolesOf m :=
  h.same.same (q := (·.rolesOf m)) fun _ => rfl

theorem LinksApart.symm (h : LinksApart base s) (hids : (base.guildMembers.map (·.id)).Nodup) :
    LinksApart s base :=
  ⟨Eq.symm h.same, hids⟩

/-- A membership that a query found and that is still as it was loaded is found again. -/
theorem LinksApart.pick (h : LinksApart s' s) {k : Nat} {p : GuildMember → Bool} {m : GuildMember}
    (hp : ∀ m roles, p { m with roles } = p m) (hpick : Rows.pick k p s'.guildMembers = some m)
    (hm : m ∈ s.guildMembers) : Rows.pick k p s.guildMembers = some m := by
  have hsame : (s.guildMembers.filter p).map (fun m => { m with roles := [] }) =
      (s'.guildMembers.filter p).map fun m => { m with roles := [] } := by
    have hblank : ∀ rows : List GuildMember,
        (rows.filter p).map (fun m => { m with roles := [] }) =
          (rows.map fun m => { m with roles := [] }).filter p := by
      intro rows
      rw [List.filter_map]
      congr 2
      funext m
      exact (hp m []).symm
    rw [hblank, hblank]
    exact congrArg (List.filter p ∘ Database.guildMembers) h.same
  have hlength := congrArg List.length hsame
  rw [List.length_map, List.length_map] at hlength
  unfold Rows.pick at hpick ⊢
  rw [hlength]
  have hrow := congrArg (·[k % (s'.guildMembers.filter p).length]?) hsame
  simp only [List.getElem?_map, hpick, Option.map_some, Option.map_eq_some_iff] at hrow
  obtain ⟨m', hm', hid⟩ := hrow
  have hmem := (List.mem_filter.mp (List.mem_of_getElem? hm')).1
  simp only [GuildMember.mk.injEq, and_true] at hid
  rw [hm', Rows.eq_of_nodup h.ids hmem hm hid.1]

/-! ### Turns -/

/-- The membership that the query numbered `site` returns. -/
def seatAt (e : RoleEdit) (site : Nat) (s : Database) (g u : Uuid) : Option GuildMember :=
  Rows.pick (e.env.pick site) (fun m => m.guildId = g ∧ m.userId = u ∧ m.status = .active)
    s.guildMembers

/-- The role of the guild with the id. -/
def roleIn (s : Database) (g r : Uuid) : Option GuildRole :=
  s.guildRoles.find? fun x => x.id = r ∧ x.guildId = g

/-- The stage after the load of the target's membership. -/
def loaded (e : RoleEdit) (s : Database) (c : Option GuildMember) (m : GuildMember) :
    Option GuildRole → Stage
  | some role =>
    if (s.rolesOf m).any (fun r => r.id.toText = e.roleId) then .settled (.ok ())
    else .save c m (s.rolesOf m ++ [role])
  | none => .save c m ((s.rolesOf m).filter fun r => r.id.toText ≠ e.roleId)

/-- What a turn finds when it succeeds, and the stage it leads to. -/
def Finds (e : RoleEdit) (s : Database) : Stage → Stage → Prop
  | .guild, st' => ∃ g guild, Uuid.parse e.guildId = some g ∧ s.guildById g = some guild ∧
      st' = if guild.ownerId = some e.user.id then e.permitted g none else .caller g
  | .caller g, st' => ∃ m, seatAt e 0 s g e.user.id = some m ∧
      hasPermission s m .manageRoles = true ∧ st' = e.permitted g (some m)
  | .role g c, st' => ∃ r role, Uuid.parse e.roleId = some r ∧ roleIn s g r = some role ∧
      st' = .target g c (some role)
  | .target g c role, st' => ∃ t m, Uuid.parse e.targetUserId = some t ∧
      seatAt e 1 s g t = some m ∧ st' = loaded e s c m role
  | .save _ _ _, _ => False
  | .settled o, st' => st' = .settled o

def Stage.isSettled : Stage → Bool
  | .settled _ => true
  | _ => false

/-- The next turn writes. -/
def Stage.saves : Stage → Bool
  | .save _ _ _ => true
  | _ => false

theorem turn_wp (hst : st.saves = false) :
    wp (e.turn st) (fun st' s' => s' = s ∧ Finds e s st st') (fun _ s' => s' = s) s := by
  cases st with
  | guild =>
    simp only [RoleEdit.turn, wp_bind, wp_uuidOf, wp_query, wp_orThrow, wp_pure, Finds,
      implies_true, and_true, true_and]
    exact fun g hg guild hguild => ⟨g, guild, hg, hguild, rfl⟩
  | caller g =>
    simp only [RoleEdit.turn, getMemberOrThrow, wp_bind, wp_query, wp_orThrow, wp_throwIf, wp_pure,
      Finds, implies_true, and_true, true_and, Bool.not_eq_false']
    exact fun m hm hp => ⟨m, hm, hp, rfl⟩
  | role g c =>
    simp only [RoleEdit.turn, findRole, wp_bind, wp_uuidOf, wp_query, wp_orThrow, wp_pure, Finds,
      implies_true, and_true, true_and]
    exact fun r hr role hrole => ⟨r, role, hr, hrole, rfl⟩
  | target g c role =>
    simp only [RoleEdit.turn, getMemberOrThrow, wp_bind, wp_uuidOf, wp_query, wp_orThrow, Finds,
      implies_true, and_true]
    intro t ht m hm
    cases role with
    | none => exact ⟨rfl, t, m, ht, hm, rfl⟩
    | some role =>
      simp only
      split
      · exact ⟨rfl, t, m, ht, hm, by rw [loaded, if_pos ‹_›]⟩
      · exact ⟨rfl, t, m, ht, hm, by rw [loaded, if_neg ‹_›]⟩
  | save c m roles => exact absurd hst (by simp [Stage.saves])
  | settled o => exact ⟨rfl, rfl⟩

/-- A turn that finds all it needs succeeds. -/
theorem turn_ok (h : Finds e s st st') : e.turn st s = .ok st' s := by
  cases st with
  | guild =>
    obtain ⟨g, guild, hg, hguild, rfl⟩ := h
    rw [RoleEdit.turn, VoxLink.uuidOf, hg]
    show (orThrow _ (s.guildById g) >>= _) s = _
    rw [hguild]
    rfl
  | caller g =>
    obtain ⟨m, hm, hp, rfl⟩ := h
    show ((orThrow _ (seatAt e 0 s g e.user.id)) >>= _) s = _
    rw [hm]
    show (throwIf (!hasPermission s m .manageRoles) _ >>= _) s = _
    rw [hp]
    rfl
  | role g c =>
    obtain ⟨r, role, hr, hrole, rfl⟩ := h
    rw [RoleEdit.turn, findRole, VoxLink.uuidOf, hr]
    show (orThrow _ (roleIn s g r) >>= _) s = _
    rw [hrole]
    rfl
  | target g c role =>
    obtain ⟨t, m, ht, hm, rfl⟩ := h
    rw [RoleEdit.turn, VoxLink.uuidOf, ht]
    show ((orThrow _ (seatAt e 1 s g t)) >>= _) s = _
    rw [hm]
    cases role with
    | none => rfl
    | some role =>
      show (if _ then _ else _ : Service Stage) s = _
      rw [loaded]
      split <;> rfl
  | save c m roles => exact h.elim
  | settled o => rw [show st' = .settled o from h]; rfl

/-! ### Stages that a call passes through -/

/-- Running alone in `s`, the call comes to the stage without a write. -/
inductive Leads (e : RoleEdit) (s : Database) : Stage → Prop
  | start : Leads e s .guild
  | turn {st st' : Stage} : Leads e s st → Finds e s st st' → Leads e s st'

theorem Leads.program_eq (h : Leads e s st) : e.program s = e.rest st s := by
  induction h with
  | start => rfl
  | turn _ hfinds ih => rw [ih, rest_turn, bind_at (turn_ok hfinds)]

theorem Leads.final_eq (h : Leads e s st) : e.program.final s = (e.rest st).final s := by
  rw [final, h.program_eq, final]

/-- From a stage at which it reads, the call goes on to a next one, or it ends without a trace. -/
theorem Leads.next (h : Leads e s st) (hst : st.saves = false) :
    e.program.final s = s ∨ ∃ st', Finds e s st st' ∧ Leads e s st' := by
  have hwp := turn_wp (e := e) (s := s) hst
  unfold wp at hwp
  split at hwp
  · exact .inr ⟨_, hwp.2, h.turn hwp.2⟩
  · refine .inl ?_
    rename_i hturn
    rw [final, h.program_eq, rest_turn, bind_error_at hturn]
    exact hwp

section Transfer

variable {g : Uuid} {c c' : Option GuildMember} {role : Option GuildRole}
  (hs : LinksApart base s) (hs' : LinksApart base s')
include hs hs'

theorem LinksApart.trans : LinksApart s' s := ⟨Eq.trans hs.same (Eq.symm hs'.same), hs.ids⟩

theorem finds_guild (h : Finds e s' .guild st') : Finds e s .guild st' := by
  obtain ⟨g, guild, hg, hguild, rfl⟩ := h
  rw [(hs.trans hs').symm hs'.ids |>.guildById g] at hguild
  exact ⟨g, guild, hg, hguild, rfl⟩

theorem finds_caller {m : GuildMember} (h : Finds e s' (.caller g) (e.permitted g (some m)))
    (hm : m ∈ s.guildMembers) : Finds e s (.caller g) (e.permitted g (some m)) := by
  obtain ⟨m', hseat, hp, hst⟩ := h
  obtain rfl : m = m' := by
    unfold RoleEdit.permitted at hst
    split at hst
    · exact Option.some.inj (Stage.role.inj hst).2
    · exact Option.some.inj (Stage.target.inj hst).2.1
  refine ⟨m, (hs.trans hs').pick (fun _ _ => rfl) hseat hm, ?_, rfl⟩
  rw [hasPermission, (hs.trans hs').rolesOf m]
  exact hp

theorem finds_role (h : Finds e s' (.role g c) (.target g c role)) :
    Finds e s (.role g c') (.target g c' role) := by
  obtain ⟨r, x, hr, hx, hst⟩ := h
  obtain rfl := (Stage.target.inj hst).2.2
  refine ⟨r, x, hr, ?_, rfl⟩
  rw [roleIn, (hs.trans hs').guildRoles]
  exact hx

theorem finds_target {m : GuildMember} {roles : List GuildRole}
    (h : Finds e s' (.target g c role) (.save c m roles)) (hm : m ∈ s.guildMembers) :
    Finds e s (.target g c role) (.save c m roles) := by
  obtain ⟨t, m', ht, hseat, hst⟩ := h
  have hsame : loaded e s' c m' role = loaded e s c m' role := by
    unfold loaded
    simp only [(hs.trans hs').rolesOf]
  obtain rfl : m = m' := by
    unfold loaded at hst
    split at hst
    · split at hst
      · exact nomatch hst
      · exact (Stage.save.inj hst).2.1
    · exact (Stage.save.inj hst).2.1
  exact ⟨t, m, ht, (hs.trans hs').pick (fun _ _ => rfl) hseat hm, hst.trans hsame⟩

end Transfer

/-! ### What a waiting call has found -/

/-- The turn was taken in tables that differ from `base` in links only. -/
def FoundIn (e : RoleEdit) (base : Database) (st st' : Stage) : Prop :=
  ∃ s, LinksApart base s ∧ Finds e s st st'

/-- The call has passed the permission check, with the membership `c` unless by the owner. -/
def Admitted (e : RoleEdit) (base : Database) (g : Uuid) (c : Option GuildMember) : Prop :=
  (c = none ∧ FoundIn e base .guild (e.permitted g none)) ∨
    ∃ m, c = some m ∧ FoundIn e base .guild (.caller g) ∧
      FoundIn e base (.caller g) (e.permitted g (some m))

/-- The call, admitted, has found the role that it assigns. -/
def Prepared (e : RoleEdit) (base : Database) (g : Uuid) (c : Option GuildMember)
    (role : Option GuildRole) : Prop :=
  Admitted e base g c ∧
    if e.assigns then FoundIn e base (.role g c) (.target g c role) else role = none

/-- How the call came to the stage. -/
def Trail (e : RoleEdit) (base : Database) : Stage → Prop
  | .guild => True
  | .caller g => FoundIn e base .guild (.caller g)
  | .role g c => e.assigns = true ∧ Admitted e base g c
  | .target g c role => Prepared e base g c role
  | .save c m roles => ∃ g role, Prepared e base g c role ∧
      FoundIn e base (.target g c role) (.save c m roles)
  | .settled _ => True

variable {g : Uuid} {c : Option GuildMember} {role : Option GuildRole}

theorem trail_permitted (h : Admitted e base g c) : Trail e base (e.permitted g c) := by
  by_cases he : e.assigns = true
  · rw [RoleEdit.permitted, if_pos he]
    exact ⟨he, h⟩
  · rw [RoleEdit.permitted, if_neg he]
    exact ⟨h, by rw [if_neg he]⟩

theorem permitted_ne_settled (o : Except Exception Unit) : e.permitted g c ≠ .settled o := by
  unfold RoleEdit.permitted
  split <;> exact nofun

theorem trail_next (h : Trail e base st) (hs : LinksApart base s) (hfinds : Finds e s st st') :
    Trail e base st' := by
  cases st with
  | guild =>
    have hfound : FoundIn e base .guild st' := ⟨s, hs, hfinds⟩
    obtain ⟨g, guild, -, -, rfl⟩ := hfinds
    split at hfound
    · rw [if_pos ‹_›]
      exact trail_permitted (.inl ⟨rfl, hfound⟩)
    · rw [if_neg ‹_›]
      exact hfound
  | caller g =>
    have hfound : FoundIn e base (.caller g) st' := ⟨s, hs, hfinds⟩
    obtain ⟨m, -, -, rfl⟩ := hfinds
    exact trail_permitted (.inr ⟨m, rfl, h, hfound⟩)
  | role g c =>
    have hfound : FoundIn e base (.role g c) st' := ⟨s, hs, hfinds⟩
    obtain ⟨_, role, -, -, rfl⟩ := hfinds
    exact ⟨h.2, by rw [if_pos h.1]; exact hfound⟩
  | target g c role =>
    have hfound : FoundIn e base (.target g c role) st' := ⟨s, hs, hfinds⟩
    obtain ⟨_, m, -, -, rfl⟩ := hfinds
    cases hst : loaded e s c m role with
    | save c' m' roles =>
      rw [hst] at hfound
      obtain rfl : c' = c := by
        unfold loaded at hst
        split at hst
        · split at hst
          · exact nomatch hst
          · exact (Stage.save.inj hst).1.symm
        · exact (Stage.save.inj hst).1.symm
      exact ⟨g, role, h, hfound⟩
    | settled o => trivial
    | _ =>
      unfold loaded at hst
      split at hst
      · split at hst <;> exact nomatch hst
      · exact nomatch hst
  | save c m roles => exact hfinds.elim
  | settled o =>
    rw [show st' = .settled o from hfinds]
    trivial

/-- A call that passed the permission check passes it again or ends without a trace. -/
theorem Admitted.leads_or (hs : LinksApart base s) (h : Admitted e base g c) :
    e.program.final s = s ∨ ∃ c', Leads e s (e.permitted g c') := by
  rcases h with ⟨-, s', hs', hfinds⟩ | ⟨m, -, ⟨s', hs', hfinds⟩, -⟩
  · exact .inr ⟨none, Leads.start.turn (finds_guild hs hs' hfinds)⟩
  · have hcaller : Leads e s (.caller g) := Leads.start.turn (finds_guild hs hs' hfinds)
    refine (hcaller.next rfl).imp_right ?_
    rintro ⟨st', ⟨m, -, -, rfl⟩, hleads⟩
    exact ⟨some m, hleads⟩

/-- When the membership it was admitted with is as loaded, it passes with that membership. -/
theorem Admitted.leads (hs : LinksApart base s) (h : Admitted e base g c)
    (hc : ∀ m, c = some m → m ∈ s.guildMembers) : Leads e s (e.permitted g c) := by
  rcases h with ⟨rfl, s', hs', hfinds⟩ | ⟨m, rfl, ⟨s', hs', hfinds⟩, ⟨s'', hs'', hfinds'⟩⟩
  · exact Leads.start.turn (finds_guild hs hs' hfinds)
  · have hcaller : Leads e s (.caller g) := Leads.start.turn (finds_guild hs hs' hfinds)
    exact hcaller.turn (finds_caller hs hs'' hfinds' (hc m rfl))

theorem Prepared.leads (hs : LinksApart base s) (h : Prepared e base g c role)
    {c' : Option GuildMember} (hleads : Leads e s (e.permitted g c')) :
    Leads e s (.target g c' role) := by
  obtain ⟨-, hrole⟩ := h
  by_cases he : e.assigns = true
  · rw [if_pos he] at hrole
    rw [RoleEdit.permitted, if_pos he] at hleads
    obtain ⟨s', hs', hfinds⟩ := hrole
    exact hleads.turn (finds_role hs hs' hfinds)
  · rw [if_neg he] at hrole
    rw [RoleEdit.permitted, if_neg he] at hleads
    rw [hrole]
    exact hleads

/-- Only the load of the target's membership settles a call without an exception. -/
theorem finds_settled {o : Except Exception Unit} (h : Finds e s st (.settled o)) :
    (∃ g c role, st = .target g c role) ∨ st = .settled o := by
  cases st with
  | guild =>
    obtain ⟨g, guild, -, -, hst⟩ := h
    split at hst
    · exact absurd hst.symm (permitted_ne_settled o)
    · exact nomatch hst
  | caller g =>
    obtain ⟨m, -, -, hst⟩ := h
    exact absurd hst.symm (permitted_ne_settled o)
  | role g c =>
    obtain ⟨_, _, -, -, hst⟩ := h
    exact nomatch hst
  | target g c role => exact .inl ⟨g, c, role, rfl⟩
  | save c m roles => exact h.elim
  | settled o' => exact .inr (Eq.symm h)

theorem loaded_settled {m : GuildMember} {o : Except Exception Unit}
    (h : loaded e s c m role = .settled o) (c' : Option GuildMember) :
    loaded e s c' m role = .settled (.ok ()) := by
  unfold loaded at h ⊢
  split at h
  · split at h
    · rw [if_pos ‹_›]
    · exact nomatch h
  · exact nomatch h

/-- A turn that ends the call without a write, when the call run alone does not write either. -/
theorem final_of_turn (hs : LinksApart base s) (h : Trail e base st)
    (hst : st.saves = false) (hunsettled : st.isSettled = false)
    (hends : ∀ st', Finds e s st st' → ∃ o, st' = .settled o) : e.program.final s = s := by
  cases st with
  | guild =>
    rcases Leads.start.next rfl with hfinal | ⟨st', hfinds, -⟩
    · exact hfinal
    · obtain ⟨o, rfl⟩ := hends st' hfinds
      simpa using finds_settled hfinds
  | caller g =>
    obtain ⟨s', hs', hfound⟩ := h
    have hleads : Leads e s (.caller g) := Leads.start.turn (finds_guild hs hs' hfound)
    rcases hleads.next rfl with hfinal | ⟨st', hfinds, -⟩
    · exact hfinal
    · obtain ⟨o, rfl⟩ := hends st' hfinds
      simpa using finds_settled hfinds
  | role g c =>
    rcases h.2.leads_or hs with hfinal | ⟨c', hleads⟩
    · exact hfinal
    rw [RoleEdit.permitted, if_pos h.1] at hleads
    rcases hleads.next rfl with hfinal | ⟨_, ⟨r, role, hr, hrole, -⟩, -⟩
    · exact hfinal
    · obtain ⟨o, ho⟩ := hends (.target g c (some role)) ⟨r, role, hr, hrole, rfl⟩
      exact nomatch ho
  | target g c role =>
    have hprepared : Prepared e base g c role := h
    rcases hprepared.1.leads_or hs with hfinal | ⟨c', hleads⟩
    · exact hfinal
    rcases (hprepared.leads hs hleads).next rfl with hfinal | ⟨_, ⟨t, m, ht, hm, rfl⟩, hnext⟩
    · exact hfinal
    · -- the role is there already
      obtain ⟨o, ho⟩ := hends _ ⟨t, m, ht, hm, rfl⟩
      rw [loaded_settled ho c'] at hnext
      rw [hnext.final_eq]
      rfl
  | save c m roles => exact absurd hst (by simp [Stage.saves])
  | settled o => exact absurd hunsettled (by simp [Stage.isSettled])

/-! ### Acting in one turn -/

/-- The call is about to store a list of roles for a member, and a membership that it has loaded is
no longer stored as it was. -/
def Stage.stale (db : Database) : Stage → Bool
  | .save c m _ => !(c.all (· ∈ db.guildMembers) && decide (m ∈ db.guildMembers))
  | _ => false

theorem unlinked_withRoles {m : GuildMember} {roles : List GuildRole} :
    (withRoles s m roles).unlinked = s.unlinked := by
  unfold Database.unlinked withRoles
  congr 1
  refine Rows.map_modify ?_
  intro _ _
  rfl

theorem LinksApart.withRoles {m : GuildMember} {roles : List GuildRole} (hs : LinksApart base s) :
    LinksApart base (withRoles s m roles) := by
  constructor
  · exact unlinked_withRoles.trans hs.same
  · refine Rows.nodup_modify hs.ids ?_
    intro _ _
    rfl

/-- A turn at which the call reads. -/
theorem move_cases (hst : st.saves = false) :
    (∃ st', Finds e s st st' ∧ RoleEdit.move (e, st) s = ((e, st'), s)) ∨
      ∃ x, e.turn st s = .error x s ∧ RoleEdit.move (e, st) s = ((e, .settled (.error x)), s) := by
  have hwp := turn_wp (e := e) (s := s) hst
  unfold wp at hwp
  split at hwp
  · rename_i st' s' hturn
    obtain ⟨hs', hfinds⟩ := hwp
    refine .inl ⟨st', hfinds, ?_⟩
    simp only [RoleEdit.move, hturn, hs']
  · rename_i x s' hturn
    have hs' : s' = s := hwp
    rw [hs'] at hturn
    refine .inr ⟨x, hturn, ?_⟩
    simp only [RoleEdit.move, hturn]

theorem move_kept (l : RoleEdit × Stage) (s : Database) (hs : LinksApart base s)
    (h : Trail l.1 base l.2) :
    LinksApart base (RoleEdit.move l s).2 ∧
      Trail (RoleEdit.move l s).1.1 base (RoleEdit.move l s).1.2 := by
  obtain ⟨e, st⟩ := l
  by_cases hst : st.saves = true
  · obtain ⟨c, m, roles, rfl⟩ : ∃ c m roles, st = .save c m roles := by
      cases st <;> simp_all [Stage.saves]
    exact ⟨hs.withRoles, trivial⟩
  · rcases move_cases (e := e) (s := s) (by simpa using hst) with ⟨st', hfinds, hmove⟩ |
      ⟨x, -, hmove⟩
    · rw [hmove]
      exact ⟨hs, trail_next h hs hfinds⟩
    · rw [hmove]
      exact ⟨hs, trivial⟩

/-- The save of a call whose loaded memberships are as they were. -/
theorem final_of_save {m : GuildMember} {roles : List GuildRole} (hs : LinksApart base s)
    (h : Trail e base (.save c m roles)) (hfresh : (Stage.save c m roles).stale s = false) :
    e.program.final s = withRoles s m roles := by
  simp only [Stage.stale, Bool.not_eq_false', Bool.and_eq_true, Option.all_eq_true,
    decide_eq_true_eq] at hfresh
  obtain ⟨hcaller, hmember⟩ := hfresh
  obtain ⟨g, role, hprepared, s', hs', hfound⟩ := h
  have hleads : Leads e s (.target g c role) := hprepared.leads hs (hprepared.1.leads hs hcaller)
  rw [(hleads.turn (finds_target hs hs' hfound hmember)).final_eq]
  rfl

theorem finds_unique {st'' : Stage} (h : Finds e s st st') (h' : Finds e s st st'') :
    st'' = st' := by
  have hturn := (turn_ok h).symm.trans (turn_ok h')
  exact (EStateM.Result.ok.inj hturn).1.symm

theorem Stage.exists_of_isSettled (h : st.isSettled = true) : ∃ o, st = .settled o := by
  cases st <;> simp_all [Stage.isSettled]

theorem Stage.exists_of_saves (h : st.saves = true) : ∃ c m roles, st = .save c m roles := by
  cases st <;> simp_all [Stage.saves]

/-- A call acts in one turn, and as if it ran alone then. -/
theorem move_actsAtOnce {l : RoleEdit × Stage} (hs : LinksApart base s)
    (h : Trail l.1 base l.2) (hfresh : l.2.stale s = false) :
    ActsAtOnce RoleEdit.move Prod.fst (·.2.isSettled) (fun e s => e.program.final s) l s := by
  obtain ⟨e, st⟩ := l
  by_cases hst : st.saves = true
  · obtain ⟨c, m, roles, rfl⟩ := Stage.exists_of_saves hst
    exact ⟨rfl, rfl, (final_of_save hs h hfresh).symm⟩
  have hreads : st.saves = false := by simpa using hst
  by_cases hsettled : st.isSettled = true
  · obtain ⟨o, rfl⟩ := Stage.exists_of_isSettled hsettled
    exact ⟨rfl, rfl⟩
  have hwaits : st.isSettled = false := by simpa using hsettled
  unfold ActsAtOnce
  rcases move_cases (e := e) (s := s) hreads with ⟨st', hfinds, hmove⟩ | ⟨x, hturn, hmove⟩
  · rw [hmove]
    refine ⟨rfl, ?_⟩
    by_cases hst' : st'.isSettled = true
    · obtain ⟨o, rfl⟩ := Stage.exists_of_isSettled hst'
      have hends : ∀ st'', Finds e s st st'' → ∃ o, st'' = .settled o :=
        fun st'' h'' => ⟨o, finds_unique hfinds h''⟩
      rw [if_neg (by simp [hwaits, hst'])]
      exact ⟨hwaits, (final_of_turn hs h hreads hwaits hends).symm⟩
    · rw [if_pos (by simp [hwaits, hst'])]
  · have hends : ∀ st', Finds e s st st' → ∃ o, st' = .settled o := by
      intro st' hfinds
      rw [turn_ok hfinds] at hturn
      exact nomatch hturn
    have hdone : (Stage.settled (.error x)).isSettled = true := rfl
    rw [hmove]
    refine ⟨rfl, ?_⟩
    rw [if_neg (by simp [hwaits, hdone])]
    exact ⟨hwaits, (final_of_turn hs h hreads hwaits hends).symm⟩

/-! ### A call that is not interrupted -/

/-- At most so many turns are left. -/
def Stage.turnsLeft : Stage → Nat
  | .guild => 5
  | .caller _ => 4
  | .role _ _ => 3
  | .target _ _ _ => 2
  | .save _ _ _ => 1
  | .settled _ => 0

theorem turnsLeft_lt (hwaits : st.isSettled = false) (h : Finds e s st st') :
    st'.turnsLeft < st.turnsLeft := by
  have hpermitted : ∀ g c, (e.permitted g c).turnsLeft ≤ 3 := by
    intro g c
    unfold RoleEdit.permitted
    split <;> simp [Stage.turnsLeft]
  cases st with
  | guild =>
    obtain ⟨g, guild, -, -, rfl⟩ := h
    split
    · exact Nat.lt_of_le_of_lt (hpermitted g none) (by decide)
    · show 4 < 5
      decide
  | caller g =>
    obtain ⟨m, -, -, rfl⟩ := h
    exact Nat.lt_of_le_of_lt (hpermitted g (some m)) (by simp [Stage.turnsLeft])
  | role g c =>
    obtain ⟨_, role, -, -, rfl⟩ := h
    show 2 < 3
    decide
  | target g c role =>
    obtain ⟨_, m, -, -, rfl⟩ := h
    unfold loaded
    split
    · split <;> simp [Stage.turnsLeft]
    · simp [Stage.turnsLeft]
  | save c m roles => exact h.elim
  | settled o => exact absurd hwaits (by simp [Stage.isSettled])

theorem run_settled {o : Except Exception Unit} (n : Nat) :
    run (Pool.turn RoleEdit.move) ⟨[(e, .settled o)], s⟩ (List.replicate n 0) =
      ⟨[(e, .settled o)], s⟩ := by
  induction n with
  | zero => rfl
  | succ n ih => exact ih

/-- The turns of one call, taken one after another, make up the rest of the call. -/
theorem run_rest {n : Nat} (hn : st.turnsLeft ≤ n) :
    run (Pool.turn RoleEdit.move) ⟨[(e, st)], s⟩ (List.replicate n 0) =
      ⟨[(e, .settled ((e.rest st).outcome s))], (e.rest st).final s⟩ := by
  induction n generalizing st s with
  | zero =>
    cases st with
    | settled o => cases o <;> rfl
    | _ => simp [Stage.turnsLeft] at hn
  | succ n ih =>
    by_cases hsettled : st.isSettled = true
    · obtain ⟨o, rfl⟩ := Stage.exists_of_isSettled hsettled
      rw [run_settled]
      cases o <;> rfl
    have hwaits : st.isSettled = false := by simpa using hsettled
    show run (Pool.turn RoleEdit.move) ⟨[(RoleEdit.move (e, st) s).1], (RoleEdit.move (e, st) s).2⟩
      (List.replicate n 0) = _
    by_cases hst : st.saves = true
    · obtain ⟨c, m, roles, rfl⟩ := Stage.exists_of_saves hst
      exact run_settled n
    have hreads : st.saves = false := by simpa using hst
    rcases move_cases (e := e) (s := s) hreads with ⟨st', hfinds, hmove⟩ | ⟨x, hturn, hmove⟩
    · have hleft := turnsLeft_lt hwaits hfinds
      have hrest : e.rest st s = e.rest st' s := by
        rw [rest_turn, bind_at (turn_ok hfinds)]
      rw [hmove, ih (by omega), outcome, final, outcome, final, hrest]
    · rw [hmove, run_settled, outcome, final, rest_turn, bind_error_at hturn]

/-- Calls that have not been started. -/
def waiting (es : List RoleEdit) (db : Database) : Pool (RoleEdit × Stage) Database :=
  ⟨es.map (·, .guild), db⟩

/-- A call that is not interrupted does what `assignRole` or `removeRole` does. -/
theorem run_alone (db : Database) :
    run (Pool.turn RoleEdit.move) (waiting [e] db) (List.replicate 5 0) =
      ⟨[(e, .settled (e.program.outcome db))], e.program.final db⟩ :=
  run_rest (show Stage.guild.turnsLeft ≤ 5 from Nat.le_refl 5)

/-! ### All interleavings -/

/-- The roles stored for a membership. -/
def Database.linkSet (db : Database) (m : Uuid) : Finset Uuid :=
  ((db.guildMembers.filter (·.id = m)).flatMap (·.roles)).toFinset

/-- The call that has the turn is about to overwrite a change it has not seen. -/
def Overwrites (p : Pool (RoleEdit × Stage) Database) (k : Nat) : Prop :=
  (p.jobs[k]?).any (·.2.stale p.state) = true

instance (p : Pool (RoleEdit × Stage) Database) (k : Nat) : Decidable (Overwrites p k) :=
  inferInstanceAs (Decidable (_ = true))

/-- The roles of every member are as if the calls that have ended had run one after another in some
order, and the others not at all. -/
def Serialised (es : List RoleEdit) (db : Database) (p : Pool (RoleEdit × Stage) Database) :
    Prop :=
  ∃ order, (order ++ pending Prod.fst (·.2.isSettled) p).Perm es ∧
    ∀ m, p.state.linkSet m = (serial (fun e s => e.program.final s) db order).linkSet m

/-- Whatever the order of turns, no edit of roles is lost as long as no call overwrites a change it
has not seen. -/
theorem role_edits_serialised {es : List RoleEdit} {db : Database} {ks : List Nat}
    (hids : (db.guildMembers.map (·.id)).Nodup)
    (hfresh : Along (Pool.turn RoleEdit.move) (fun p k => ¬Overwrites p k) (waiting es db) ks) :
    Serialised es db (run (Pool.turn RoleEdit.move) (waiting es db) ks) := by
  have hinit : LinksApart db (waiting es db).state ∧
      ∀ l ∈ (waiting es db).jobs, Trail l.1 db l.2 := by
    refine ⟨⟨rfl, hids⟩, ?_⟩
    intro l hl
    obtain ⟨e, -, rfl⟩ := List.mem_map.mp hl
    trivial
  obtain ⟨order, hperm, hstate⟩ := pool_serialised
    (I := fun p => LinksApart db p.state ∧ ∀ l ∈ p.jobs, Trail l.1 db l.2)
    (fun p k hI _ => turn_invariant (fun l s hs hl => move_kept l s hs hl) hI k)
    (fun p k l hI hk hl => move_actsAtOnce hI.1 (hI.2 l (List.mem_of_getElem? hl))
      (by simpa [Overwrites, hl] using hk))
    hfresh hinit
  have hall : pending Prod.fst (·.2.isSettled) (waiting es db) = es := by
    have hfilter : (es.map (·, Stage.guild)).filter (fun l => !l.2.isSettled) =
        es.map (·, Stage.guild) := by
      refine List.filter_eq_self.mpr ?_
      intro l hl
      obtain ⟨e, -, rfl⟩ := List.mem_map.mp hl
      rfl
    rw [pending, waiting, hfilter, List.map_map]
    exact List.map_id es
  rw [hall] at hperm
  refine ⟨order, hperm, ?_⟩
  intro m
  rw [hstate]
  rfl

/-- Alice gives Bob the role of an owner, and takes the role of an officer from him. -/
def promotion : RoleEdit :=
  ⟨true, sampleEnv 6, sampleGuild.toText, bob.id.toText, (sampleUuid 3 1).toText, alice⟩

def demotion : RoleEdit :=
  ⟨false, sampleEnv 7, sampleGuild.toText, bob.id.toText, (sampleUuid 3 2).toText, alice⟩

/-- The two calls check permissions at once, but load and save one after the other. -/
theorem promotion_demotion_serialised :
    Serialised [promotion, demotion] bobOfficer.db
      (run (Pool.turn RoleEdit.move) (waiting [promotion, demotion] bobOfficer.db)
        [0, 1, 0, 0, 0, 1, 1]) :=
  role_edits_serialised bobOfficer_constrained.members (by decide +kernel)

/-- The demotion ends while the promotion holds the old list: in the end Bob is an officer again,
which he is not whichever of the calls comes first. -/
theorem promotion_undoes_demotion :
    let p := run (Pool.turn RoleEdit.move) (waiting [promotion, demotion] bobOfficer.db)
      [0, 0, 0, 1, 1, 1, 0]
    p.jobs.map (·.2) = [.settled (.ok ()), .settled (.ok ())] ∧
      sampleUuid 3 2 ∈ p.state.linkSet (sampleUuid 4 0) ∧
      ¬Serialised [promotion, demotion] bobOfficer.db p := by
  intro p
  have hsettled : p.jobs.map (·.2) = [.settled (.ok ()), .settled (.ok ())] := by decide +kernel
  have hofficer : sampleUuid 3 2 ∈ p.state.linkSet (sampleUuid 4 0) := by decide +kernel
  refine ⟨hsettled, hofficer, ?_⟩
  rintro ⟨order, hperm, hlinks⟩
  have hnone : pending Prod.fst (fun l => l.2.isSettled) p = [] := by
    have hall : ∀ l ∈ p.jobs, l.2 ∈ [Stage.settled (.ok ()), .settled (.ok ())] :=
      fun l hl => hsettled ▸ List.mem_map_of_mem hl
    have hfilter : p.jobs.filter (fun l => !l.2.isSettled) = [] := by
      refine List.filter_eq_nil_iff.mpr ?_
      intro l hl
      have hl' : l.2 = .settled (.ok ()) := by simpa using hall l hl
      simp [hl', Stage.isSettled]
    rw [pending, hfilter]
    rfl
  rw [hnone, List.append_nil] at hperm
  rw [hlinks] at hofficer
  rcases List.perm_pair.mp hperm with rfl | rfl
  · exact absurd hofficer (by decide +kernel)
  · exact absurd hofficer (by decide +kernel)

end VoxLink
