import VoxLink.Content.Writing
import VoxLink.Guilds.Invariants

/-! The invite codes of guilds. A code is written when it is generated and never again, so one that
has left its guild leads nowhere. -/

namespace VoxLink

open ProofKit Prog GuildsService

variable {X : Externals} {env : Env} {user : Profile} {db db' : Database} {s : Server}

/-! ### The table of guilds -/

/-- The table of guilds is the same. -/
def SameGuildRows (db db' : Database) : Prop := db'.guilds = db.guilds

instance : IsPreorder Database SameGuildRows where
  refl _ := rfl
  trans _ _ _ h h' := Eq.trans h' h

/-- The routes that write the table of guilds. -/
def Route.ofGuildRows : Route → Bool
  | .guilds (.create _) | .guilds (.update _ _) | .guilds (.delete _)
  | .guilds (.regenerateInvite _) | .users (.remove _) => true
  | _ => false

theorem guildsController_guildRows {r : GuildRoute} (hr : (Route.guilds r).ofGuildRows = false) :
    Keeps SameGuildRows (guildsController env user r) := by
  have unchanged : ∀ {db db' : Database}, db' = db → SameGuildRows db db' := fun h => h ▸ rfl
  have member : ∀ g, Keeps SameGuildRows (getMemberOrThrow env 1 g user.id) := fun g db =>
    getMemberOrThrow_wp.mono (fun _ _ h => unchanged h.1) fun _ _ h => unchanged h.1
  cases r with
  | create d | update g d | delete g | regenerateInvite g => exact Bool.noConfusion hr
  | findAll => exact .map (.query _)
  | findOne g =>
    exact .map (.bind (keeps_uuidOf _) fun g db =>
      findGuild_wp.mono (fun _ _ h => unchanged h.1) fun _ _ h => unchanged h.1)
  | previewByInvite code =>
    exact .map (.bind (.query _) fun _ => .bind (.orThrow _ _) fun _ => .query _)
  | joinByInvite code =>
    apply Keeps.map
    intro db
    apply joinByInvite_wp.mono
    · rintro _ _ ⟨guild, -, -, -, rfl⟩
      rfl
    · exact fun _ _ => unchanged
  | getMembers g => exact .map (.bind (keeps_uuidOf _) fun g => .bind (member g) fun _ => .query _)
  | getRoles g => exact .map (.bind (keeps_uuidOf _) fun g => .bind (member g) fun _ => .query _)
  | getChannels g =>
    exact .map (.bind (keeps_uuidOf _) fun g => .bind (member g) fun _ =>
      .bind (.query _) fun _ => .bind (.orThrow _ _) fun _ => .query _)
  | kickMember g u =>
    apply Keeps.map
    intro db
    apply kickMember_wp.mono
    · rintro _ _ ⟨g, t, -, -, -, -, rfl⟩
      rfl
    · exact fun _ _ => unchanged
  | banMember g u =>
    apply Keeps.map
    intro db
    apply banMember_wp.mono
    · rintro _ _ ⟨g, t, -, -, -, -, rfl⟩
      rfl
    · exact fun _ _ => unchanged
  | assignRole g u r =>
    apply Keeps.map
    intro db
    apply assignRole_wp.mono
    · rintro _ _ ⟨g, t, role, m, -, -, -, -, -, -, -, h | rfl⟩
      · exact unchanged h
      · rfl
    · exact fun _ _ => unchanged
  | removeRole g u r =>
    apply Keeps.map
    intro db
    apply removeRole_wp.mono
    · rintro _ _ ⟨g, t, m, -, -, -, -, rfl⟩
      rfl
    · exact fun _ _ => unchanged
  | createRole g d =>
    apply Keeps.map
    intro db
    apply createRole_wp.mono
    · rintro _ _ ⟨g, -, -, -, -, -, -, -, rfl⟩
      rfl
    · exact fun _ _ => unchanged
  | updateRole g r d =>
    apply Keeps.map
    intro db
    apply updateRole_wp.mono
    · rintro _ _ ⟨g, role, mask, f, -, -, -, -, -, -, -, -, -, rfl⟩
      rfl
    · exact fun _ _ => unchanged
  | deleteRole g r =>
    apply Keeps.map
    intro db
    apply deleteRole_wp.mono
    · rintro _ _ ⟨g, role, -, -, -, -, -, -, rfl⟩
      rfl
    · exact fun _ _ => unchanged
  | createCategory g d =>
    apply Keeps.map
    intro db
    apply createCategory_wp.mono
    · rintro _ _ ⟨g, -, -, -, -, rfl⟩
      rfl
    · exact fun _ _ => unchanged
  | deleteCategory g c =>
    apply Keeps.map
    intro db
    apply deleteCategory_wp.mono
    · rintro _ _ ⟨g, c, -, -, -, rfl⟩
      rfl
    · exact fun _ _ => unchanged
  | createChannel g d =>
    apply Keeps.map
    intro db
    apply createChannel_wp.mono
    · rintro _ _ ⟨g, -, -, -, -, -, rfl⟩
      rfl
    · exact fun _ _ => unchanged

theorem guarded_guildRows {route : Route} (hroute : route.ofGuildRows = false) :
    Keeps SameGuildRows (guarded X env user route) := by
  cases route with
  | auth r => exact .throw _
  | users r =>
    apply keeps_usersController
    · exact fun _ _ _ => rfl
    · rintro id rfl
      exact Bool.noConfusion hroute
  | channels r => exact keeps_channelsController (fun _ _ => rfl) r
  | messages r => exact keeps_messagesController (fun _ _ _ => rfl) fun _ _ _ _ _ => rfl
  | events r => exact keeps_eventsController (fun _ _ => rfl) r
  | guilds r => exact guildsController_guildRows hroute
  | admin r => exact keeps_adminController (fun _ _ _ => rfl) (fun _ _ => rfl) fun _ _ _ _ _ => rfl

/-! ### What a step does to the codes -/

/-- Every guild of `db'` is one of `db` with its code. -/
def KeepsCodes (db db' : Database) : Prop :=
  ∀ guild' ∈ db'.guilds, ∃ guild ∈ db.guilds, guild.id = guild'.id ∧
    guild.inviteCode = guild'.inviteCode

/-- Every guild of `db'` is one of `db` with its code, or the one that takes the generated code. -/
def Recoded (env : Env) (db db' : Database) : Prop :=
  ∃ new, ∀ guild' ∈ db'.guilds,
    (∃ guild ∈ db.guilds, guild.id = guild'.id ∧ guild.inviteCode = guild'.inviteCode) ∨
      (guild'.id = new ∧ guild'.inviteCode = some env.nanoid)

theorem SameGuildRows.keepsCodes (h : SameGuildRows db db') : KeepsCodes db db' := by
  intro guild' hguild'
  rw [h] at hguild'
  exact ⟨guild', hguild', rfl, rfl⟩

theorem KeepsCodes.recoded (h : KeepsCodes db db') : Recoded env db db' :=
  ⟨0, fun guild' hguild' => .inl (h guild' hguild')⟩

theorem keepsCodes_modify {p : Guild → Bool} {f : Guild → Guild}
    (hguilds : db'.guilds = Rows.modify p f db.guilds)
    (hf : ∀ x, (f x).id = x.id ∧ (f x).inviteCode = x.inviteCode) : KeepsCodes db db' := by
  intro guild' hguild'
  rw [hguilds] at hguild'
  obtain ⟨guild, hguild, rfl⟩ := Rows.mem_modify.mp hguild'
  split
  · exact ⟨guild, hguild, (hf guild).1.symm, (hf guild).2.symm⟩
  · exact ⟨guild, hguild, rfl, rfl⟩

theorem keepsCodes_remove {p : Guild → Bool} (hguilds : db'.guilds = Rows.remove p db.guilds) :
    KeepsCodes db db' := by
  intro guild' hguild'
  rw [hguilds] at hguild'
  exact ⟨guild', (Rows.mem_remove.mp hguild').1, rfl, rfl⟩

theorem findGuild_guildRows (g : Uuid) : Keeps SameGuildRows (findGuild env g user) :=
  fun _ => findGuild_wp.mono (fun _ _ h => h.1 ▸ rfl) fun _ _ h => h.1 ▸ rfl

theorem create_recoded {d : CreateGuildDto} :
    wp (create env d user) (fun _ db' => Recoded env db db') (fun _ db' => Recoded env db db')
      db := by
  have unchanged : Recoded env db db := SameGuildRows.keepsCodes rfl |>.recoded
  simp only [create, uniqueCode, createDefaultStructure, saveRole, saveMember, saveCategory,
    wp_bind, wp_texts, wp_column, wp_query, wp_references, wp_throwIf, wp_write, unchanged,
    implies_true, and_true]
  intro _ isPublic _ requiresApproval _ _ _
  have founded : ∀ {guilds : List Guild} {db₁ : Database}, db₁.guilds = db.guilds ++ guilds →
      (∀ guild ∈ guilds, guild.id = env.uuids 0 ∧ guild.inviteCode = some env.nanoid) →
      ∀ db', SameGuildRows db₁ db' → Recoded env db db' := by
    intro guilds db₁ h₁ hnew db' hsame
    refine ⟨env.uuids 0, fun guild' hguild' => ?_⟩
    rw [hsame, h₁] at hguild'
    rcases List.mem_append.mp hguild' with hold | hguild'
    · exact .inl ⟨guild', hold, rfl, rfl⟩
    · exact .inr (hnew guild' hguild')
  apply (findGuild_guildRows (env.uuids 0) _).mono
  · intro _ db'
    apply founded rfl
    simp
  · intro _ db'
    apply founded rfl
    simp

theorem updateRow_keepsCodes {g : Uuid} {d : UpdateGuildDto} :
    wp (updateRow env g d) (fun _ db' => KeepsCodes db db')
      (fun _ db' => KeepsCodes db db') db := by
  have unchanged : KeepsCodes db db := SameGuildRows.keepsCodes rfl
  simp only [updateRow, wp_bind, wp_texts, wp_query]
  refine ⟨fun _ => ?_, fun _ => unchanged⟩
  split
  · exact unchanged
  · simp only [wp_bind, wp_column, wp_write, unchanged, implies_true, and_true]
    intro name _ isPublic _ requiresApproval _
    apply keepsCodes_modify rfl
    exact fun _ => ⟨rfl, rfl⟩

theorem update_keepsCodes {text : String} {d : UpdateGuildDto} :
    wp (update env text d user) (fun _ db' => KeepsCodes db db') (fun _ db' => KeepsCodes db db')
      db := by
  apply authorised
  · exact fun _ => SameGuildRows.keepsCodes rfl
  · intro g _ _
    apply updateRow_keepsCodes.seq
    intro _ db₁ h₁
    have hread : ∀ db', SameGuildRows db₁ db' → KeepsCodes db db' := by
      intro db' hsame guild' hguild'
      rw [hsame] at hguild'
      exact h₁ guild' hguild'
    exact (findGuild_guildRows g db₁).mono (fun _ => hread) fun _ => hread

/-- The row with a generated code. -/
def Guild.withCode (env : Env) (guild : Guild) : Guild :=
  { guild with inviteCode := some env.nanoid, updatedAt := env.now }

theorem regenerate_codes {text : String} :
    wp (regenerateInviteCode env text user)
      (fun _ db' => ∃ g, Uuid.parse text = some g ∧
        db'.guilds = Rows.modify (·.id = g) (Guild.withCode env) db.guilds)
      (fun _ db' => SameGuildRows db db') db := by
  refine authorised (fun _ => rfl) fun g hg _ => ?_
  simp only [uniqueCode, wp_bind, wp_query, wp_throwIf, wp_write, wp_pure]
  exact ⟨fun _ => ⟨g, hg, rfl⟩, fun _ => rfl⟩

/-- The routes that generate a code. -/
def Route.generates : Route → Bool
  | .guilds (.create _) | .guilds (.regenerateInvite _) => true
  | _ => false

theorem guarded_keepsCodes {route : Route} (h : route.generates = false) :
    wp (guarded X env user route) (fun _ db' => KeepsCodes db db') (fun _ db' => KeepsCodes db db')
      db := by
  have unchanged : ∀ {db' : Database}, db' = db → KeepsCodes db db' :=
    fun h => SameGuildRows.keepsCodes (h ▸ rfl)
  cases hrows : route.ofGuildRows with
  | false =>
    apply (guarded_guildRows hrows db).mono
    · exact fun _ _ h => h.keepsCodes
    · exact fun _ _ h => h.keepsCodes
  | true =>
    cases route with
    | guilds r =>
      cases r with
      | update g d => exact wp_map.mpr update_keepsCodes
      | delete g =>
        apply wp_map.mpr
        apply delete_wp.mono
        · rintro _ _ ⟨g, _, -, -, -, -, rfl⟩
          exact keepsCodes_remove rfl
        · exact fun _ _ => unchanged
      | create d | regenerateInvite g => exact Bool.noConfusion h
      | _ => exact Bool.noConfusion hrows
    | users r =>
      cases r with
      | remove id =>
        apply wp_map.mpr
        apply UsersService.remove_wp.mono
        · rintro _ _ ⟨u, -, rfl⟩
          apply keepsCodes_modify rfl
          exact fun _ => ⟨rfl, rfl⟩
        · exact fun _ _ => unchanged
      | _ => exact Bool.noConfusion hrows
    | _ => exact Bool.noConfusion hrows

theorem guarded_recoded {route : Route} :
    wp (guarded X env user route) (fun _ db' => Recoded env db db')
      (fun _ db' => Recoded env db db') db := by
  cases hgenerates : route.generates with
  | false =>
    exact (guarded_keepsCodes hgenerates).mono (fun _ _ h => h.recoded) fun _ _ h => h.recoded
  | true =>
    cases route with
    | guilds r =>
      cases r with
      | create d => exact wp_map.mpr create_recoded
      | regenerateInvite text =>
        apply wp_map.mpr
        apply regenerate_codes.mono
        · rintro _ db' ⟨g, -, hguilds⟩
          refine ⟨g, fun guild' hguild' => ?_⟩
          rw [hguilds] at hguild'
          obtain ⟨guild, hguild, rfl⟩ := Rows.mem_modify.mp hguild'
          split
          · rename_i hid
            have hid : guild.id = g := by simpa using hid
            exact .inr ⟨hid, rfl⟩
          · exact .inl ⟨guild, hguild, rfl, rfl⟩
        · exact fun _ _ h => h.keepsCodes.recoded
      | _ => exact Bool.noConfusion hgenerates
    | _ => exact Bool.noConfusion hgenerates

/-- A request, whatever its route, does to the codes what a route can do to them. -/
theorem serve_codes {i : Env × Request} {P : Database → Prop}
    (hsame : ∀ db', KeepsCodes s.db db' → P db')
    (hguarded : ∀ user, wp (guarded X i.1 user i.2.route) (fun _ db' => P db')
      (fun _ db' => P db') s.db) : P (serve X s i).2.db := by
  have hwp : wp (handle X i.1 i.2) (fun _ s' => P s'.db) (fun _ s' => P s'.db) s := by
    apply wp_handle
    · intro r _
      apply authController_enrolled.mono
      · exact fun _ _ h => hsame _ (SameGuildRows.keepsCodes h.sameGuilds.guilds)
      · exact fun _ _ h => hsame _ (SameGuildRows.keepsCodes h.sameGuilds.guilds)
    · exact fun user _ _ => hguarded user
    · exact fun _ => hsame _ (SameGuildRows.keepsCodes rfl)
  exact hwp.final

theorem serve_keepsCodes {i : Env × Request} (h : i.2.route.generates = false) :
    KeepsCodes s.db (serve X s i).2.db :=
  serve_codes (fun _ h => h) fun _ => guarded_keepsCodes h

theorem serve_recoded {i : Env × Request} : Recoded i.1 s.db (serve X s i).2.db :=
  serve_codes (fun _ h => h.recoded) fun _ => guarded_recoded

/-! ### The codes generated in a run -/

/-- The codes that the requests generate, in order. -/
def generatedCodes (is : List (Env × Request)) : List String :=
  (is.filter (·.2.route.generates)).map (·.1.nanoid)

/-- No two guilds carry one code. -/
def UniqueCodes (db : Database) : Prop :=
  ∀ guild ∈ db.guilds, ∀ guild' ∈ db.guilds, ∀ k, guild.inviteCode = some k →
    guild'.inviteCode = some k → guild = guild'

/-- The guilds carry different codes, all among the given ones. -/
structure CodesFrom (past : List String) (db : Database) : Prop where
  known : ∀ guild ∈ db.guilds, ∀ k, guild.inviteCode = some k → k ∈ past
  unique : UniqueCodes db

/-- No guild carries the code. -/
def Retired (k : String) (db : Database) : Prop := ∀ guild ∈ db.guilds, guild.inviteCode ≠ some k

theorem codes_append {is js : List (Env × Request)} :
    generatedCodes (is ++ js) = generatedCodes is ++ generatedCodes js := by
  simp [generatedCodes]

theorem CodesFrom.step {past : List String} {i : Env × Request} (hs : Reached X s)
    (hfresh : FreshStep s i) (hnano : (past ++ generatedCodes [i]).Nodup)
    (h : CodesFrom past s.db) :
    CodesFrom (past ++ generatedCodes [i]) (serve X s i).2.db := by
  have hnext : Reached X (serve X s i).2 := hs.next hfresh
  have hids := hnext.consistent.ids.guilds
  cases hgenerates : i.2.route.generates with
  | false =>
    have hkept := serve_keepsCodes (X := X) (s := s) hgenerates
    constructor
    · intro guild' hguild' k hk
      obtain ⟨guild, hguild, -, hcode⟩ := hkept guild' hguild'
      exact List.mem_append_left _ (h.known guild hguild k (hcode.trans hk))
    · intro a' ha' b' hb' k hak hbk
      obtain ⟨a, ha, hida, hcodea⟩ := hkept a' ha'
      obtain ⟨b, hb, hidb, hcodeb⟩ := hkept b' hb'
      have hab : a = b := h.unique a ha b hb k (hcodea.trans hak) (hcodeb.trans hbk)
      exact Rows.eq_of_nodup hids ha' hb' (hida.symm.trans (hab ▸ hidb))
  | true =>
    have hgen : generatedCodes [i] = [i.1.nanoid] := by simp [generatedCodes, hgenerates]
    rw [hgen] at hnano ⊢
    have hnew : i.1.nanoid ∉ past := by
      intro hmem
      exact (List.nodup_append.mp hnano).2.2 _ hmem _ (List.mem_singleton.mpr rfl) rfl
    obtain ⟨new, hrecoded⟩ := serve_recoded (X := X) (s := s) (i := i)
    constructor
    · intro guild' hguild' k hk
      rcases hrecoded guild' hguild' with ⟨guild, hguild, -, hcode⟩ | ⟨-, hcode⟩
      · exact List.mem_append_left _ (h.known guild hguild k (hcode.trans hk))
      · obtain rfl := Option.some.inj (hcode.symm.trans hk)
        exact List.mem_append_right _ (List.mem_singleton.mpr rfl)
    · intro a' ha' b' hb' k hak hbk
      -- an old code is none of the new one, and the new one went to one guild
      rcases hrecoded a' ha' with ⟨a, ha, hida, hcodea⟩ | ⟨hida, hcodea⟩ <;>
        rcases hrecoded b' hb' with ⟨b, hb, hidb, hcodeb⟩ | ⟨hidb, hcodeb⟩
      · have hab : a = b := h.unique a ha b hb k (hcodea.trans hak) (hcodeb.trans hbk)
        exact Rows.eq_of_nodup hids ha' hb' (hida.symm.trans (hab ▸ hidb))
      · obtain rfl := Option.some.inj (hcodeb.symm.trans hbk)
        exact absurd (h.known a ha _ (hcodea.trans hak)) hnew
      · obtain rfl := Option.some.inj (hcodea.symm.trans hak)
        exact absurd (h.known b hb _ (hcodeb.trans hbk)) hnew
      · exact Rows.eq_of_nodup hids ha' hb' (hida.trans hidb.symm)

theorem run_codesFrom {is : List (Env × Request)}
    (hfresh : Along (serve X) FreshStep Server.empty is) (hnano : (generatedCodes is).Nodup) :
    CodesFrom (generatedCodes is) (run (serve X) Server.empty is).db := by
  induction is using List.reverseRecOn with
  | nil => exact ⟨(fun _ hmem => nomatch hmem), fun _ hmem => nomatch hmem⟩
  | append_singleton is i ih =>
    rw [codes_append] at hnano ⊢
    obtain ⟨hpast, hlast⟩ := along_append.mp hfresh
    rw [run_append]
    exact (ih hpast (List.nodup_append.mp hnano).1).step ⟨is, hpast, rfl⟩ hlast.1 hnano

/-- A retired code stays so as long as it is not generated again. -/
theorem Retired.run {k : String} {is : List (Env × Request)} (h : Retired k s.db)
    (hk : k ∉ generatedCodes is) : Retired k (run (serve X) s is).db := by
  induction is generalizing s with
  | nil => exact h
  | cons i is ih =>
    rw [show i :: is = [i] ++ is from rfl, codes_append, List.mem_append, not_or] at hk
    apply ih _ hk.2
    intro guild' hguild' hcode
    cases hgenerates : i.2.route.generates with
    | false =>
      obtain ⟨guild, hguild, -, hold⟩ := serve_keepsCodes hgenerates guild' hguild'
      exact h guild hguild (hold.trans hcode)
    | true =>
      obtain ⟨new, hrecoded⟩ := serve_recoded (X := X) (s := s) (i := i)
      rcases hrecoded guild' hguild' with ⟨guild, hguild, -, hold⟩ | ⟨-, hnew⟩
      · exact h guild hguild (hold.trans hcode)
      · apply hk.1
        simp [generatedCodes, hgenerates, Option.some.inj (hcode.symm.trans hnew)]

/-! ### The unique column -/

/-- Every guild has a code, and no two guilds have one. -/
structure Coded (db : Database) : Prop where
  present : ∀ guild ∈ db.guilds, ∃ k, guild.inviteCode = some k
  unique : UniqueCodes db

/-- Every guild of `db'` is one of `db` with its code, or `new` with the generated code, which no
other guild had. -/
def Renewed (env : Env) (db db' : Database) : Prop :=
  ∃ new, (∀ guild' ∈ db'.guilds,
      (∃ guild ∈ db.guilds, guild.id = guild'.id ∧ guild.inviteCode = guild'.inviteCode) ∨
        (guild'.id = new ∧ guild'.inviteCode = some env.nanoid)) ∧
    ∀ guild ∈ db.guilds, guild.id ≠ new → guild.inviteCode ≠ some env.nanoid

theorem not_taken {self : Uuid} {code : String}
    (h : (db.guilds.any fun g => g.id ≠ self ∧ g.inviteCode = some code) = false) :
    ∀ guild ∈ db.guilds, guild.id ≠ self → guild.inviteCode ≠ some code := by
  intro guild hguild hne hcode
  have hnone := List.any_eq_false.mp h guild hguild
  simp [hne, hcode] at hnone

theorem create_renewed {d : CreateGuildDto} :
    wp (create env d user) (fun _ db' => Renewed env db db')
      (fun _ db' => KeepsCodes db db' ∨ Renewed env db db') db := by
  have unchanged : KeepsCodes db db := SameGuildRows.keepsCodes rfl
  simp only [create, uniqueCode, createDefaultStructure, saveRole, saveMember, saveCategory,
    wp_bind, wp_texts, wp_column, wp_query, wp_references, wp_throwIf, wp_write, unchanged, true_or,
    implies_true, and_true]
  intro _ isPublic _ requiresApproval _ _ hfree
  have founded : ∀ {guild : Guild} {db₁ : Database}, db₁.guilds = db.guilds ++ [guild] →
      guild.id = env.uuids 0 → guild.inviteCode = some env.nanoid →
      ∀ db', SameGuildRows db₁ db' → Renewed env db db' := by
    intro guild db₁ h₁ hid hcode db' hsame
    refine ⟨env.uuids 0, fun guild' hguild' => ?_, not_taken hfree⟩
    rw [hsame, h₁] at hguild'
    rcases List.mem_append.mp hguild' with hold | hnew
    · exact .inl ⟨guild', hold, rfl, rfl⟩
    · rw [List.mem_singleton.mp hnew]
      exact .inr ⟨hid, hcode⟩
  apply (findGuild_guildRows (env.uuids 0) _).mono
  · intro _ db'
    exact founded rfl rfl rfl db'
  · intro _ db' hsame
    exact .inr (founded rfl rfl rfl db' hsame)

theorem regenerate_renewed {text : String} :
    wp (regenerateInviteCode env text user) (fun _ db' => Renewed env db db')
      (fun _ db' => SameGuildRows db db') db := by
  refine authorised (fun _ => rfl) fun g _ _ => ?_
  simp only [uniqueCode, wp_bind, wp_query, wp_throwIf, wp_write, wp_pure]
  refine ⟨fun hfree => ⟨g, fun guild' hguild' => ?_, not_taken hfree⟩, fun _ => rfl⟩
  obtain ⟨guild, hguild, rfl⟩ := Rows.mem_modify.mp hguild'
  split
  · rename_i hid
    exact .inr ⟨by simpa using hid, rfl⟩
  · exact .inl ⟨guild, hguild, rfl, rfl⟩

theorem guarded_renewed {route : Route} :
    wp (guarded X env user route) (fun _ db' => KeepsCodes db db' ∨ Renewed env db db')
      (fun _ db' => KeepsCodes db db' ∨ Renewed env db db') db := by
  cases hgenerates : route.generates with
  | false => exact (guarded_keepsCodes hgenerates).mono (fun _ _ => .inl) fun _ _ => .inl
  | true =>
    cases route with
    | guilds r =>
      cases r with
      | create d => exact wp_map.mpr (create_renewed.mono (fun _ _ => .inr) fun _ _ h => h)
      | regenerateInvite text =>
        apply wp_map.mpr
        exact regenerate_renewed.mono (fun _ _ => .inr) fun _ _ h => .inl h.keepsCodes
      | _ => exact Bool.noConfusion hgenerates
    | _ => exact Bool.noConfusion hgenerates

theorem Coded.step {i : Env × Request} (hs : Reached X s) (hfresh : FreshStep s i)
    (h : Coded s.db) : Coded (serve X s i).2.db := by
  have hnext : Reached X (serve X s i).2 := hs.next hfresh
  have hids := hnext.consistent.ids.guilds
  have hstep : KeepsCodes s.db (serve X s i).2.db ∨ Renewed i.1 s.db (serve X s i).2.db :=
    serve_codes (fun _ h => .inl h) fun _ => guarded_renewed
  have sameGuild : ∀ a ∈ s.db.guilds, ∀ b ∈ s.db.guilds, ∀ k, a.inviteCode = some k →
      b.inviteCode = some k → a.id = b.id := by
    intro a ha b hb k hak hbk
    rw [h.unique a ha b hb k hak hbk]
  rcases hstep with hkept | ⟨new, hrenewed, hfree⟩
  · constructor
    · intro guild' hguild'
      obtain ⟨guild, hguild, -, hcode⟩ := hkept guild' hguild'
      rw [← hcode]
      exact h.present guild hguild
    · intro a' ha' b' hb' k hak hbk
      obtain ⟨a, ha, hida, hcodea⟩ := hkept a' ha'
      obtain ⟨b, hb, hidb, hcodeb⟩ := hkept b' hb'
      have hab := sameGuild a ha b hb k (hcodea.trans hak) (hcodeb.trans hbk)
      exact Rows.eq_of_nodup hids ha' hb' (hida.symm.trans (hab.trans hidb))
  · constructor
    · intro guild' hguild'
      rcases hrenewed guild' hguild' with ⟨guild, hguild, -, hcode⟩ | ⟨-, hcode⟩
      · rw [← hcode]
        exact h.present guild hguild
      · exact ⟨_, hcode⟩
    · intro a' ha' b' hb' k hak hbk
      apply Rows.eq_of_nodup hids ha' hb'
      -- the generated code was free, unless the guild that takes it had it before
      rcases hrenewed a' ha' with ⟨a, ha, hida, hcodea⟩ | ⟨hida, hcodea⟩ <;>
        rcases hrenewed b' hb' with ⟨b, hb, hidb, hcodeb⟩ | ⟨hidb, hcodeb⟩
      · have hab := sameGuild a ha b hb k (hcodea.trans hak) (hcodeb.trans hbk)
        exact hida.symm.trans (hab.trans hidb)
      · by_contra hne
        refine hfree a ha (fun hid => hne ?_) (hcodea.trans (hak.trans (hbk.symm.trans hcodeb)))
        exact hida.symm.trans (hid.trans hidb.symm)
      · by_contra hne
        refine hfree b hb (fun hid => hne ?_) (hcodeb.trans (hbk.trans (hak.symm.trans hcodea)))
        exact hida.trans (hid.symm.trans hidb)
      · exact hida.trans hidb.symm

theorem Reached.coded (hs : Reached X s) : Coded s.db := by
  have hempty : Coded Database.empty := ⟨(fun _ hmem => nomatch hmem), fun _ hmem => nomatch hmem⟩
  have hI : Reached X s ∧ Coded s.db := by
    refine Reachable.invariant (I := fun s => Reached X s ∧ Coded s.db) ?_
      ⟨⟨[], trivial, rfl⟩, hempty⟩ hs
    intro s i ⟨hreached, hcoded⟩ hfresh
    exact ⟨hreached.next hfresh, hcoded.step hreached hfresh⟩
  exact hI.2

/-- A guild is found by its code. -/
theorem Coded.guildByCode_eq (h : Coded db) {guild : Guild} (hguild : guild ∈ db.guilds)
    {k : String} (hcode : guild.inviteCode = some k) : guildByCode k db = some guild := by
  cases hfound : guildByCode k db with
  | none =>
    have := List.find?_eq_none.mp hfound guild hguild
    simp [hcode] at this
  | some other =>
    obtain ⟨hother, hsame⟩ := guildByCode_mem hfound
    rw [h.unique other hother guild hguild k hsame hcode]

/-! ### Revocation -/

/-- The request replaces the code `k` of a guild, or deletes the guild. -/
def Revokes (X : Externals) (s : Server) (i : Env × Request) (k : String) : Prop :=
  (serve X s i).1.isOk = true ∧ ∃ text, (i.2.route = .guilds (.regenerateInvite text) ∨
    i.2.route = .guilds (.delete text)) ∧
    ((Uuid.parse text).bind s.db.guildById).any (·.inviteCode = some k) = true

theorem Revokes.target {i : Env × Request} {k : String} (h : Revokes X s i k) :
    ∃ text g guild, (i.2.route = .guilds (.regenerateInvite text) ∨
      i.2.route = .guilds (.delete text)) ∧ Uuid.parse text = some g ∧
      s.db.guildById g = some guild ∧ guild.inviteCode = some k := by
  obtain ⟨-, text, hroute, hany⟩ := h
  obtain ⟨guild, hguild, hcode⟩ := (Option.any_eq_true _ _).mp hany
  obtain ⟨g, hg, hguild⟩ := Option.bind_eq_some_iff.mp hguild
  exact ⟨text, g, guild, hroute, hg, hguild, by simpa using hcode⟩

theorem getByInviteCode_shows {k : String} {guild : Guild} (h : guildByCode k db = some guild) :
    ∃ shown, getByInviteCode k db = .ok shown db ∧ shown.id = guild.id := by
  refine ⟨⟨guild.id, guild.name, guild.description, guild.icon, guild.inviteCode,
    db.relatedSummary guild.ownerId⟩, ?_, rfl⟩
  rw [getByInviteCode, bind_at (query_at h)]
  rfl

theorem Retired.refused {k : String} (h : Retired k db) :
    getByInviteCode k db = .error (.notFound "Invalid invite code") db ∧
      joinByInvite env k user db = .error (.notFound "Invalid invite code") db := by
  have hnone : guildByCode k db = none := by
    apply List.find?_eq_none.mpr
    intro guild hguild
    simpa using h guild hguild
  constructor
  · rw [getByInviteCode, bind_at (query_at hnone)]
    rfl
  · rw [joinByInvite, bind_at (query_at hnone)]
    rfl

/-- A successful guarded request returns what its route does. -/
theorem serve_guarded {i : Env × Request} {P : Database → Prop} (hok : (serve X s i).1.isOk = true)
    (hroute : ∀ r, i.2.route ≠ .auth r)
    (hguarded : ∀ user, wp (guarded X i.1 user i.2.route) (fun _ db' => P db') (fun _ _ => True)
      s.db) : P (serve X s i).2.db := by
  have hwp : wp (handle X i.1 i.2) (fun _ s' => P s'.db) (fun _ _ => True) s := by
    apply wp_handle
    · exact fun r h => absurd h (hroute r)
    · exact fun user _ _ => hguarded user
    · exact fun _ => trivial
  cases hanswer : (serve X s i).1 with
  | ok body => exact hwp.of_returned hanswer
  | error e =>
    rw [hanswer] at hok
    exact Bool.noConfusion hok

theorem Revokes.known {past : List String} {i : Env × Request} {k : String}
    (h : Revokes X s i k) (hcodes : CodesFrom past s.db) : k ∈ past := by
  obtain ⟨_, _, guild, -, -, hguild, hcode⟩ := h.target
  exact hcodes.known guild (guildById_mem hguild).1 k hcode

theorem Revokes.retired {past : List String} {i : Env × Request} {k : String}
    (h : Revokes X s i k) (hcodes : CodesFrom past s.db)
    (hnano : (past ++ generatedCodes [i]).Nodup) : Retired k (serve X s i).2.db := by
  obtain ⟨text, g, guild, hroute, hg, hguild, hcode⟩ := h.target
  have hok := h.1
  obtain ⟨hmem, hid⟩ := guildById_mem hguild
  rcases hroute with hroute | hroute
  · have hnew : i.1.nanoid ≠ k := by
      rintro rfl
      apply (List.nodup_append.mp hnano).2.2 _ (hcodes.known guild hmem _ hcode) _ _ rfl
      simp [generatedCodes, hroute, Route.generates]
    have hguilds : (serve X s i).2.db.guilds =
        Rows.modify (·.id = g) (Guild.withCode i.1) s.db.guilds := by
      apply serve_guarded (P := fun db' => db'.guilds = _) hok
      · exact fun r h => Route.noConfusion (hroute.symm.trans h)
      · intro user
        rw [hroute]
        apply wp_map.mpr
        apply regenerate_codes.mono
        · rintro _ _ ⟨g', hg', hguilds⟩
          obtain rfl := Option.some.inj (hg.symm.trans hg')
          exact hguilds
        · exact fun _ _ _ => trivial
    intro guild' hguild' hcode'
    rw [hguilds] at hguild'
    obtain ⟨x, hx, rfl⟩ := Rows.mem_modify.mp hguild'
    split at hcode'
    · exact hnew (Option.some.inj hcode')
    · rename_i hother
      rw [hcodes.unique x hx guild hmem k hcode' hcode] at hother
      exact hother (by simpa using hid)
  · have hdb : (serve X s i).2.db = s.db.deleteGuild g := by
      apply serve_guarded (P := fun db' => db' = _) hok
      · exact fun r h => Route.noConfusion (hroute.symm.trans h)
      · intro user
        rw [hroute]
        apply wp_map.mpr
        apply delete_wp.mono
        · rintro _ _ ⟨g', _, hg', -, -, -, rfl⟩
          rw [Option.some.inj (hg.symm.trans hg')]
        · exact fun _ _ _ => trivial
    intro guild' hguild' hcode'
    rw [hdb] at hguild'
    obtain ⟨hx, hother⟩ := Rows.mem_remove.mp hguild'
    rw [hcodes.unique guild' hx guild hmem k hcode' hcode] at hother
    simp [hid] at hother

/-- When codes are never generated twice, no two guilds of a state that a run reaches carry one
code, a join goes to the guild that is shown for its code, and a code that a request of the run has
replaced, or whose guild it has deleted, leads nowhere. -/
theorem invite_codes (X : Externals) (is : List (Env × Request))
    (hfresh : Along (serve X) FreshStep Server.empty is) (hnano : (generatedCodes is).Nodup) :
    let db := (run (serve X) Server.empty is).db
    UniqueCodes db ∧
      (∀ env k user m, (joinByInvite env k user).outcome db = .ok m →
        (joinByInvite env k user).final db =
            { db with guildMembers := db.guildMembers ++ [m] } ∧
          ∃ shown, getByInviteCode k db = .ok shown db ∧ shown.id = m.guildId ∧
            ∀ guild ∈ db.guilds, guild.inviteCode = some k → guild.id = m.guildId) ∧
      ∀ past i later k, is = past ++ i :: later →
        Revokes X (run (serve X) Server.empty past) i k →
        ∀ env user, getByInviteCode k db = .error (.notFound "Invalid invite code") db ∧
          joinByInvite env k user db = .error (.notFound "Invalid invite code") db := by
  intro db
  have hcodes : CodesFrom (generatedCodes is) db := run_codesFrom hfresh hnano
  refine ⟨hcodes.unique, ?_, ?_⟩
  · intro env k user m hm
    obtain ⟨guild, hguild, -, hmember, hdb⟩ := joinByInvite_wp.of_returned hm
    obtain ⟨hmem, hcode⟩ := guildByCode_mem hguild
    have hid : m.guildId = guild.id := hmember ▸ rfl
    obtain ⟨shown, hshown, hshownId⟩ := getByInviteCode_shows hguild
    refine ⟨hdb, shown, hshown, hshownId.trans hid.symm, ?_⟩
    intro other hother hk
    rw [hcodes.unique other hother guild hmem k hk hcode, hid]
  · intro past i later k his hrevokes env user
    have hsplit : is = (past ++ [i]) ++ later := by simp [his]
    have hfresh' := hsplit ▸ hfresh
    have hnano' := hsplit ▸ hnano
    rw [codes_append] at hnano'
    obtain ⟨hnow, -, hapart⟩ := List.nodup_append.mp hnano'
    rw [codes_append] at hnow
    have hbefore : CodesFrom (generatedCodes past) (run (serve X) Server.empty past).db :=
      run_codesFrom (along_append.mp (along_append.mp hfresh').1).1 (List.nodup_append.mp hnow).1
    have hlater : k ∉ generatedCodes later := by
      intro hmem
      have hold : k ∈ generatedCodes (past ++ [i]) := by
        rw [codes_append]
        exact List.mem_append_left _ (hrevokes.known hbefore)
      exact hapart k hold k hmem rfl
    have hretired : Retired k db := by
      show Retired k (run (serve X) Server.empty is).db
      rw [his, run_append]
      exact (hrevokes.retired hbefore hnow).run hlater
    exact hretired.refused

/-- Bob joins by Alice's first code after she has replaced it. -/
def revokedRun : List (Env × Request) :=
  guildRun .absent ++ [byAlice 4 (.regenerateInvite sampleGuild.toText)]

theorem revokedRun_refused :
    let db := (run (serve sampleExternals) Server.empty revokedRun).db
    getByInviteCode "code3" db = .error (.notFound "Invalid invite code") db ∧
      joinByInvite (sampleEnv 5) "code3" bob db =
        .error (.notFound "Invalid invite code") db := by
  have hcodes := invite_codes sampleExternals revokedRun (by decide +kernel) (by decide +kernel)
  have hrevokes : Revokes sampleExternals
      (run (serve sampleExternals) Server.empty (guildRun .absent))
      (byAlice 4 (.regenerateInvite sampleGuild.toText)) "code3" :=
    ⟨by decide +kernel, _, .inl rfl, by decide +kernel⟩
  exact hcodes.2.2 (guildRun .absent) _ [] "code3" rfl hrevokes (sampleEnv 5) bob

end VoxLink
