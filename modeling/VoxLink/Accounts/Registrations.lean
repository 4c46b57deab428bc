import VoxLink.Accounts.Sessions
import VoxLink.Accounts.Clock

/-! `register` cut at its `await`s. Registrations may all check a name before the first of them
saves an account; the unique columns then decide. -/

namespace VoxLink

open ProofKit Prog AuthService

/-! ### The turns of a registration -/

/-- A call of `register`. -/
structure Registration where
  env : Env
  dto : RegisterDto

/-- What a call awaits. -/
inductive RegistrationAwaits where
  | findUsername
  | findEmail
  | hash
  | save
deriving DecidableEq, Repr

namespace Registration

variable (X : Externals)

/-- The account of a registration. -/
def account (r : Registration) : UsersService.UserData :=
  { username := r.dto.username, email := .value r.dto.email
    password := .value (X.bcryptHash r.env.salt r.dto.password), role := .value "member"
    avatar := .absent, status := .value "online" }

/-- The insertion of the account, and the token for it. -/
def enrol (r : Registration) (now : Date) : Backend Session := do
  let user ← onDb (UsersService.create (r.env.at now) (r.account X))
  signUser X (r.env.at now) user.toProfile

/-- What a call does when what it awaits is there, up to the next `await`. -/
def turnAt (r : Registration) (now : Date) :
    RegistrationAwaits → Backend (RegistrationAwaits ⊕ Session)
  | .findUsername => do
    texts (storable r.dto.username)
    let nameTaken ← query fun s => s.db.users.any (·.username = r.dto.username)
    throwIf nameTaken (.conflict "Username already taken")
    pure (.inl .findEmail)
  | .findEmail => do
    let emailTaken ← query fun s => s.db.users.any (·.email = some r.dto.email)
    throwIf emailTaken (.conflict "Email already registered")
    pure (.inl .hash)
  | .hash => pure (.inl .save)
  | .save => .inr <$> r.enrol X now

def turn (r : Registration) (w : RegistrationAwaits) :
    Prog Exception Clocked (RegistrationAwaits ⊕ Session) :=
  clocked (r.turnAt X · w)

/-- The rest of a call from where it stands. -/
def restAt (r : Registration) (now : Date) : RegistrationAwaits → Backend Session
  | .findUsername => register X (r.env.at now) r.dto
  | .findEmail => do
    let emailTaken ← query fun s => s.db.users.any (·.email = some r.dto.email)
    throwIf emailTaken (.conflict "Email already registered")
    r.enrol X now
  | .hash | .save => r.enrol X now

/-- The turns that a call still needs after the next. -/
def left : RegistrationAwaits → Nat
  | .findUsername => 3
  | .findEmail => 2
  | .hash => 1
  | .save => 0

abbrev move := advance (turn X)

variable {X} {c : Clocked} {r : Registration} {w : RegistrationAwaits}

theorem restAt_turn (now : Date) (w : RegistrationAwaits) :
    r.restAt X now w = r.turnAt X now w >>= fun x => Sum.elim (r.restAt X now) pure x := by
  cases w with
  | findUsername =>
    simp only [turnAt, restAt, register, bind_assoc, pure_bind, Sum.elim_inl]
    rfl
  | findEmail =>
    simp only [turnAt, restAt, bind_assoc, pure_bind, Sum.elim_inl]
  | hash =>
    simp only [turnAt, restAt, pure_bind, Sum.elim_inl]
  | save =>
    simp only [turnAt, restAt, bind_map_left, Sum.elim_inr, bind_pure]

/-! ### What a turn does -/

/-- The account has the name or the email of the registration. -/
def Clashes (r : Registration) (u : User) : Prop :=
  u.username = r.dto.username ∨ u.email = some r.dto.email

/-- What a turn of a call makes of what it awaits and of the accounts. -/
inductive Moves (X : Externals) (r : Registration) (us : List User) :
    RegistrationAwaits → Course RegistrationAwaits Exception Session → List User → Prop
  | nameFree (hfree : ∀ u ∈ us, u.username ≠ r.dto.username) :
      Moves X r us .findUsername (.awaits .findEmail) us
  | nameTaken {u : User} (hu : u ∈ us) (hclash : r.Clashes u) :
      Moves X r us .findUsername (.ended (.error (.conflict "Username already taken"))) us
  | emailFree (hfree : ∀ u ∈ us, u.email ≠ some r.dto.email) :
      Moves X r us .findEmail (.awaits .hash) us
  | emailTaken {u : User} (hu : u ∈ us) (hclash : r.Clashes u) :
      Moves X r us .findEmail (.ended (.error (.conflict "Email already registered"))) us
  | hashed : Moves X r us .hash (.awaits .save) us
  | saved {u : User} {s : Session} (hfree : ∀ x ∈ us, x.id ≠ r.env.uuids 0 → ¬r.Clashes x)
      (hname : u.username = r.dto.username) (hemail : u.email = some r.dto.email) :
      Moves X r us .save (.ended (.ok s)) (us ++ [u])
  | refused {u : User} {column : String} (hu : u ∈ us) (hclash : r.Clashes u) :
      Moves X r us .save (.ended (.error (.queryFailed (.unique column)))) us
  | unstorable {w : RegistrationAwaits} (htexts : (r.account X).storable = false) :
      Moves X r us w (.ended (.error (.queryFailed .nulCharacter))) us

/-- The insertion of the account succeeds, or is refused for its texts, or for an account there
is. -/
theorem create_wp (now : Date) {db : Database} :
    wp (UsersService.create (r.env.at now) (r.account X))
      (fun u db' => (∀ x ∈ db.users, x.id ≠ r.env.uuids 0 → ¬r.Clashes x) ∧
        u.username = r.dto.username ∧ u.email = some r.dto.email ∧
        db'.users = db.users ++ [u])
      (fun e db' => db' = db ∧
        (e = .queryFailed .nulCharacter ∧ (r.account X).storable = false ∨
          (∃ column, e = .queryFailed (.unique column)) ∧ ∃ x ∈ db.users, r.Clashes x)) db := by
  simp only [UsersService.create, UsersService.insertUser, UsersService.uniqueColumns, wp_bind,
    wp_texts, wp_column, wp_query, wp_throwIf, wp_write, wp_pure]
  refine ⟨fun _ => ?_, fun htexts => ⟨trivial, .inl ⟨trivial, htexts⟩⟩⟩
  simp only [account, BodyField.required, BodyField.nullable, Option.some.injEq, forall_eq',
    true_and, reduceCtorEq, false_implies, and_true, Clashes, List.any_eq_false, List.any_eq_true,
    decide_eq_true_eq, Option.isSome_some]
  refine ⟨fun hname => ⟨?_, ?_⟩, ?_⟩
  · rintro hemail x hx hid (hx' | hx')
    · exact hname x hx (decide_eq_true ⟨hid, hx'⟩)
    · exact hemail x hx ⟨hid, hx'⟩
  · rintro ⟨x, hx, -, hemail⟩
    exact .inr ⟨⟨_, rfl⟩, x, hx, .inr hemail⟩
  · rintro ⟨x, hx, hname⟩
    exact .inr ⟨⟨_, rfl⟩, x, hx, .inl (of_decide_eq_true hname).2⟩

theorem account_unstorable (h : storable r.dto.username = false) :
    (r.account X).storable = false := by
  simp [UsersService.UserData.storable, account, BodyField.optional, h]

theorem move_moves : Moves X r c.server.db.users w (move X (r, .awaits w) c).1.2
    (move X (r, .awaits w) c).2.server.db.users := by
  refine advance_of_wp (r := r) (p := w) (s := c)
    (C := fun l c' => Moves X r c.server.db.users w l.2 c'.server.db.users) ?_
  apply wp_clocked.mpr
  cases w with
  | findUsername =>
    simp only [turnAt, wp_bind, wp_texts, wp_query, wp_throwIf, wp_pure, List.any_eq_false,
      List.any_eq_true, decide_eq_true_eq]
    refine ⟨fun _ => ⟨fun hfree => .nameFree hfree, ?_⟩, fun htexts => ?_⟩
    · rintro ⟨u, hu, hname⟩
      exact .nameTaken hu (.inl hname)
    · exact .unstorable (account_unstorable htexts)
  | findEmail =>
    simp only [turnAt, wp_bind, wp_query, wp_throwIf, wp_pure, List.any_eq_false, List.any_eq_true,
      decide_eq_true_eq]
    constructor
    · exact fun hfree => .emailFree hfree
    · rintro ⟨u, hu, hemail⟩
      exact .emailTaken hu (.inr hemail)
  | hash => exact .hashed
  | save =>
    simp only [turnAt, enrol, wp_map, wp_bind, wp_onDb]
    apply (create_wp c.now).mono
    · rintro u db' ⟨hfree, hname, hemail, husers⟩
      change Moves X r c.server.db.users .save (.ended (.ok _)) db'.users
      rw [husers]
      exact .saved hfree hname hemail
    · rintro _ _ ⟨rfl, ⟨rfl, htexts⟩ | ⟨⟨column, rfl⟩, u, hu, hclash⟩⟩
      · exact .unstorable htexts
      · exact .refused hu hclash

theorem left_lt {w' : RegistrationAwaits} {c c' : Clocked}
    (h : r.turn X w c = .ok (.inl w') c') : left w' < left w := by
  have hmoves : Moves X r c.server.db.users w (.awaits w') c'.server.db.users := by
    have hmove := move_moves (X := X) (r := r) (w := w) (c := c)
    rwa [move, advance_ok h] at hmove
  generalize c'.server.db.users = us' at hmoves
  cases hmoves with
  | nameFree | emailFree | hashed => decide

/-- A call that is not interrupted does what `register` does. -/
theorem registration_alone :
    run (Pool.turn (move X)) ⟨[(r, .awaits .findUsername)], c⟩ (List.replicate 4 0) =
      ⟨[(r, .ended ((register X (r.env.at c.now) r.dto).outcome c.server))],
        { c with server := (register X (r.env.at c.now) r.dto).final c.server }⟩ := by
  have hprog : ∀ w, clocked (r.restAt X · w) = r.turn X w >>= fun x =>
      Sum.elim (fun w => clocked (r.restAt X · w)) pure x :=
    clocked_rest fun now w => restAt_turn now w
  rw [run_course hprog (fun _ _ _ _ => left_lt) (show left .findUsername < 4 by decide)]
  simp only [Prog.outcome, Prog.final, clocked, within, restAt]
  cases register X (r.env.at c.now) r.dto c.server <;> rfl

/-! ### Calls that take turns -/

abbrev Call := Registration × Course RegistrationAwaits Exception Session

namespace Call

/-- The call has returned an access token. -/
def signed (l : Call) : Bool :=
  match l.2 with
  | .ended (.ok _) => true
  | _ => false

def ended (l : Call) : Bool :=
  match l.2 with
  | .ended _ => true
  | .awaits _ => false

/-- The id for the account of the call, unless it has ended, is not taken. -/
def fresh (l : Call) (c : Clocked) : Bool :=
  match l.2 with
  | .awaits _ => l.1.env.uuids 0 ∉ c.server.db.users.map (·.id)
  | .ended _ => true

/-- What a call has found out about the accounts that were there at the start and those created
since. Only an account created since refuses a call in the end that has checked them all, unless its
texts cannot be stored. -/
def Knows (X : Externals) (us created : List User) (l : Call) : Prop :=
  match l.2 with
  | .awaits .findUsername | .ended (.ok _) => True
  | .awaits .findEmail => ∀ u ∈ us, u.username ≠ l.1.dto.username
  | .awaits .hash | .awaits .save => ∀ u ∈ us, ¬l.1.Clashes u
  | .ended (.error e) =>
    (∃ message, e = .conflict message) ∧ (∃ u ∈ us ++ created, l.1.Clashes u) ∨
      (∃ column, e = .queryFailed (.unique column)) ∧ (∃ u ∈ created, l.1.Clashes u) ∨
      e = .queryFailed .nulCharacter ∧ (l.1.account X).storable = false

end Call

/-- Calls that have not been started. -/
def calls (rs : List Registration) (c : Clocked) : Pool Call Clocked :=
  ⟨rs.map (·, .awaits .findUsername), c⟩

/-- Call `k` takes its turn, or time passes. -/
abbrev step (X : Externals) : Pool Call Clocked → Nat ⊕ Nat → Unit × Pool Call Clocked :=
  Pool.step (move X) Clocked.pass

/-- The call whose turn it is has an id of its own for its account. -/
def FreshCall (p : Pool Call Clocked) : Nat ⊕ Nat → Prop
  | .inl k => ∀ l ∈ p.jobs[k]?, l.fresh p.state = true
  | .inr _ => True

instance : ∀ (p : Pool Call Clocked) (i : Nat ⊕ Nat), Decidable (FreshCall p i)
  | p, .inl k => inferInstanceAs (Decidable (∀ l ∈ p.jobs[k]?, l.fresh p.state = true))
  | _, .inr _ => inferInstanceAs (Decidable True)

/-- No two accounts have one name, or one email. -/
def Distinct (us : List User) : Prop :=
  us.Pairwise fun u u' => u.username ≠ u'.username ∧ (u.email = u'.email → u.email = none)

/-- The name and the email that a call asks for, and those that an account has. -/
def asked (l : Call) : String × Option String := (l.1.dto.username, some l.1.dto.email)

def has (u : User) : String × Option String := (u.username, u.email)

/-- The accounts `us` of the start and one for each call that has succeeded. -/
structure Settles (X : Externals) (us created : List User) (p : Pool Call Clocked) : Prop where
  accounts : p.state.server.db.users = us ++ created
  distinct : Distinct p.state.server.db.users
  answered : (created.map has).Perm ((p.jobs.filter Call.signed).map asked)
  knows : ∀ l ∈ p.jobs, l.Knows X us created

variable {p : Pool Call Clocked} {us created : List User}

/-- What a call knows does not depend on accounts that are created after that. -/
theorem Knows.grow {l : Call} (h : l.Knows X us created) (u : User) :
    l.Knows X us (created ++ [u]) := by
  obtain ⟨r, course⟩ := l
  cases course with
  | awaits w => cases w <;> exact h
  | ended o =>
    cases o with
    | ok s => exact trivial
    | error e =>
      rcases h with ⟨he, x, hx, hclash⟩ | ⟨he, x, hx, hclash⟩ | htexts
      · refine .inl ⟨he, x, ?_, hclash⟩
        rw [← List.append_assoc]
        exact List.mem_append_left _ hx
      · exact .inr (.inl ⟨he, x, List.mem_append_left _ hx, hclash⟩)
      · exact .inr (.inr htexts)

/-- The calls that have succeeded, after one of them has taken a turn. -/
theorem signed_set {k : Nat} (hk : p.jobs[k]? = some (r, .awaits w))
    (course : Course RegistrationAwaits Exception Session) :
    ((p.jobs.set k (r, course)).filter Call.signed).map asked |>.Perm
      ((if Call.signed (r, course) then [asked (r, course)] else []) ++
        (p.jobs.filter Call.signed).map asked) := by
  have hbefore := ((jobs_perm hk).filter Call.signed).map asked
  have hafter := ((List.set_perm_cons_eraseIdx (List.getElem?_eq_some_iff.mp hk).1
    (r, course)).filter Call.signed).map asked
  have hawaits : Call.signed (r, .awaits w) = false := rfl
  rw [List.filter_cons, hawaits, if_neg Bool.false_ne_true] at hbefore
  refine hafter.trans (List.Perm.trans ?_ (hbefore.symm.append_left _))
  rw [List.filter_cons]
  split_ifs
  · exact List.Perm.refl _
  · exact List.Perm.refl _

/-- A turn that creates no account. -/
theorem Settles.stays {k : Nat} {course : Course RegistrationAwaits Exception Session}
    {c' : Clocked} (h : Settles X us created p) (hk : p.jobs[k]? = some (r, .awaits w))
    (hunsigned : Call.signed (r, course) = false)
    (hsame : c'.server.db.users = p.state.server.db.users)
    (hknows : Call.Knows X us created (r, course)) :
    Settles X us created ⟨p.jobs.set k (r, course), c'⟩ := by
  refine ⟨hsame.trans h.accounts, hsame ▸ h.distinct, ?_, ?_⟩
  · have hsigned := signed_set hk course
    rw [hunsigned, if_neg Bool.false_ne_true] at hsigned
    exact h.answered.trans hsigned.symm
  · intro l hl
    rcases List.mem_or_eq_of_mem_set hl with hold | rfl
    · exact h.knows l hold
    · exact hknows

theorem turn_settles {k : Nat} (h : Settles X us created p) (hfresh : FreshCall p (.inl k)) :
    ∃ created, Settles X us created (p.turn (move X) k).2 := by
  refine turn_moves (M := fun r c w course c' =>
    Moves X r c.server.db.users w course c'.server.db.users)
    (I := fun p => ∃ created, Settles X us created p) (fun _ _ _ => move_moves) ⟨created, h⟩ ?_
  intro r w course c' hk hmoves
  have hknows : Call.Knows X us created (r, .awaits w) := h.knows _ (List.mem_of_getElem? hk)
  have hstart : ∀ u ∈ us, u ∈ p.state.server.db.users := by
    intro u hu
    rw [h.accounts]
    exact List.mem_append_left _ hu
  generalize hus' : c'.server.db.users = us' at hmoves
  cases hmoves with
  | nameFree hfree =>
    exact ⟨created, h.stays hk rfl hus' fun u hu => hfree u (hstart u hu)⟩
  | nameTaken hu hclash =>
    rw [h.accounts] at hu
    exact ⟨created, h.stays hk rfl hus' (.inl ⟨⟨_, rfl⟩, _, hu, hclash⟩)⟩
  | emailFree hfree =>
    refine ⟨created, h.stays hk rfl hus' fun u hu => ?_⟩
    rintro (hname | hemail)
    · exact hknows u hu hname
    · exact hfree u (hstart u hu) hemail
  | emailTaken hu hclash =>
    rw [h.accounts] at hu
    exact ⟨created, h.stays hk rfl hus' (.inl ⟨⟨_, rfl⟩, _, hu, hclash⟩)⟩
  | hashed => exact ⟨created, h.stays hk rfl hus' hknows⟩
  | refused hu hclash =>
    rw [h.accounts] at hu
    have hnew := (List.mem_append.mp hu).resolve_left fun hold => hknows _ hold hclash
    exact ⟨created, h.stays hk rfl hus' (.inr (.inl ⟨⟨_, rfl⟩, _, hnew, hclash⟩))⟩
  | unstorable htexts =>
    exact ⟨created, h.stays hk rfl hus' (.inr (.inr ⟨rfl, htexts⟩))⟩
  | @saved u s hfree hname hemail =>
    have hid : r.env.uuids 0 ∉ p.state.server.db.users.map (·.id) :=
      of_decide_eq_true (hfresh _ hk)
    refine ⟨created ++ [u], ?_, ?_, ?_, ?_⟩
    · rw [hus', h.accounts, List.append_assoc]
    · rw [hus', Distinct, List.pairwise_append]
      refine ⟨h.distinct, List.pairwise_singleton _ u, fun x hx u' hu' => ?_⟩
      obtain rfl := List.mem_singleton.mp hu'
      have hclash := hfree x hx fun heq => hid (List.mem_map.mpr ⟨x, hx, heq⟩)
      rw [Clashes, not_or] at hclash
      exact ⟨hname ▸ hclash.1, fun heq => absurd (heq.trans hemail) hclash.2⟩
    · have hsigned := signed_set hk (.ended (.ok s))
      have hhas : has u = asked (r, .ended (.ok s)) := by
        rw [has, asked, hname, hemail]
      rw [List.map_append, List.map_singleton, hhas]
      refine (List.perm_append_comm.trans (h.answered.append_left _)).trans hsigned.symm
    · intro l hl
      rcases List.mem_or_eq_of_mem_set hl with hold | rfl
      · exact Knows.grow (h.knows l hold) u
      · exact trivial

theorem step_settles (h : ∃ created, Settles X us created p) (i : Nat ⊕ Nat)
    (hfresh : FreshCall p i) : ∃ created, Settles X us created (step X p i).2 := by
  obtain ⟨created, h⟩ := h
  cases i with
  | inl k => exact turn_settles h hfresh
  | inr ms => exact ⟨created, h.accounts, h.distinct, h.answered, h.knows⟩

variable {rs : List Registration} {is : List (Nat ⊕ Nat)}

theorem settles_calls (hdistinct : Distinct c.server.db.users) :
    Settles X c.server.db.users [] (calls rs c) := by
  refine ⟨(List.append_nil _).symm, hdistinct, ?_, ?_⟩
  · have hnone : (calls rs c).jobs.filter Call.signed = [] := by
      refine List.filter_eq_nil_iff.mpr fun l hl => ?_
      obtain ⟨r, -, rfl⟩ := List.mem_map.mp hl
      exact Bool.false_ne_true
    rw [hnone]
    exact List.Perm.refl _
  · intro l hl
    obtain ⟨r, -, rfl⟩ := List.mem_map.mp hl
    exact trivial

/-- In whatever order registrations take turns, no two accounts have one name or one email, there is
one new account for each that succeeds, and one that fails shares its name or its email with an
account: with one created since the start, when the unique columns refuse it after it has checked
both. Only a registration whose texts cannot be stored fails for another reason. -/
theorem registrations_settle (X : Externals) (rs : List Registration) (c : Clocked)
    (is : List (Nat ⊕ Nat)) (hdistinct : Distinct c.server.db.users)
    (hfresh : Along (step X) FreshCall (calls rs c) is) :
    ∃ created, Settles X c.server.db.users created (run (step X) (calls rs c) is) :=
  hfresh.invariant (I := fun p => ∃ created, Settles X c.server.db.users created p)
    (fun _ i h hi => step_settles h i hi) ⟨[], settles_calls hdistinct⟩

/-- Somebody who asks for the name of a new account has it. -/
theorem Settles.names (h : Settles X us created p) {name : String}
    (hname : ∀ l ∈ p.jobs, l.1.dto.username = name) : ∀ u ∈ created, u.username = name := by
  intro u hu
  have hasked := (h.answered.mem_iff).mp (List.mem_map_of_mem hu)
  obtain ⟨l, hl, heq⟩ := List.mem_map.mp hasked
  exact (congrArg Prod.fst heq).symm.trans (hname l (List.mem_filter.mp hl).1)

theorem Settles.count (h : Settles X us created p) :
    p.jobs.countP Call.signed = created.length := by
  have hlength := h.answered.length_eq
  rw [List.length_map, List.length_map] at hlength
  rw [List.countP_eq_length_filter, hlength]

/-- One name makes one account at most. -/
theorem Settles.at_most_one (h : Settles X us created p) {name : String}
    (hnames : ∀ u ∈ created, u.username = name) : created.length ≤ 1 := by
  have hdistinct := h.distinct
  rw [h.accounts, Distinct, List.pairwise_append] at hdistinct
  rcases created with - | ⟨u, - | ⟨u', rest⟩⟩
  · exact Nat.zero_le 1
  · exact Nat.le_refl 1
  · have hne := (List.pairwise_cons.mp hdistinct.2.1).1 u' List.mem_cons_self
    refine absurd ?_ hne.1
    rw [hnames u List.mem_cons_self, hnames u' (List.mem_cons_of_mem _ List.mem_cons_self)]

/-- While there is no new account, a call that clashes with no old one and whose texts can be
stored has not failed. -/
theorem Settles.not_failed (h : Settles X us [] p) {l : Call} (hl : l ∈ p.jobs)
    (hfree : ∀ u ∈ us, ¬l.1.Clashes u) (htexts : (l.1.account X).storable = true)
    (hended : l.ended = true) : l.signed = true := by
  have hknows := h.knows l hl
  obtain ⟨r, course⟩ := l
  cases course with
  | awaits w => exact absurd hended Bool.false_ne_true
  | ended o =>
    cases o with
    | ok s => rfl
    | error e =>
      rcases hknows with ⟨-, u, hu, hclash⟩ | ⟨-, u, hu, -⟩ | ⟨-, hunstorable⟩
      · rw [List.append_nil] at hu
        exact absurd hclash (hfree u hu)
      · cases hu
      · rw [htexts] at hunstorable
        cases hunstorable

theorem run_requests : (run (step X) (calls rs c) is).jobs.map (·.1) = rs := by
  have hall : Along (step X) (fun _ _ => True) (calls rs c) is :=
    along_of_forall (fun _ _ => trivial) _ _
  refine hall.invariant (I := fun p => p.jobs.map (·.1) = rs) ?_ ?_
  · intro p i h _
    cases i with
    | inl k => exact (turn_requests p k).trans h
    | inr ms => exact h
  · simp [calls, Function.comp_def]

/-- Of the registrations for one free name, all with free emails and texts that can be stored,
exactly one succeeds, once all have ended. -/
theorem one_registration_succeeds (X : Externals) (rs : List Registration) (c : Clocked)
    (is : List (Nat ⊕ Nat)) (name : String) (hdistinct : Distinct c.server.db.users)
    (hfresh : Along (step X) FreshCall (calls rs c) is) (hsome : rs ≠ [])
    (hname : ∀ r ∈ rs, r.dto.username = name)
    (htexts : ∀ r ∈ rs, (r.account X).storable = true)
    (hfree : ∀ r ∈ rs, ∀ u ∈ c.server.db.users, ¬r.Clashes u)
    (hended : ∀ l ∈ (run (step X) (calls rs c) is).jobs, l.ended = true) :
    (run (step X) (calls rs c) is).jobs.countP Call.signed = 1 := by
  obtain ⟨created, h⟩ := hfresh.invariant
    (I := fun p => ∃ created, Settles X c.server.db.users created p)
    (fun _ i h hi => step_settles h i hi) ⟨[], settles_calls hdistinct⟩
  have hrequests : (run (step X) (calls rs c) is).jobs.map (·.1) = rs := run_requests
  generalize run (step X) (calls rs c) is = p at h hrequests hended ⊢
  have hmem : ∀ l ∈ p.jobs, l.1 ∈ rs := fun l hl => hrequests ▸ List.mem_map_of_mem hl
  have hcount := h.count
  have hmost := h.at_most_one (h.names fun l hl => hname _ (hmem l hl))
  have hleast : created ≠ [] := by
    rintro rfl
    obtain ⟨r, hr⟩ := List.exists_mem_of_ne_nil rs hsome
    rw [← hrequests] at hr
    obtain ⟨l, hl, rfl⟩ := List.mem_map.mp hr
    have hunsigned := List.countP_eq_zero.mp hcount l hl
    exact hunsigned (h.not_failed hl (hfree _ (hmem l hl)) (htexts _ (hmem l hl)) (hended l hl))
  have hpos := List.length_pos_iff.mpr hleast
  omega

/-- Alice and Bob both ask for the name `neo`. -/
def bothAsk : List Registration :=
  [⟨sampleEnv 1, ⟨"neo", "alice@mail", "secret"⟩⟩, ⟨sampleEnv 2, ⟨"neo", "bob@mail", "secret"⟩⟩]

/-- Both check the name before either has an account. -/
def bothCheck : List (Nat ⊕ Nat) :=
  [.inl 0, .inl 1, .inl 0, .inl 1, .inl 0, .inr 1000, .inl 1, .inl 1, .inl 0]

theorem bothCheck_settles : ∃ created, Settles sampleExternals [] created
    (run (step sampleExternals) (calls bothAsk ⟨0, .empty⟩) bothCheck) :=
  registrations_settle sampleExternals bothAsk ⟨0, .empty⟩ bothCheck List.Pairwise.nil
    (by decide +kernel)

theorem bothCheck_one :
    (run (step sampleExternals) (calls bothAsk ⟨0, .empty⟩) bothCheck).jobs.countP
      Call.signed = 1 :=
  one_registration_succeeds sampleExternals bothAsk ⟨0, .empty⟩ bothCheck "neo" List.Pairwise.nil
    (by decide +kernel) (by simp [bothAsk]) (by simp [bothAsk]) (by decide +kernel)
    (fun _ _ _ h => by cases h)
    (by decide +kernel)

end Registration

end VoxLink
