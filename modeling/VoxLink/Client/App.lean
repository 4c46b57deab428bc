import VoxLink.Backend.Http
import VoxLink.Client.Typing

/-! `App` with its routes and pages, the callbacks of `useAuth` that the pages call, and what the
interceptors of `ApiService` do on a 401. While a callback awaits its answer, `App` renders a
spinner in place of its routes, so the page that made the call is unmounted. -/

namespace VoxLink

open ProofKit

namespace Client

/-! ### The store of the account -/

/-- `useAuthStore`. The user, the token and `isAuthenticated` are persisted. -/
structure AuthState where
  user : Option SignedUser
  token : Option Jwt
  isAuthenticated : Bool
  isLoading : Bool
  error : Option String
deriving DecidableEq, Repr

/-- An address, as the routes of `App` tell them apart. -/
inductive Address where
  | login (invite : Option String)
  | verify (token : Option String)
  | home
  | channel (channelId : String)
  | other
deriving DecidableEq, Repr

namespace AuthState

variable (s : AuthState)

def initial : AuthState := ⟨none, none, false, false, none⟩

def login (user : SignedUser) (token : Jwt) : AuthState :=
  { s with user := some user, token := some token, isAuthenticated := true, error := none }

def logout : AuthState :=
  { s with user := none, token := none, isAuthenticated := false, error := none }

/-- What `persist` gives a page that is loaded. -/
def rehydrated : AuthState := { s with isLoading := false, error := none }

/-- The address to which the routes redirect. -/
def redirect : Address → Address
  | .login invite => if s.isAuthenticated then .home else .login invite
  | .verify token => .verify token
  | .home | .other => if s.isAuthenticated then .home else .login none
  | .channel channelId => if s.isAuthenticated then .channel channelId else .login none

end AuthState

/-! ### The pages -/

inductive LoginMode where
  | invite
  | magic
  | register
deriving DecidableEq, Repr

/-- The state of `LoginPage`. -/
structure LoginPage where
  mode : LoginMode
  username : String
  inviteToken : String
  email : String
  password : String
  confirmPassword : String
  magicSent : Bool
  submitting : Bool
deriving DecidableEq, Repr

inductive VerifyStatus where
  | loading
  | success
  | error
deriving DecidableEq, Repr

/-- The state of `VerifyPage`. -/
structure VerifyPage where
  status : VerifyStatus
  errorMsg : String
deriving DecidableEq, Repr

/-- A callback of `useAuth` that makes a request. -/
inductive AuthCall where
  | register (username email password : String)
  | signIn (inviteToken username : String)
  | sendMagicLink (email : String)
  | verifyMagicLink (token : String)
deriving DecidableEq, Repr

/-- The request of a callback. -/
def AuthCall.route : AuthCall → AuthRoute
  | .register username email password => .register ⟨username, email, password⟩
  | .signIn inviteToken username => .login ⟨.value username, .absent, .value inviteToken⟩
  | .sendMagicLink email => .sendMagicLink ⟨email⟩
  | .verifyMagicLink token => .verifyMagicLink token

/-- `text.trim()` -/
def trim (text : String) : String :=
  String.ofList (((text.toList.dropWhile isTrimmed).reverse.dropWhile isTrimmed).reverse)

/-- What the user does to the fields of `LoginPage`. -/
inductive LoginEdit where
  | switchMode (mode : LoginMode)
  | username (value : String)
  | inviteToken (value : String)
  | email (value : String)
  | password (value : String)
  | confirmPassword (value : String)
  /-- The button to send to another address. -/
  | sendAgain
deriving DecidableEq, Repr

namespace LoginPage

variable (p : LoginPage)

/-- `invite` is the parameter of the address. -/
def initial (invite : Option String) : LoginPage :=
  ⟨.invite, "", invite.getD "", "", "", "", false, false⟩

def edit : LoginEdit → LoginPage
  | .switchMode mode => { p with mode, magicSent := false }
  | .username username => { p with username }
  | .inviteToken inviteToken => { p with inviteToken }
  | .email email => { p with email }
  | .password password => { p with password }
  | .confirmPassword confirmPassword => { p with confirmPassword }
  | .sendAgain => { p with magicSent := false, email := "" }

/-- The callback that the handler of the form calls, when the fields pass its checks. -/
def submitted : Option AuthCall :=
  if p.submitting then none
  else
    match p.mode with
    | .register =>
      if isBlank p.username ∨ isBlank p.email ∨ isBlank p.password ∨ utf16Length p.password < 6 ∨
          p.password ≠ p.confirmPassword then none
      else some (.register (trim p.username) (trim p.email) p.password)
    | .invite =>
      if isBlank p.username then none else some (.signIn (trim p.inviteToken) (trim p.username))
    | .magic =>
      if p.magicSent ∨ isBlank p.email then none else some (.sendMagicLink (trim p.email))

end LoginPage

/-- `VerifyPage` at an address without a token. -/
def VerifyPage.missing : VerifyPage := ⟨.error, "Токен отсутствует в ссылке."⟩

/-! ### The app -/

/-- What `App` renders. -/
inductive Screen where
  | spinner
  | login (page : LoginPage)
  | verify (page : VerifyPage)
  | home
  | channel (channelId : String)
deriving DecidableEq, Repr

/-- A call in flight: its request, and which page awaits it. -/
structure AwaitedCall where
  call : AuthCall
  request : Request
  page : Nat

/-- `mounted` pages of signing in have been mounted; the one on screen is the last of them. `timers`
counts the delayed navigations of `VerifyPage`. -/
structure App where
  auth : AuthState
  address : Address
  screen : Screen
  mounted : Nat
  calls : List AwaitedCall
  timers : Nat

/-- What a callback gets: the session of an answer that has one, or the status and message of an
error, without a status when no answer comes. -/
inductive Answer where
  | ok (session : Option Session)
  | failed (status : Option Nat) (message : String)
deriving DecidableEq, Repr

/-- What happens to the app, in any order. -/
inductive AppInput where
  | load (address : Address)
  | navigate (address : Address)
  | edit (e : LoginEdit)
  | submit
  | signOut
  | answered (n : Nat) (answer : Answer)
  /-- Another request is answered with 401. -/
  | unauthorized
  /-- A delayed navigation of `VerifyPage`. -/
  | elapsed

namespace App

variable (a : App)

/-- A callback up to its request. -/
def call (c : AuthCall) : App :=
  { a with
    auth := { a.auth with isLoading := true, error := none }
    calls := a.calls ++ [⟨c, ⟨a.auth.token, .auth c.route⟩, a.mounted⟩]
    screen := .spinner }

def mountLogin (invite : Option String) : App :=
  { a with mounted := a.mounted + 1, screen := .login (.initial invite) }

/-- `VerifyPage` with its effect, which runs as soon as it is mounted. -/
def mountVerify (token : Option String) : App :=
  let mounted := { a with mounted := a.mounted + 1, screen := .verify ⟨.loading, ""⟩ }
  match token.filter (· ≠ "") with
  | none => { mounted with screen := .verify .missing }
  | some token => mounted.call (.verifyMagicLink token)

def render : App :=
  if a.auth.isLoading then { a with screen := .spinner }
  else
    let address := a.auth.redirect a.address
    let a := { a with address }
    match address, a.screen with
    | .login _, .login _ | .verify _, .verify _ => a
    | .login invite, _ => a.mountLogin invite
    | .verify token, _ => a.mountVerify token
    | .channel channelId, _ => { a with screen := .channel channelId }
    | .home, _ | .other, _ => { a with screen := .home }

/-- The page is loaded. -/
def load (address : Address) (auth : AuthState) : App :=
  render ⟨auth.rehydrated, address, .spinner, 0, [], 0⟩

/-! ### Answers -/

/-- The interceptor for a 401: `logout()` and a load of `/login`. -/
def expel : App := load (.login none) a.auth.logout

/-- The `finally` of a callback. -/
def ended : App := { a with auth := { a.auth with isLoading := false } }.render

/-- The state of the page that awaits a call, if it is still mounted. -/
def onLogin (c : AwaitedCall) (f : LoginPage → LoginPage) : App :=
  match a.screen with
  | .login page => if a.mounted = c.page then { a with screen := .login (f page) } else a
  | _ => a

def onVerify (c : AwaitedCall) (f : VerifyPage → VerifyPage) : App :=
  match a.screen with
  | .verify page => if a.mounted = c.page then { a with screen := .verify (f page) } else a
  | _ => a

/-- The handler of the page after the callback has returned. -/
def succeed (c : AwaitedCall) : App :=
  match c.call with
  | .register _ _ _ | .signIn _ _ =>
    { a with address := .home }.render.onLogin c fun p => { p with submitting := false }
  | .sendMagicLink _ => a.onLogin c fun p => { p with magicSent := true, submitting := false }
  | .verifyMagicLink _ =>
    { a with timers := a.timers + 1 }.onVerify c fun p => { p with status := .success }

/-- The handler of the page after the callback has thrown. -/
def fail (c : AwaitedCall) (message : String) : App :=
  match c.call with
  | .register _ _ _ | .signIn _ _ | .sendMagicLink _ =>
    a.onLogin c fun p => { p with submitting := false }
  | .verifyMagicLink _ => a.onVerify c fun _ =>
    ⟨.error, if message = "" then "Ссылка недействительна или истекла." else message⟩

/-- What a callback does to the store with its answer. -/
def signedIn (c : AwaitedCall) (session : Option Session) : AuthState :=
  match c.call, session with
  | .sendMagicLink _, _ | _, none => a.auth
  | _, some s => a.auth.login s.user s.accessToken

def answered (n : Nat) (answer : Answer) : App :=
  match a.calls[n]? with
  | none => a
  | some c =>
    let a := { a with calls := a.calls.eraseIdx n }
    match answer with
    | .ok session => { a with auth := a.signedIn c session }.ended.succeed c
    | .failed status message =>
      if status = some 401 then a.expel
      else { a with auth := { a.auth with error := some message } }.ended.fail c message

def next : AppInput → App
  | .load address => load address a.auth
  | .navigate address => { a with address }.render
  | .edit e =>
    match a.screen with
    | .login page =>
      let error := match e with | .switchMode _ => none | _ => a.auth.error
      { a with screen := .login (page.edit e), auth := { a.auth with error } }
    | _ => a
  | .submit =>
    match a.screen with
    | .login page =>
      match page.submitted with
      | some c => { a with screen := .login { page with submitting := true } }.call c
      | none => a
    | _ => a
  | .signOut =>
    match a.screen with
    | .home | .channel _ => { a with auth := a.auth.logout }.render
    | _ => a
  | .answered n answer => a.answered n answer
  | .unauthorized => a.expel
  | .elapsed =>
    if a.timers = 0 then a else { a with timers := a.timers - 1, address := .home }.render

def step (a : App) (i : AppInput) : Unit × App := ((), a.next i)

/-! ### What a page learns of its request -/

/-- What a render does when no call is in flight, up to the address: the page on screen stays, or
another takes its place. -/
inductive Renders (a : App) : App → Prop
  | stays {address : Address} (hscreen : a.screen ≠ .spinner) : Renders a { a with address }
  | login {address : Address} (invite : Option String) :
    Renders a { a with address, mounted := a.mounted + 1, screen := .login (.initial invite) }
  | missing {address : Address} :
    Renders a { a with address, mounted := a.mounted + 1, screen := .verify .missing }
  | verifies {address : Address} {screen : Screen} (token : String) :
    Renders a (call { a with address, mounted := a.mounted + 1, screen } (.verifyMagicLink token))
  | signedIn {address : Address} {screen : Screen}
    (hscreen : screen = .home ∨ ∃ channelId, screen = .channel channelId) :
    Renders a { a with address, screen }

/-- At most one call is in flight, `isLoading` says whether there is one, and while there is one no
page is on screen. No page on screen awaits a call or has heard of one. -/
structure Steady (a : App) : Prop where
  single : a.calls.length ≤ 1
  loading : a.auth.isLoading = !a.calls.isEmpty
  hidden : a.calls ≠ [] → a.screen = .spinner
  earlier : ∀ c ∈ a.calls, c.page ≤ a.mounted
  login : ∀ p, a.screen = .login p → p.magicSent = false ∧ p.submitting = false
  verify : ∀ p, a.screen = .verify p → p = .missing

variable {a : App}

theorem render_renders (hloading : a.auth.isLoading = false) : Renders a a.render := by
  rw [render, hloading, if_neg Bool.false_ne_true]
  simp only
  split
  · exact .stays (by simp [*])
  · exact .stays (by simp [*])
  · exact .login _
  · rw [mountVerify]
    split
    · exact .missing
    · exact .verifies _
  · exact .signedIn (.inr ⟨_, rfl⟩)
  · exact .signedIn (.inl rfl)
  · exact .signedIn (.inl rfl)

theorem call_steady {c : AuthCall} (hcalls : a.calls = []) : (a.call c).Steady := by
  constructor
  · simp [call, hcalls]
  · simp [call]
  · exact fun _ => rfl
  · simp [call, hcalls]
  · intro _ hp
    cases hp
  · intro _ hp
    cases hp

theorem Renders.steady {a' : App} (hrenders : Renders a a') (h : a.Steady) (hcalls : a.calls = []) :
    a'.Steady := by
  have hnone : ∀ c ∈ a.calls, c.page ≤ a.mounted + 1 := by simp [hcalls]
  have hidle : ∀ screen : Screen, a.calls ≠ [] → screen = .spinner := fun _ hne => absurd hcalls hne
  cases hrenders with
  | stays => exact ⟨h.single, h.loading, h.hidden, h.earlier, h.login, h.verify⟩
  | login invite =>
    refine ⟨h.single, h.loading, hidle _, hnone, ?_, ?_⟩
    · rintro _ ⟨⟩
      exact ⟨rfl, rfl⟩
    · intro _ hp
      cases hp
  | missing =>
    refine ⟨h.single, h.loading, hidle _, hnone, ?_, ?_⟩
    · intro _ hp
      cases hp
    · rintro _ ⟨⟩
      rfl
  | verifies token => exact call_steady hcalls
  | signedIn hscreen =>
    refine ⟨h.single, h.loading, hidle _, h.earlier, ?_, ?_⟩
    · rintro p rfl
      rcases hscreen with h | ⟨_, h⟩ <;> cases h
    · rintro p rfl
      rcases hscreen with h | ⟨_, h⟩ <;> cases h

theorem Steady.render (h : a.Steady) : a.render.Steady := by
  cases hcalls : a.calls with
  | cons c cs =>
    have hloading : a.auth.isLoading = true := by simp [h.loading, hcalls]
    have hspinner : a.screen = .spinner := h.hidden (by simp [hcalls])
    have hsame : a.render = a := by
      rw [App.render, if_pos hloading, ← hspinner]
    rw [hsame]
    exact h
  | nil =>
    have hloading : a.auth.isLoading = false := by simp [h.loading, hcalls]
    exact (render_renders hloading).steady h hcalls

theorem load_steady (address : Address) (auth : AuthState) : (load address auth).Steady := by
  apply Steady.render
  refine ⟨Nat.zero_le 1, rfl, fun h => absurd rfl h, ?_, ?_, ?_⟩
  · intro _ hc
    cases hc
  · intro _ hp
    cases hp
  · intro _ hp
    cases hp

/-- The page on screen does not await the call, and a form on screen is blank. -/
structure Detached (c : AwaitedCall) (a : App) : Prop where
  earlier : c.page ≤ a.mounted
  login : ∀ p, a.screen = .login p → c.page < a.mounted ∧ ∃ invite, p = .initial invite
  verify : ∀ p, a.screen = .verify p → c.page < a.mounted

variable {c : AwaitedCall}

theorem Renders.detached {a' : App} (hrenders : Renders a a') (h : Detached c a) :
    Detached c a' := by
  have hlater : c.page < a.mounted + 1 := Nat.lt_succ_of_le h.earlier
  cases hrenders with
  | stays => exact ⟨h.earlier, h.login, h.verify⟩
  | login invite =>
    refine ⟨hlater.le, ?_, ?_⟩
    · rintro _ ⟨⟩
      exact ⟨hlater, invite, rfl⟩
    · intro _ hp
      cases hp
  | missing =>
    refine ⟨hlater.le, ?_, fun _ _ => hlater⟩
    intro _ hp
    cases hp
  | verifies token =>
    refine ⟨hlater.le, ?_, ?_⟩
    · intro _ hp
      cases hp
    · intro _ hp
      cases hp
  | signedIn hscreen =>
    refine ⟨h.earlier, ?_, ?_⟩
    · rintro p rfl
      rcases hscreen with h | ⟨_, h⟩ <;> cases h
    · rintro p rfl
      rcases hscreen with h | ⟨_, h⟩ <;> cases h

theorem Detached.render (h : Detached c a) : Detached c a.render := by
  cases hloading : a.auth.isLoading with
  | true =>
    rw [App.render, if_pos hloading]
    refine ⟨h.earlier, ?_, ?_⟩
    · intro _ hp
      cases hp
    · intro _ hp
      cases hp
  | false => exact (render_renders hloading).detached h

theorem Detached.onLogin (h : Detached c a) (f : LoginPage → LoginPage) : a.onLogin c f = a := by
  rw [App.onLogin]
  split
  · rename_i page hpage
    exact if_neg (h.login page hpage).1.ne'
  · rfl

theorem Detached.onVerify (h : Detached c a) (f : VerifyPage → VerifyPage) :
    a.onVerify c f = a := by
  rw [App.onVerify]
  split
  · rename_i page hpage
    exact if_neg (h.verify page hpage).ne'
  · rfl

/-- The handler that awaits a call changes no page. -/
theorem succeed_detached (h : a.Steady) (hc : Detached c a) :
    (a.succeed c).Steady ∧ Detached c (a.succeed c) := by
  have hhome : Steady { a with address := .home } :=
    ⟨h.single, h.loading, h.hidden, h.earlier, h.login, h.verify⟩
  have hc' : Detached c { a with address := .home } := ⟨hc.earlier, hc.login, hc.verify⟩
  have htimers : Detached c { a with timers := a.timers + 1 } := ⟨hc.earlier, hc.login, hc.verify⟩
  rw [succeed]
  split
  · rw [hc'.render.onLogin]
    exact ⟨hhome.render, hc'.render⟩
  · rw [hc'.render.onLogin]
    exact ⟨hhome.render, hc'.render⟩
  · rw [hc.onLogin]
    exact ⟨h, hc⟩
  · rw [htimers.onVerify]
    exact ⟨⟨h.single, h.loading, h.hidden, h.earlier, h.login, h.verify⟩, htimers⟩

theorem fail_detached (h : a.Steady) (hc : Detached c a) (message : String) :
    (a.fail c message).Steady ∧ Detached c (a.fail c message) := by
  rw [fail]
  split
  · rw [hc.onLogin]
    exact ⟨h, hc⟩
  · rw [hc.onLogin]
    exact ⟨h, hc⟩
  · rw [hc.onLogin]
    exact ⟨h, hc⟩
  · rw [hc.onVerify]
    exact ⟨h, hc⟩

/-- When its answer comes, a callback clears `isLoading` and a page is mounted anew. -/
theorem ended_detached {n : Nat} (h : a.Steady) (hn : a.calls[n]? = some c) (auth : AuthState) :
    let b := ended { a with calls := a.calls.eraseIdx n, auth }
    b.Steady ∧ Detached c b := by
  have hmem : c ∈ a.calls := List.mem_of_getElem? hn
  have hspinner : a.screen = .spinner := h.hidden (List.ne_nil_of_mem hmem)
  have hnone : a.calls.eraseIdx n = [] := by
    have hlength := List.length_eraseIdx_of_lt (List.getElem?_eq_some_iff.mp hn).1
    have hsingle := h.single
    apply List.eq_nil_of_length_eq_zero
    omega
  have hnologin : ∀ p, a.screen ≠ .login p := fun p hp => by
    cases hspinner.symm.trans hp
  have hnoverify : ∀ p, a.screen ≠ .verify p := fun p hp => by
    cases hspinner.symm.trans hp
  constructor
  · apply Steady.render
    refine ⟨?_, ?_, fun _ => hspinner, ?_, ?_, ?_⟩
    · simp [hnone]
    · simp [hnone]
    · simp [hnone]
    · exact fun p hp => absurd hp (hnologin p)
    · exact fun p hp => absurd hp (hnoverify p)
  · apply Detached.render
    exact ⟨h.earlier c hmem, fun p hp => absurd hp (hnologin p),
      fun p hp => absurd hp (hnoverify p)⟩

/-- A page that is loaded comes with an empty form. -/
theorem load_blank {address : Address} {auth : AuthState} {p : LoginPage}
    (hp : (load address auth).screen = .login p) : ∃ invite, p = .initial invite := by
  have hrenders : Renders ⟨auth.rehydrated, address, .spinner, 0, [], 0⟩ (load address auth) :=
    render_renders rfl
  generalize load address auth = b at hrenders hp
  cases hrenders with
  | stays hscreen => exact absurd rfl hscreen
  | login invite => exact ⟨invite, (Screen.login.inj hp).symm⟩
  | missing | verifies _ => cases hp
  | signedIn hscreen => rcases hscreen with rfl | ⟨_, rfl⟩ <;> cases hp

/-- An answer leaves an empty form, if it leaves one. -/
theorem answered_steady {n : Nat} {answer : Answer} (h : a.Steady) (hn : a.calls[n]? = some c) :
    (a.answered n answer).Steady ∧
      ∀ p, (a.answered n answer).screen = .login p → ∃ invite, p = .initial invite := by
  simp only [answered, hn]
  cases answer with
  | ok session =>
    obtain ⟨hsteady, hdetached⟩ := ended_detached h hn (a.signedIn c session)
    obtain ⟨hafter, hblank⟩ := succeed_detached hsteady hdetached
    exact ⟨hafter, fun p hp => (hblank.login p hp).2⟩
  | failed status message =>
    by_cases hstatus : status = some 401
    · simp only [hstatus, if_true]
      exact ⟨load_steady _ _, fun p hp => load_blank hp⟩
    · simp only [hstatus, if_false]
      obtain ⟨hsteady, hdetached⟩ := ended_detached h hn { a.auth with error := some message }
      obtain ⟨hafter, hblank⟩ := fail_detached hsteady hdetached message
      exact ⟨hafter, fun p hp => (hblank.login p hp).2⟩

theorem next_steady (h : a.Steady) (i : AppInput) : (a.next i).Steady := by
  cases i with
  | load address => exact load_steady address a.auth
  | unauthorized => exact load_steady (.login none) a.auth.logout
  | navigate address =>
    apply Steady.render
    exact ⟨h.single, h.loading, h.hidden, h.earlier, h.login, h.verify⟩
  | edit e =>
    simp only [next]
    split
    · rename_i page hpage
      refine ⟨h.single, h.loading, fun hne => ?_, h.earlier, ?_, ?_⟩
      · cases hpage.symm.trans (h.hidden hne)
      · rintro _ ⟨⟩
        obtain ⟨hsent, hsubmitting⟩ := h.login page hpage
        cases e <;> simp [LoginPage.edit, hsent, hsubmitting]
      · intro _ hp
        cases hp
    · exact h
  | submit =>
    simp only [next]
    split
    · rename_i page hpage
      split
      · rename_i c _
        apply call_steady
        by_contra hne
        cases hpage.symm.trans (h.hidden hne)
      · exact h
    · exact h
  | signOut =>
    simp only [next]
    split
    · apply Steady.render
      exact ⟨h.single, h.loading, h.hidden, h.earlier, h.login, h.verify⟩
    · apply Steady.render
      exact ⟨h.single, h.loading, h.hidden, h.earlier, h.login, h.verify⟩
    · exact h
  | answered n answer =>
    cases hn : a.calls[n]? with
    | some c => exact (answered_steady h hn).1
    | none =>
      simp only [next, answered, hn]
      exact h
  | elapsed =>
    simp only [next]
    split_ifs
    · exact h
    · apply Steady.render
      exact ⟨h.single, h.loading, h.hidden, h.earlier, h.login, h.verify⟩

/-- What the pages show of the calls that they make: nothing. While a call is in flight there is the
spinner, the notice that a link was sent and the result of a verification are on no screen, and
after an answer the form is empty. -/
structure ShowsNothing (a : App) (i : AppInput) : Prop where
  spins : a.calls ≠ [] → a.screen = .spinner
  neverSent : ∀ p, a.screen = .login p → p.magicSent = false ∧ p.submitting = false
  neverVerified : ∀ p, a.screen = .verify p → p = .missing
  emptied : ∀ n answer c, i = .answered n answer → a.calls[n]? = some c →
    ∀ p, (a.next i).screen = .login p → ∃ invite, p = .initial invite

/-- Wherever the app is opened, and whatever happens to it, its pages show nothing of the calls that
they make. -/
theorem pages_show_nothing (address : Address) (stored : AuthState) (is : List AppInput) :
    Along step ShowsNothing (load address stored) is := by
  have hall : Along step (fun _ _ => True) (load address stored) is :=
    along_of_forall (fun _ _ => trivial) _ _
  refine hall.of_invariant (I := Steady) (fun a i h _ => next_steady h i) ?_
    (load_steady address stored)
  intro a i h _
  refine ⟨h.hidden, h.login, h.verify, ?_⟩
  rintro n answer c rfl hn p hp
  exact (answered_steady h hn).2 p hp

/-- A link is asked for and sent: the form is empty again, and in the mode for invites. -/
example : (run step (load (.login none) .initial) [.edit (.switchMode .magic),
    .edit (.email "bob@mail"), .submit, .answered 0 (.ok none)]).screen =
      .login (.initial none) := by
  decide

end App

end Client

end VoxLink
