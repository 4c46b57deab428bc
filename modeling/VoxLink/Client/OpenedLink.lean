import Mathlib.Data.List.ReduceOption
import VoxLink.Accounts.Storage
import VoxLink.Client.App

/-! A magic link that is opened in the app: the app and the server together. While `VerifyPage`
verifies the link the spinner stands in its place, and the answer mounts it anew, so that it
verifies the link again. -/

namespace VoxLink

open ProofKit Prog AuthService

/-- The status and the message that answer a request which throws. -/
def Exception.response : Exception → Nat × String
  | .badRequest message => (400, message)
  | .unauthorized message => (401, message)
  | .forbidden message => (403, message)
  | .notFound message => (404, message)
  | .conflict message => (409, message)
  | .serviceUnavailable message => (503, message)
  | .queryFailed _ | .propertyNotFound _ | .syntaxError => (500, "Internal server error")

namespace Client

/-- What a callback of `useAuth` gets of an answer. -/
def answerOf : Except Exception Body → Answer
  | .ok (.session s) => .ok (some s)
  | .ok _ => .ok none
  | .error e => .failed (some e.response.1) e.response.2

structure Visit where
  app : App
  server : Server

/-- What happens while the user waits: a call is answered, or fails on its way to the server or back
from it, a timer fires, or somebody else makes a request. -/
inductive Waiting where
  | served (n : Nat) (env : Env)
  | lost (n : Nat) (reached : Option Env) (message : String)
  | elapsed
  | request (i : Env × Request)

/-- What the answers of a visit depend on: Redis answers when a call is served, and nobody else is
sent a link with the same token. -/
def Waiting.Ordinary (token : String) : Waiting → Prop
  | .served _ env => ∀ site, env.redisFails site = false
  | .request i => (i.1.uuids 0).toText ≠ token
  | .lost _ _ _ | .elapsed => True

def Waiting.isLost : Waiting → Bool
  | .lost _ _ _ => true
  | .served _ _ | .elapsed | .request _ => false

namespace Visit

variable {X : Externals}

/-- The output is the answer that a call gets. -/
def step (X : Externals) (v : Visit) : Waiting → Option Answer × Visit
  | .served n env =>
    match v.app.calls[n]? with
    | none => (none, v)
    | some c =>
      let result := serve X v.server (env, c.request)
      (some (answerOf result.1), ⟨v.app.next (.answered n (answerOf result.1)), result.2⟩)
  | .lost n reached message =>
    let server :=
      match v.app.calls[n]?, reached with
      | some c, some env => (serve X v.server (env, c.request)).2
      | _, _ => v.server
    (none, ⟨v.app.next (.answered n (.failed none message)), server⟩)
  | .elapsed => (none, { v with app := v.app.next .elapsed })
  | .request i => (none, { v with server := (serve X v.server i).2 })

/-! ### What the server answers -/

/-- Nothing is stored under the key of the link, live or not. -/
def Spent (token : String) (r : Redis) : Prop := r.slots (magicKey token) = []

/-- What is spent stays spent. -/
def StaysSpent (token : String) (r r' : Redis) : Prop := Spent token r → Spent token r'

instance {token : String} : IsPreorder Redis (StaysSpent token) where
  refl _ := id
  trans _ _ _ h h' := h' ∘ h

variable {token : String} {env : Env} {s : Server} {v : Visit} {a : App}

theorem spent_del (token : String) (r : Redis) : Spent token (r.del (magicKey token)) := by
  rw [Spent, Keyspace.slots, Keyspace.del, List.filter_filter]
  exact List.filter_eq_nil_iff.mpr fun e _ => by simp

theorem staysSpent_del (token token' : String) (r : Redis) :
    StaysSpent token r (r.del (magicKey token')) := by
  intro h
  rw [Spent, Keyspace.slots, Keyspace.del, List.filter_comm]
  rw [Spent, Keyspace.slots] at h
  rw [h]
  rfl

theorem Spent.get {r : Redis} (h : Spent token r) (now : Date) :
    r.get now (magicKey token) = none := by
  rw [Keyspace.get, Option.map_eq_none_iff, Keyspace.entry, Option.map_eq_none_iff,
    List.find?_eq_none]
  intro e he hlive
  have hkey : e.1 = magicKey token := (of_decide_eq_true hlive).1
  exact List.filter_eq_nil_iff.mp h e he (decide_eq_true hkey)

/-- The request of somebody else makes no link with the token. -/
theorem handle_staysSpent {req : Request} (hother : (env.uuids 0).toText ≠ token) :
    Keeps (OnRedis (StaysSpent token)) (handle X env req) := by
  apply onRedis_handle_own
  · intro token' _ r w deadline h
    rw [Spent, Keyspace.slots_put_of_ne]
    · exact h
    · intro heq
      have hchars := congrArg String.toList heq
      simp [inviteKey, magicKey] at hchars
  · intro r w deadline h
    rw [Spent, Keyspace.slots_put_of_ne]
    · exact h
    · intro heq
      exact hother ((String.append_right_inj "magic:").mp heq).symm
  · exact fun r token' => staysSpent_del token token' r

theorem verify_staysSpent {token' : String} :
    Keeps (OnRedis (StaysSpent token)) (verifyMagicLink X env token') := by
  refine .bind onRedis_redisGet fun _ => .bind (.orThrow _ _) fun _ => ?_
  split_ifs
  · exact onRedis_signInByEmail
  · exact .bind (.write fun s => staysSpent_del token token' s.redis) fun _ =>
      onRedis_signInByEmail

theorem signInByEmail_staysSpent {email : String} (h : Spent token s.redis) :
    wp (signInByEmail X env email) (fun _ s' => Spent token s'.redis)
      (fun _ s' => Spent token s'.redis) s :=
  (onRedis_signInByEmail (R := StaysSpent token) s).mono (fun _ _ hs => hs h) fun _ _ hs => hs h

/-- When Redis answers, a link is spent after its verification, unless the answer is a 401. -/
theorem verify_spends (hredis : ∀ site, env.redisFails site = false) :
    wp (verifyMagicLink X env token) (fun _ s' => Spent token s'.redis)
      (fun e s' => e.response.1 = 401 ∨ Spent token s'.redis) s := by
  simp only [verifyMagicLink, redisGet, hredis, wp_bind, wp_throwIf, wp_query, wp_orThrow,
    Bool.false_eq_true, if_false, wp_write]
  refine ⟨fun _ => ⟨fun email _ => ?_, fun _ => .inl rfl⟩, False.elim⟩
  have hspent : Spent token (s.redis.del (magicKey token)) := spent_del token s.redis
  exact (signInByEmail_staysSpent hspent).mono (fun _ _ h => h) fun _ _ h => Or.inr h

/-- When Redis answers, the verification of a spent link is refused. -/
theorem verify_refused (hredis : ∀ site, env.redisFails site = false) (h : Spent token s.redis) :
    wp (verifyMagicLink X env token) (fun _ _ => False) (fun e _ => e.response.1 = 401) s := by
  simp only [verifyMagicLink, redisGet, hredis, wp_bind, wp_throwIf, wp_query, wp_orThrow,
    h.get, magicEmail]
  simp [Exception.response]

theorem serve_verify {req : Request} (hroute : req.route = .auth (.verifyMagicLink token)) :
    serve X s (env, req) = (((verifyMagicLink X env token).outcome s).map Body.session,
      (verifyMagicLink X env token).final s) := by
  have hhandle : handle X env req = Body.session <$> verifyMagicLink X env token := by
    rw [handle, hroute]
    rfl
  rw [serve, hhandle, outcome_map, final_map]

/-! ### The app on the page of a link -/

/-- The app verifies the link. -/
structure Verifies (token : String) (signedIn : Bool) (a : App) : Prop where
  calls : ∃ c, a.calls = [c] ∧ c.call = .verifyMagicLink token ∧
    c.request.route = .auth c.call.route
  loading : a.auth.isLoading = true
  authenticated : a.auth.isAuthenticated = signedIn
  screen : a.screen = .spinner
  address : a.address = .verify (some token) ∨ signedIn = true ∧ a.address = .home
  timers : signedIn = false → a.timers = 0

/-- The app shows the home page. -/
structure AtHome (a : App) : Prop where
  calls : a.calls = []
  loading : a.auth.isLoading = false
  authenticated : a.auth.isAuthenticated = true
  screen : a.screen = .home
  address : a.address = .home

/-- The app shows an empty form, and nobody is signed in. -/
structure LoggedOut (a : App) : Prop where
  calls : a.calls = []
  authenticated : a.auth.isAuthenticated = false
  screen : a.screen = .login (.initial none)
  timers : a.timers = 0

/-- A page of the link that is rendered verifies it. -/
theorem render_verifies {signedIn : Bool} (htoken : token ≠ "") (hcalls : a.calls = [])
    (hloading : a.auth.isLoading = false) (hauth : a.auth.isAuthenticated = signedIn)
    (hscreen : a.screen = .spinner) (haddress : a.address = .verify (some token))
    (htimers : signedIn = false → a.timers = 0) : Verifies token signedIn a.render := by
  have hfilter : (some token).filter (· ≠ "") = some token := by simp [htoken]
  have hrender : a.render = a.mountVerify (some token) := by
    simp only [App.render, hloading, haddress, hscreen, AuthState.redirect]
    rw [if_neg Bool.false_ne_true, ← haddress, ← hscreen]
  rw [hrender, App.mountVerify, hfilter]
  exact ⟨⟨_, congrArg (· ++ _) hcalls, rfl, rfl⟩, rfl, hauth, rfl, .inl haddress, htimers⟩

theorem render_home (hcalls : a.calls = []) (hloading : a.auth.isLoading = false)
    (hauth : a.auth.isAuthenticated = true) (haddress : a.address = .home) : AtHome a.render := by
  have hrender : a.render = { a with screen := .home } := by
    simp [App.render, hloading, haddress, AuthState.redirect, hauth]
  rw [hrender]
  exact ⟨hcalls, hloading, hauth, rfl, haddress⟩

theorem expel_loggedOut : LoggedOut a.expel := by
  have hload : a.expel =
      ⟨a.auth.logout.rehydrated, .login none, .login (.initial none), 1, [], 0⟩ := by
    simp [App.expel, App.load, App.render, AuthState.redirect, AuthState.logout,
      AuthState.rehydrated, App.mountLogin]
  rw [hload]
  exact ⟨rfl, rfl, rfl, rfl⟩

variable {signedIn : Bool}

/-- An answer that is no 401 mounts the page anew, which verifies the link again. A navigation that
was delayed has left it for the home page. -/
theorem ended_verifies {now : Bool} (htoken : token ≠ "") (h : Verifies token signedIn a)
    (auth : AuthState) (hauth : auth.isAuthenticated = now)
    (hstays : signedIn = true → now = true) :
    let b := App.ended { a with calls := a.calls.eraseIdx 0, auth }
    Verifies token now b ∨ signedIn = true ∧ AtHome b := by
  obtain ⟨c, hcalls, -, -⟩ := h.calls
  have hnone : a.calls.eraseIdx 0 = [] := by rw [hcalls]; rfl
  rcases h.address with haddress | ⟨hin, haddress⟩
  · left
    refine render_verifies htoken hnone rfl hauth h.screen haddress fun hout => h.timers ?_
    exact Bool.eq_false_iff.mpr fun hin => by simp [hstays hin] at hout
  · right
    exact ⟨hin, render_home hnone rfl (hauth.trans (hstays hin)) haddress⟩

/-- The page that made the call is gone when its answer comes. -/
theorem onVerify_gone {b : App} {c : AwaitedCall} (f : VerifyPage → VerifyPage)
    (h : Verifies token signedIn b ∨ AtHome b) : b.onVerify c f = b := by
  rw [App.onVerify]
  split
  · rename_i page hpage
    rcases h with h | h
    · cases hpage.symm.trans h.screen
    · cases hpage.symm.trans h.screen
  · rfl

theorem answered_ok (htoken : token ≠ "") (h : Verifies token false a) (s : Session) :
    Verifies token true (a.answered 0 (.ok (some s))) := by
  obtain ⟨c, hcalls, hcall, -⟩ := h.calls
  have hget : a.calls[0]? = some c := by rw [hcalls]; rfl
  have hauth : ∀ b : App, b.signedIn c (some s) = b.auth.login s.user s.accessToken := by
    intro b
    simp [App.signedIn, hcall]
  have hended := ended_verifies htoken h (a.auth.login s.user s.accessToken) rfl fun _ => rfl
  simp only [App.answered, hget, hauth, App.succeed, hcall]
  generalize App.ended _ = b at hended ⊢
  have hin : Verifies token true b := hended.resolve_right (by simp)
  have hdelayed : Verifies token true { b with timers := b.timers + 1 } :=
    ⟨hin.calls, hin.loading, hin.authenticated, hin.screen, hin.address, by simp⟩
  rwa [onVerify_gone _ (.inl hdelayed)]

theorem answered_failed (htoken : token ≠ "") (h : Verifies token signedIn a) {status : Option Nat}
    (hstatus : status ≠ some 401) (message : String) :
    Verifies token signedIn (a.answered 0 (.failed status message)) ∨
      signedIn = true ∧ AtHome (a.answered 0 (.failed status message)) := by
  obtain ⟨c, hcalls, hcall, -⟩ := h.calls
  have hget : a.calls[0]? = some c := by rw [hcalls]; rfl
  have hended := ended_verifies htoken h { a.auth with error := some message }
    h.authenticated id
  simp only [App.answered, hget, if_neg hstatus, App.fail, hcall]
  generalize App.ended _ = b at hended ⊢
  rwa [onVerify_gone _ (hended.imp_right And.right)]

theorem answered_unauthorized (h : Verifies token signedIn a) (message : String) :
    LoggedOut (a.answered 0 (.failed (some 401) message)) := by
  obtain ⟨c, hcalls, -, -⟩ := h.calls
  have hget : a.calls[0]? = some c := by rw [hcalls]; rfl
  simp only [App.answered, hget, if_true]
  exact expel_loggedOut

/-! ### Stages of the visit -/

/-- How far a visit is, with the answers so far. While the user is signed in the link is verified
again, unless that call fails on its way after the navigation to the home page. -/
inductive Stage (token : String) (lossy : Prop) (v : Visit) : List Answer → Prop
  | opened (hopen : Verifies token false v.app) : Stage token lossy v []
  | refused (status : Nat) (message : String) (hstatus : status ≠ 401)
    (hspent : Spent token v.server.redis) (hopen : Verifies token false v.app) :
    Stage token lossy v [.failed (some status) message]
  | signedIn (s : Session) (hspent : Spent token v.server.redis)
    (hin : Verifies token true v.app ∨ lossy ∧ AtHome v.app) : Stage token lossy v [.ok (some s)]
  | signedOut (past : List Answer) (message : String) (hout : LoggedOut v.app) :
    Stage token lossy v (past ++ [.failed (some 401) message])

variable {lossy : Prop} {past : List Answer}

theorem elapsed_verifies (h : Verifies token signedIn a) :
    Verifies token signedIn (a.next .elapsed) := by
  simp only [App.next]
  split
  · exact h
  · rename_i htimers
    have hin : signedIn = true := by
      by_contra hout
      exact htimers (h.timers (Bool.eq_false_iff.mpr hout))
    rw [App.render, if_pos h.loading]
    refine ⟨h.calls, h.loading, h.authenticated, rfl, .inr ⟨hin, rfl⟩, fun hout => ?_⟩
    simp [hin] at hout

theorem elapsed_home (h : AtHome a) : AtHome (a.next .elapsed) := by
  simp only [App.next]
  split
  · exact h
  · exact render_home h.calls h.loading h.authenticated rfl

theorem elapsed_loggedOut (h : LoggedOut a) : a.next .elapsed = a := if_pos h.timers

theorem answered_idle {n : Nat} {answer : Answer} (h : a.calls[n]? = none) :
    a.next (.answered n answer) = a := by
  simp only [App.next, App.answered, h]

/-- The call in flight, or none at that place. -/
theorem Verifies.call (h : Verifies token signedIn a) (n : Nat) :
    a.calls[n]? = none ∨ n = 0 ∧
      ∃ c, a.calls[n]? = some c ∧ c.request.route = .auth (.verifyMagicLink token) := by
  obtain ⟨c, hcalls, hcall, hroute⟩ := h.calls
  rw [hcall] at hroute
  cases n with
  | zero => exact .inr ⟨rfl, c, by rw [hcalls]; rfl, hroute⟩
  | succ n => exact .inl (by rw [hcalls]; rfl)

/-- An answer when the link is not spent yet. -/
theorem served_opened (htoken : token ≠ "") (hredis : ∀ site, env.redisFails site = false)
    (h : Verifies token false v.app) (n : Nat) :
    Stage token lossy (step X v (.served n env)).2 (step X v (.served n env)).1.toList := by
  rcases h.call n with hnone | ⟨rfl, c, hcall, hroute⟩
  · simp only [step, hnone]
    exact .opened h
  · have hwp : wp (verifyMagicLink X env token) (fun _ s' => Spent token s'.redis)
        (fun e s' => e.response.1 = 401 ∨ Spent token s'.redis) v.server := verify_spends hredis
    simp only [step, hcall, serve_verify hroute]
    cases hout : (verifyMagicLink X env token).outcome v.server with
    | ok s => exact .signedIn s (hwp.of_returned hout) (.inl (answered_ok htoken h s))
    | error e =>
      simp only [Except.map, answerOf, Option.toList]
      by_cases hstatus : e.response.1 = 401
      · rw [hstatus]
        exact .signedOut [] e.response.2 (answered_unauthorized h e.response.2)
      · have hother : some e.response.1 ≠ some 401 := by simpa using hstatus
        have hafter := answered_failed htoken h hother e.response.2
        exact .refused _ _ hstatus ((hwp.of_thrown hout).resolve_left hstatus)
          (hafter.resolve_right (by simp))

/-- A verification of a spent link signs the user out. -/
theorem served_spent (hredis : ∀ site, env.redisFails site = false)
    (hspent : Spent token v.server.redis) (h : Verifies token signedIn v.app) (n : Nat) :
    step X v (.served n env) = (none, v) ∨
      ∃ message, (step X v (.served n env)).1 = some (.failed (some 401) message) ∧
        LoggedOut (step X v (.served n env)).2.app := by
  rcases h.call n with hnone | ⟨rfl, c, hcall, hroute⟩
  · left
    simp only [step, hnone]
  · right
    have hwp : wp (verifyMagicLink X env token) (fun _ _ => False) (fun e _ => e.response.1 = 401)
        v.server := verify_refused hredis hspent
    obtain ⟨e, hout, hstatus⟩ := hwp.throws
    refine ⟨e.response.2, ?_⟩
    simp only [step, hcall, serve_verify hroute, hout, Except.map, answerOf, hstatus, true_and]
    exact answered_unauthorized h e.response.2

/-- Nothing is in flight. -/
theorem served_idle (h : v.app.calls = []) (n : Nat) : step X v (.served n env) = (none, v) := by
  simp only [step, h, List.getElem?_nil]

/-- A verification that fails on its way is made again, or has left for the home page. -/
theorem lost_verifies (htoken : token ≠ "") (h : Verifies token signedIn v.app) (n : Nat)
    (reached : Option Env) (message : String) :
    let v' := (step X v (.lost n reached message)).2
    (Verifies token signedIn v'.app ∨ signedIn = true ∧ AtHome v'.app) ∧
      StaysSpent token v.server.redis v'.server.redis := by
  rcases h.call n with hnone | ⟨rfl, c, hcall, hroute⟩
  · simp only [step, hnone, answered_idle hnone]
    exact ⟨.inl h, id⟩
  · refine ⟨answered_failed htoken h (by simp) message, ?_⟩
    cases reached with
    | none =>
      simp only [step, hcall]
      exact id
    | some env =>
      simp only [step, hcall, serve_verify hroute]
      exact (verify_staysSpent v.server).final

theorem lost_idle (h : v.app.calls = []) (n : Nat) (reached : Option Env) (message : String) :
    (step X v (.lost n reached message)).2 = v := by
  have hnone : v.app.calls[n]? = none := by rw [h]; rfl
  simp only [step, hnone, answered_idle hnone]

theorem step_stage {i : Waiting} (htoken : token ≠ "") (h : Stage token lossy v past)
    (hi : i.Ordinary token) (hloss : i.isLost = true → lossy) :
    Stage token lossy (step X v i).2 (past ++ (step X v i).1.toList) := by
  cases i with
  | served n env =>
    cases h with
    | opened hopen => exact served_opened htoken hi hopen n
    | refused status message hstatus hspent hopen =>
      rcases served_spent (X := X) hi hspent hopen n with hsame | ⟨m, hanswer, hout⟩
      · rw [hsame]
        exact .refused status message hstatus hspent hopen
      · rw [hanswer]
        exact .signedOut [_] m hout
    | signedIn s hspent hin =>
      rcases hin with hverifies | ⟨hlossy, hhome⟩
      · rcases served_spent (X := X) hi hspent hverifies n with hsame | ⟨m, hanswer, hout⟩
        · rw [hsame]
          exact .signedIn s hspent (.inl hverifies)
        · rw [hanswer]
          exact .signedOut [_] m hout
      · rw [served_idle hhome.calls]
        exact .signedIn s hspent (.inr ⟨hlossy, hhome⟩)
    | signedOut past message hout =>
      rw [served_idle hout.calls, Option.toList, List.append_nil]
      exact .signedOut past message hout
  | lost n reached message =>
    rw [show (step X v (.lost n reached message)).1 = none from rfl, Option.toList, List.append_nil]
    cases h with
    | opened hopen =>
      have hafter := (lost_verifies (X := X) htoken hopen n reached message).1
      exact .opened (hafter.resolve_right (by simp))
    | refused status answered hstatus hspent hopen =>
      obtain ⟨hafter, hkeeps⟩ := lost_verifies (X := X) htoken hopen n reached message
      exact .refused status answered hstatus (hkeeps hspent) (hafter.resolve_right (by simp))
    | signedIn s hspent hin =>
      rcases hin with hverifies | hhome
      · obtain ⟨hafter, hkeeps⟩ := lost_verifies (X := X) htoken hverifies n reached message
        exact .signedIn s (hkeeps hspent) (hafter.imp_right fun h => ⟨hloss rfl, h.2⟩)
      · rw [lost_idle hhome.2.calls]
        exact .signedIn s hspent (.inr hhome)
    | signedOut past answered hout =>
      rw [lost_idle hout.calls]
      exact .signedOut past answered hout
  | elapsed =>
    rw [show (step X v .elapsed).1 = none from rfl, Option.toList, List.append_nil]
    cases h with
    | opened hopen => exact .opened (elapsed_verifies hopen)
    | refused status message hstatus hspent hopen =>
      exact .refused status message hstatus hspent (elapsed_verifies hopen)
    | signedIn s hspent hin =>
      exact .signedIn s hspent (hin.imp elapsed_verifies (And.imp_right elapsed_home))
    | signedOut past message hout =>
      refine .signedOut past message ?_
      rwa [step, elapsed_loggedOut hout]
  | request i =>
    rw [show (step X v (.request i)).1 = none from rfl, Option.toList, List.append_nil]
    have hkeeps : StaysSpent token v.server.redis (serve X v.server i).2.redis :=
      (handle_staysSpent hi v.server).final
    cases h with
    | opened hopen => exact .opened hopen
    | refused status message hstatus hspent hopen =>
      exact .refused status message hstatus (hkeeps hspent) hopen
    | signedIn s hspent hin => exact .signedIn s (hkeeps hspent) hin
    | signedOut past message hout => exact .signedOut past message hout

/-- The link is opened. -/
def opened (token : String) (stored : AuthState) (s : Server) : Visit :=
  ⟨.load (.verify (some token)) stored, s⟩

/-- The answers of the server on the way. -/
def answers (X : Externals) (v : Visit) (is : List Waiting) : List Answer :=
  (outputs (step X) v is).reduceOption

theorem opened_stage {stored : AuthState} (htoken : token ≠ "")
    (hstored : stored.isAuthenticated = false) : Stage token lossy (opened token stored s) [] :=
  .opened (render_verifies (a := ⟨stored.rehydrated, .verify (some token), .spinner, 0, [], 0⟩)
    htoken rfl rfl hstored rfl rfl fun _ => rfl)

theorem run_stage {is : List Waiting} (htoken : token ≠ "") (h : Stage token lossy v [])
    (his : ∀ i ∈ is, i.Ordinary token) (hloss : ∀ i ∈ is, i.isLost = true → lossy) :
    Stage token lossy (run (step X) v is) (answers X v is) := by
  have hall : Along (step X) (fun _ i => i.Ordinary token ∧ (i.isLost = true → lossy)) v is :=
    along_input_iff.mpr fun i hi => ⟨his i hi, hloss i hi⟩
  have hstep : ∀ v i past, Stage token lossy v (List.reduceOption past) →
      (i.Ordinary token ∧ (i.isLost = true → lossy)) →
        Stage token lossy (step X v i).2 (List.reduceOption (past ++ [(step X v i).1])) := by
    rintro v i past hpast ⟨hi, hlost⟩
    have hnext : Stage token lossy (step X v i).2
        (past.reduceOption ++ (step X v i).1.toList) := step_stage htoken hpast hi hlost
    rwa [← List.reduceOption_singleton, ← List.reduceOption_append] at hnext
  exact hall.history hstep (show Stage token lossy v (List.reduceOption []) from h)

/-- Who opens a magic link and waits is signed in just between the first answer, when it is a
session, and the second: the second verification of the link logs the user out. The home page is not
reached unless a call fails on its way. -/
theorem opened_link_signs_out (X : Externals) (token : String) (stored : AuthState) (s : Server)
    (is : List Waiting) (htoken : token ≠ "") (hstored : stored.isAuthenticated = false)
    (his : ∀ i ∈ is, i.Ordinary token) :
    let v := run (step X) (opened token stored s) is
    let heard := answers X (opened token stored s) is
    (v.app.auth.isAuthenticated = true ↔ ∃ session, heard = [.ok (some session)]) ∧
      (2 ≤ heard.length → LoggedOut v.app) ∧
      (v.app.screen = .home → ∃ i ∈ is, i.isLost = true) := by
  intro v heard
  have hstage : Stage token (∃ i ∈ is, i.isLost = true) v heard :=
    run_stage htoken (opened_stage htoken hstored) his fun i hi hlost => ⟨i, hi, hlost⟩
  generalize v = v', heard = heard' at hstage
  cases hstage with
  | opened hopen => simp [hopen.authenticated, hopen.screen]
  | refused status message hstatus hspent hopen => simp [hopen.authenticated, hopen.screen]
  | signedIn session hspent hin =>
    rcases hin with hin | ⟨hlossy, hin⟩
    · simp [hin.authenticated, hin.screen]
    · simp [hin.authenticated, hlossy]
  | signedOut past message hout =>
    refine ⟨?_, fun _ => hout, fun hscreen => ?_⟩
    · rw [hout.authenticated]
      simp [List.append_eq_singleton_iff]
    · rw [hout.screen] at hscreen
      cases hscreen

/-- A server that has sent Bob a magic link. -/
def sampleServer : Server := ⟨.empty, [(magicKey "token", ⟨.text "bob@mail", none⟩)], []⟩

theorem opened_link_twice : LoggedOut (run (step sampleExternals)
    (opened "token" .initial sampleServer)
    [.served 0 (sampleEnv 1), .elapsed, .served 0 (sampleEnv 2)]).app := by
  refine (opened_link_signs_out sampleExternals "token" .initial sampleServer _ (by decide) rfl
    ?_).2.1 (by decide)
  simp [Waiting.Ordinary, sampleEnv]

end Visit

end Client

end VoxLink
