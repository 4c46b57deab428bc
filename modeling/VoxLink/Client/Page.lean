import VoxLink.Client.Stores
import VoxLink.ProofKit.Pools

/-! The page: the stores for the account and the connection, the sockets of `WebSocketService`, and
the effects of the components that use `useAuth` and `useWebSocket`. -/

namespace VoxLink

open ProofKit

namespace Client

/-- The part of `useAuthStore` that the effects read. -/
structure AuthStore where
  token : Option String
  isAuthenticated : Bool
deriving DecidableEq, Repr

/-- `useWebSocketStore`. -/
structure WebSocketStore where
  isConnected : Bool
  isConnecting : Bool
  error : Option String
deriving DecidableEq, Repr

/-- A token that is neither missing nor empty. -/
def present (token : Option String) : Bool := token.any (· ≠ "")

/-- A socket from `io()`. Unless it is closed it connects, and reconnects, by itself. `id` names
the socket of the server at the other end. -/
inductive ClientSocket where
  | closed
  | trying
  | connected (id : String)
deriving DecidableEq, Repr

namespace ClientSocket

def isOpen : ClientSocket → Bool
  | .closed => false
  | _ => true

/-- Whether the socket receives what is emitted to the sockets `recipients` of the server. -/
def receives (recipients : List String) : ClientSocket → Bool
  | .connected id => id ∈ recipients
  | _ => false

end ClientSocket

/-- What a component sees in a render. -/
structure Rendered where
  auth : AuthStore
  isConnected : Bool
  isConnecting : Bool
deriving DecidableEq, Repr

inductive HookKind where
  | useAuth
  | useWebSocket
deriving DecidableEq, Repr

/-- The dependencies of the effect. The callbacks `connect` and `disconnect` of `useWebSocket` are
memoised on what they read. -/
def HookKind.dependencies (r : Rendered) : HookKind → Rendered
  | .useAuth => { r with isConnected := false, isConnecting := false }
  | .useWebSocket => r

/-- A mounted hook: what its last render saw, and the dependencies with which its effect ran
last. -/
structure Hook where
  kind : HookKind
  rendered : Rendered
  ran : Option Rendered
deriving DecidableEq, Repr

/-- Whether React runs the effect. -/
def Hook.due (h : Hook) : Bool := h.ran ≠ some (h.kind.dependencies h.rendered)

/-- `sockets` are all sockets that the service has created; it keeps a reference to `socket`. -/
structure Page where
  auth : AuthStore
  webSocket : WebSocketStore
  stores : Stores
  sockets : List ClientSocket
  socket : Option Nat
  hooks : List Hook

namespace Page

variable (p : Page)

def setConnected (isConnected : Bool) : Page :=
  { p with webSocket := { p.webSocket with isConnected } }

def setConnecting (isConnecting : Bool) : Page :=
  { p with webSocket := { p.webSocket with isConnecting } }

def setError (error : Option String) : Page := { p with webSocket := { p.webSocket with error } }

/-! ### `WebSocketService` -/

/-- `connect`. The listeners are set up with the socket. -/
def connect : Page :=
  if present p.auth.token then
    { p with sockets := p.sockets ++ [.trying], socket := some p.sockets.length }
  else p

def disconnect : Page :=
  let sockets := match p.socket with
    | some n => p.sockets.set n .closed
    | none => p.sockets
  { p with sockets, socket := none }.setConnected false

/-- The listeners of all sockets that receive an emission, in the order of their creation. -/
def deliver (e : Emission) : Page :=
  let receivers := p.sockets.filter (·.receives e.recipients)
  { p with stores := receivers.foldl (fun stores _ => listen e.event stores) p.stores }

/-! ### `useAuth` and `useWebSocket` -/

def rendered : Rendered := ⟨p.auth, p.webSocket.isConnected, p.webSocket.isConnecting⟩

/-- Whether a render saw a user who is signed in. -/
def signedIn (r : Rendered) : Bool := r.auth.isAuthenticated && present r.auth.token

/-- Whether `connect` of `useWebSocket` calls the service. -/
def connects (r : Rendered) : Bool := signedIn r && !r.isConnected && !r.isConnecting

def hookConnect (r : Rendered) : Page :=
  if connects r then ((p.setConnecting true).setError none).connect else p

def hookDisconnect : Page := (p.disconnect.setConnected false).setConnecting false

def runEffect (r : Rendered) : HookKind → Page
  | .useAuth => if signedIn r then p.connect else p.disconnect
  | .useWebSocket => if signedIn r then p.hookConnect r else p.hookDisconnect

end Page

/-- What happens on the page, in any order. -/
inductive PageInput where
  | login (token : String)
  | setToken (token : String)
  | logout
  | signOut
  -- components with a hook come, render, run its effect and go
  | mount (kind : HookKind)
  | render (k : Nat)
  | effect (k : Nat)
  | unmount (k : Nat)
  -- the callbacks of `useWebSocket`, as of a render
  | connect (r : Rendered)
  | disconnect
  -- the events of the `n`th socket: it is dropped and reconnects, or is ended by the server or by
  -- the last failed attempt
  | connected (n : Nat) (id : String)
  | connectError (n : Nat) (message : String)
  | dropped (n : Nat)
  | ended (n : Nat)
  | arrives (e : Emission)

namespace Page

def next (p : Page) : PageInput → Page
  | .login token => { p with auth := ⟨some token, true⟩ }
  | .setToken token => { p with auth := { p.auth with token := some token } }
  | .logout => { p with auth := ⟨none, false⟩ }
  | .signOut => { p with auth := ⟨none, false⟩ }.disconnect
  | .mount kind => { p with hooks := p.hooks ++ [⟨kind, p.rendered, none⟩] }
  | .render k => { p with hooks := p.hooks.modify k fun h => { h with rendered := p.rendered } }
  | .effect k =>
    match p.hooks[k]? with
    | some h =>
      if h.due then
        let ran := some (h.kind.dependencies h.rendered)
        { p.runEffect h.rendered h.kind with hooks := p.hooks.set k { h with ran } }
      else p
    | none => p
  | .unmount k => { p with hooks := p.hooks.eraseIdx k }
  | .connect r => p.hookConnect r
  | .disconnect => p.hookDisconnect
  | .connected n id =>
    if p.sockets[n]? = some .trying then
      { p with sockets := p.sockets.set n (.connected id) }.setConnected true
    else p
  | .connectError n message => if p.sockets[n]? = some .trying then p.setError (some message) else p
  | .dropped n =>
    match p.sockets[n]? with
    | some (.connected _) => { p with sockets := p.sockets.set n .trying }.setConnected false
    | _ => p
  | .ended n =>
    match p.sockets[n]? with
    | some (.connected _) => { p with sockets := p.sockets.set n .closed }.setConnected false
    | some .trying => { p with sockets := p.sockets.set n .closed }
    | _ => p
  | .arrives e => p.deliver e

def step (p : Page) (i : PageInput) : Unit × Page := ((), p.next i)

/-- How many sockets of the service are open. -/
def openSockets (p : Page) : Nat := p.sockets.countP ClientSocket.isOpen

/-- The effect of the `k`th hook, when it runs, with what the render saw. -/
def effectOf (p : Page) (k : Nat) : Option (HookKind × Rendered) :=
  (p.hooks[k]?.filter (·.due)).map fun h => (h.kind, h.rendered)

/-- Whether the input calls `connect` of the service while there is a token. -/
def opens (p : Page) (i : PageInput) : Bool :=
  present p.auth.token && match i with
    | .effect k =>
      match p.effectOf k with
      | some (.useAuth, r) => signedIn r
      | some (.useWebSocket, r) => connects r
      | none => false
    | .connect r => connects r
    | _ => false

/-- Whether the input calls `disconnect` of the service. -/
def closes (p : Page) : PageInput → Bool
  | .signOut | .disconnect => true
  | .effect k => (p.effectOf k).any fun e => !signedIn e.2
  | _ => false

/-! ### At most one socket -/

/-- After the input at most one socket is open, none if it disconnects, and a message that arrives
is added to the store at most once. -/
structure Single (p : Page) (i : PageInput) : Prop where
  atMostOne : (p.next i).openSockets ≤ 1
  noneLeft : p.closes i = true → (p.next i).openSockets = 0
  onceAdded : ∀ m recipients, i = .arrives ⟨.messageNew m, recipients⟩ →
    (p.next i).stores.messages = p.stores.messages ∨ (p.next i).stores.messages =
      MessageStore.addMessage m.channelId.text (.announced m) p.stores.messages

/-- The service refers to each socket that is open. -/
def Refers (p : Page) : Prop :=
  ∀ n s, p.sockets[n]? = some s → s.isOpen = true → p.socket = some n

variable {p : Page} {i : PageInput} {r : Rendered}

theorem disconnect_sockets (n : Nat) :
    p.disconnect.sockets[n]? =
      if p.socket = some n then p.sockets[n]?.map fun _ => .closed else p.sockets[n]? := by
  simp only [disconnect, setConnected]
  cases p.socket with
  | none => rfl
  | some m =>
    by_cases hm : m = n
    · subst hm
      rw [if_pos rfl, List.getElem?_set_self']
      cases p.sockets[m]? <;> rfl
    · rw [List.getElem?_set_ne hm, if_neg fun h => hm (Option.some.inj h)]

theorem Refers.disconnect_open (h : Refers p) : p.disconnect.openSockets = 0 := by
  apply List.countP_eq_zero.mpr
  intro s hs hopen
  obtain ⟨n, hn⟩ := List.mem_iff_getElem?.mp hs
  rw [disconnect_sockets] at hn
  split_ifs at hn with hsocket
  · obtain ⟨_, -, rfl⟩ := Option.map_eq_some_iff.mp hn
    exact nomatch hopen
  · exact hsocket (h n s hn hopen)

theorem Refers.openSockets_le (h : Refers p) : p.openSockets ≤ 1 := by
  have hclosed := h.disconnect_open
  rw [openSockets] at hclosed ⊢
  cases hsocket : p.socket with
  | none =>
    have hsame : p.disconnect.sockets = p.sockets := by
      simp only [disconnect, setConnected, hsocket]
    rw [hsame] at hclosed
    omega
  | some n =>
    have hset : p.disconnect.sockets = p.sockets.set n .closed := by
      simp only [disconnect, setConnected, hsocket]
    rw [hset] at hclosed
    cases hn : p.sockets[n]? with
    | none =>
      rw [List.set_eq_of_length_le (List.getElem?_eq_none_iff.mp hn)] at hclosed
      omega
    | some s =>
      have hcount := set_countP .closed ClientSocket.isOpen hn
      have hrest : (if s.isOpen = true then 1 else 0) ≤ 1 := by split_ifs <;> omega
      omega

/-- What an input does to the sockets, and whether it calls the service. -/
inductive Does (p : Page) (i : PageInput) (p' : Page) : Prop
  | opens (hopens : p.opens i = true) (hcloses : p.closes i = false)
      (hsockets : p'.sockets = p.sockets ++ [.trying])
      (hsocket : p'.socket = some p.sockets.length) : Does p i p'
  | closes (hopens : p.opens i = false) (hsockets : p'.sockets = p.disconnect.sockets)
      (hsocket : p'.socket = none) : Does p i p'
  | moves {n : Nat} {s : ClientSocket} (hopens : p.opens i = false) (hcloses : p.closes i = false)
      (hstays : ∀ s', p.sockets[n]? = some s' → s.isOpen = true → s'.isOpen = true)
      (hsockets : p'.sockets = p.sockets.set n s) (hsocket : p'.socket = p.socket) : Does p i p'
  | stays (hopens : p.opens i = false) (hcloses : p.closes i = false)
      (hsockets : p'.sockets = p.sockets) (hsocket : p'.socket = p.socket) : Does p i p'

/-- What an input does shows in the sockets and the reference alone. -/
theorem Does.congr {p' q : Page} (h : Does p i p') (hsockets : q.sockets = p'.sockets)
    (hsocket : q.socket = p'.socket) : Does p i q := by
  cases h with
  | opens hopens hcloses hs hr => exact .opens hopens hcloses (hsockets.trans hs) (hsocket.trans hr)
  | closes hopens hs hr => exact .closes hopens (hsockets.trans hs) (hsocket.trans hr)
  | moves hopens hcloses hstays hs hr =>
    exact .moves hopens hcloses hstays (hsockets.trans hs) (hsocket.trans hr)
  | stays hopens hcloses hs hr => exact .stays hopens hcloses (hsockets.trans hs) (hsocket.trans hr)

theorem connect_does {q : Page} (hopens : p.opens i = present p.auth.token)
    (hcloses : p.closes i = false) (hauth : q.auth = p.auth) (hsockets : q.sockets = p.sockets)
    (hsocket : q.socket = p.socket) : Does p i q.connect := by
  rw [← hauth] at hopens
  rw [connect]
  split_ifs with htoken
  · refine .opens (hopens.trans htoken) hcloses ?_ ?_
    · rw [hsockets]
    · rw [hsockets]
  · exact .stays (hopens.trans (Bool.eq_false_iff.mpr htoken)) hcloses hsockets hsocket

theorem hookConnect_does (hopens : p.opens i = (present p.auth.token && connects r))
    (hcloses : p.closes i = false) : Does p i (p.hookConnect r) := by
  rw [hookConnect]
  split_ifs with hr
  · rw [hr, Bool.and_true] at hopens
    exact connect_does hopens hcloses rfl rfl rfl
  · rw [Bool.eq_false_iff.mpr hr, Bool.and_false] at hopens
    exact .stays hopens hcloses rfl rfl

theorem runEffect_does {kind : HookKind} {k : Nat} (heffect : p.effectOf k = some (kind, r)) :
    Does p (.effect k) (p.runEffect r kind) := by
  cases hr : signedIn r with
  | true =>
    have hcloses : p.closes (.effect k) = false := by simp [closes, heffect, hr]
    cases kind with
    | useAuth =>
      rw [runEffect, if_pos hr]
      exact connect_does (by simp [opens, heffect, hr]) hcloses rfl rfl rfl
    | useWebSocket =>
      rw [runEffect, if_pos hr]
      exact hookConnect_does (by simp [opens, heffect]) hcloses
  | false =>
    have hconnects : connects r = false := by rw [connects, hr]; rfl
    cases kind with
    | useAuth =>
      rw [runEffect, if_neg (Bool.eq_false_iff.mp hr)]
      exact .closes (by simp [opens, heffect, hr]) rfl rfl
    | useWebSocket =>
      rw [runEffect, if_neg (Bool.eq_false_iff.mp hr)]
      exact .closes (by simp [opens, heffect, hconnects]) rfl rfl

theorem effect_does (k : Nat) : Does p (.effect k) (p.next (.effect k)) := by
  have hidle : p.effectOf k = none → Does p (.effect k) p := fun hnone =>
    .stays (by simp [opens, hnone]) (by simp [closes, hnone]) rfl rfl
  cases hk : p.hooks[k]? with
  | none =>
    have hnone : p.effectOf k = none := by simp [effectOf, hk]
    simpa only [next, hk] using hidle hnone
  | some h =>
    cases hdue : h.due with
    | false =>
      have hnone : p.effectOf k = none := by simp [effectOf, hk, hdue]
      simpa [next, hk, hdue] using hidle hnone
    | true =>
      have heffect : p.effectOf k = some (h.kind, h.rendered) := by simp [effectOf, hk, hdue]
      simp only [next, hk, hdue, if_true]
      exact (runEffect_does heffect).congr rfl rfl

theorem next_does (p : Page) (i : PageInput) : Does p i (p.next i) := by
  cases i with
  | signOut => exact .closes (Bool.and_false _) rfl rfl
  | effect k => exact effect_does k
  | connect r => exact hookConnect_does rfl rfl
  | disconnect => exact .closes (Bool.and_false _) rfl rfl
  | connected n id =>
    rw [next]
    split_ifs with hn
    · refine .moves (n := n) (s := .connected id) (Bool.and_false _) rfl ?_ rfl rfl
      intro s' hs' _
      rw [Option.some.inj (hs'.symm.trans hn)]
      rfl
    · exact .stays (Bool.and_false _) rfl rfl rfl
  | connectError n message =>
    rw [next]
    split_ifs
    · exact .stays (Bool.and_false _) rfl rfl rfl
    · exact .stays (Bool.and_false _) rfl rfl rfl
  | dropped n =>
    rw [next]
    split
    · rename_i id hn
      refine .moves (n := n) (s := .trying) (Bool.and_false _) rfl ?_ rfl rfl
      intro s' hs' _
      rw [Option.some.inj (hs'.symm.trans hn)]
      rfl
    · exact .stays (Bool.and_false _) rfl rfl rfl
  | ended n =>
    rw [next]
    split
    · exact .moves (n := n) (s := .closed) (Bool.and_false _) rfl nofun rfl rfl
    · exact .moves (n := n) (s := .closed) (Bool.and_false _) rfl nofun rfl rfl
    · exact .stays (Bool.and_false _) rfl rfl rfl
  | _ => exact .stays (Bool.and_false _) rfl rfl rfl

theorem Refers.next (h : Refers p) (hnone : p.opens i = true → p.openSockets = 0) :
    Refers (p.next i) := by
  intro n s hn hopen
  cases next_does p i with
  | opens hopens hcloses hsockets hsocket =>
    rw [hsockets] at hn
    rw [hsocket]
    rcases lt_trichotomy n p.sockets.length with hlt | rfl | hgt
    · rw [List.getElem?_append_left hlt] at hn
      have hclosed := List.countP_eq_zero.mp (hnone hopens) s (List.mem_of_getElem? hn)
      exact absurd hopen hclosed
    · rfl
    · rw [List.getElem?_append_right hgt.le, List.getElem?_eq_none] at hn
      · exact nomatch hn
      · rw [List.length_singleton]
        omega
  | closes hopens hsockets hsocket =>
    rw [hsockets] at hn
    have hclosed := List.countP_eq_zero.mp h.disconnect_open s (List.mem_of_getElem? hn)
    exact absurd hopen hclosed
  | @moves m s' hopens hcloses hstays hsockets hsocket =>
    rw [hsockets] at hn
    rw [hsocket]
    by_cases hm : m = n
    · subst hm
      rw [List.getElem?_set_self'] at hn
      obtain ⟨old, hold, rfl⟩ := Option.map_eq_some_iff.mp hn
      exact h m old hold (hstays old hold hopen)
    · rw [List.getElem?_set_ne hm] at hn
      exact h n s hn hopen
  | stays hopens hcloses hsockets hsocket =>
    rw [hsockets] at hn
    rw [hsocket]
    exact h n s hn hopen

/-- The sockets that receive something are open. -/
theorem receivers_le (recipients : List String) :
    (p.sockets.filter (·.receives recipients)).length ≤ p.openSockets := by
  rw [← List.countP_eq_length_filter]
  apply List.countP_mono_left
  intro s _ hreceives
  cases s with
  | connected id => rfl
  | _ => exact nomatch hreceives

theorem Refers.single (h : Refers p) (hnone : p.opens i = true → p.openSockets = 0) :
    Single p i := by
  refine ⟨(h.next hnone).openSockets_le, fun hcloses => ?_, ?_⟩
  · cases next_does p i with
    | opens hopens hnot => exact nomatch hnot.symm.trans hcloses
    | closes hopens hsockets hsocket =>
      rw [openSockets, hsockets]
      exact h.disconnect_open
    | moves hopens hnot => exact nomatch hnot.symm.trans hcloses
    | stays hopens hnot => exact nomatch hnot.symm.trans hcloses
  · rintro m recipients rfl
    have hle := (receivers_le (p := p) recipients).trans h.openSockets_le
    simp only [Page.next, deliver]
    cases hreceivers : p.sockets.filter (·.receives recipients) with
    | nil => exact .inl rfl
    | cons s rest =>
      rw [hreceivers, List.length_cons] at hle
      obtain rfl : rest = [] := List.length_eq_zero_iff.mp (by omega)
      exact .inr rfl

theorem single_iff (h : Refers p) : Single p i ↔ (p.opens i = true → p.openSockets = 0) := by
  refine ⟨fun hsingle hopens => ?_, h.single⟩
  have hle := hsingle.atMostOne
  cases next_does p i with
  | opens _ _ hsockets =>
    rw [openSockets, hsockets, List.countP_append] at hle
    have hnew : [ClientSocket.trying].countP ClientSocket.isOpen = 1 := rfl
    rw [openSockets]
    omega
  | closes hnot | moves hnot | stays hnot => exact nomatch hnot.symm.trans hopens

/-- At most one socket is open throughout a run, if and only if the service is asked to connect only
when none is. -/
theorem one_live_socket (p : Page) (is : List PageInput) (hsockets : p.sockets = []) :
    Along step Single p is ↔
      Along step (fun p i => p.opens i = true → p.openSockets = 0) p is := by
  have hstart : Refers p := by
    intro n s hn
    rw [hsockets] at hn
    exact nomatch hn
  apply (along_of_forall (fun _ _ => trivial) p is).congr_invariant (I := Refers) _ _ hstart
  · exact fun p i h _ => single_iff h
  · exact fun p i h _ hsingle => h.next ((single_iff h).mp hsingle)

/-- A page of a user who is signed in, before its components are there. -/
def signedInPage : Page :=
  ⟨⟨some "token", true⟩, ⟨false, false, none⟩, ⟨⟨[]⟩, fun _ => none⟩, [], none, []⟩

def helloMessage : NewMessage :=
  ⟨sampleUuid 9 0, .value "general", some "hello", none, none, alice.summary, 9000⟩

/-- One component connects and receives a message, and the user signs out. -/
def oneComponent : List PageInput :=
  [.mount .useAuth, .effect 0, .connected 0 "first", .arrives ⟨.messageNew helloMessage, ["first"]⟩,
    .signOut, .render 0, .effect 0]

theorem oneComponent_single : Along step Single signedInPage oneComponent :=
  (one_live_socket signedInPage oneComponent rfl).mpr (by decide)

/-- Another component comes while the socket of the first is connected, and both sockets have
joined the channel. -/
def twoComponents : List PageInput :=
  [.mount .useAuth, .effect 0, .connected 0 "first", .mount .useAuth, .effect 1,
    .connected 1 "second", .arrives ⟨.messageNew helloMessage, ["first", "second"]⟩]

theorem twoComponents_double :
    signedInPage.sockets = [] ∧
      (run step signedInPage twoComponents).openSockets = 2 ∧
      (run step signedInPage twoComponents).stores.messages "general" =
        some [.announced helloMessage, .announced helloMessage] ∧
      ¬Along step Single signedInPage twoComponents := by
  refine ⟨rfl, by decide, by decide, fun hsingle => ?_⟩
  have htwice := hsingle.2.2.2.2.1.atMostOne
  exact absurd htwice (by decide)

end Page

end Client

end VoxLink
