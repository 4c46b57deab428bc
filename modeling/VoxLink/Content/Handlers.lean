import VoxLink.Accounts.Effects
import VoxLink.Backend.Gateway
import VoxLink.Content.Effects

/-! What the handlers of the gateway do to the database: they write the tables of users and messages
and no other. -/

namespace VoxLink

open ProofKit Prog

/-- The databases of two states are related. -/
def OnDb (R : Database → Database → Prop) (g g' : Gateway) : Prop := R g.server.db g'.server.db

variable {env : Env} {client : String} {R : Database → Database → Prop} [IsPreorder Database R]

instance : IsPreorder Gateway (OnDb R) where
  refl g := refl_of R g.server.db
  trans _ _ _ h h' := trans_of R h h'

omit [IsPreorder Database R] in
theorem keeps_onDb {α : Type} {m : Service α} (h : Keeps R m) :
    Keeps (OnDb R) (onServer (onDb m)) := by
  have hserver : Keeps (fun s s' => R s.db s'.db) (onDb m) := .within (fun _ _ h => h) h
  exact .within (fun _ _ h => h) hserver

/-- A program over Redis. -/
theorem keeps_onServer {α : Type} {m : Backend α} (h : Keeps (fun s s' => s'.db = s.db) m) :
    Keeps (OnDb R) (onServer m) := by
  refine Keeps.within ?_ h
  intro g s hs
  rw [OnDb, hs]
  exact refl_of R _

/-- A write to the sockets and emissions. -/
theorem keeps_sockets {w : Gateway → Gateway} (h : ∀ g, (w g).server = g.server) :
    Keeps (OnDb R) (write w : Handler Unit) := by
  refine .write fun g => ?_
  rw [OnDb, h]
  exact refl_of R _

instance : IsPreorder Server (fun s s' => s'.db = s.db) where
  refl _ := rfl
  trans _ _ _ h h' := h'.trans h

theorem keeps_attempt (site : Nat) (command : Redis → Option Redis) :
    Keeps (fun s s' => s'.db = s.db) (WebsocketService.attempt env site command) := by
  refine .bind (.query _) fun result => ?_
  cases result with
  | some redis => exact .bind (.write fun _ => rfl) fun _ => .pure _
  | none => exact .pure _

theorem keeps_removeFrom (userId : String) (site : Nat) (keys : List String) :
    Keeps (fun s s' => s'.db = s.db) (WebsocketService.removeFrom env userId site keys) := by
  induction keys generalizing site with
  | nil => exact .pure _
  | cons key keys ih =>
    refine .bind (keeps_attempt _ _) fun worked => ?_
    cases worked with
    | true => exact ih (site + 1)
    | false => exact .pure _

theorem keeps_asUser {k : Profile → Handler Unit} (hk : ∀ user, Keeps (OnDb R) (k user)) :
    Keeps (OnDb R) (WebsocketGateway.asUser client k) := by
  refine .bind (.query _) fun user => ?_
  cases user with
  | some user => exact hk user
  | none => exact .pure _

theorem keeps_profile (id : Uuid) : Keeps R (UsersService.profile id) :=
  .bind (.query _) fun _ => .orThrow _ _

theorem keeps_updateStatus (husers : ∀ db us, R db { db with users := us }) (id : Uuid)
    (status : String) : Keeps R (UsersService.updateStatus env id status) :=
  .bind (.write fun _ => husers _ _) fun _ => keeps_profile id

theorem keeps_authenticate (token : Option Jwt) :
    Keeps (fun s s' => s'.db = s.db) (AuthService.authenticate env token) := by
  intro s
  refine authenticate_wp.mono ?_ ?_
  · rintro _ _ ⟨rfl, -⟩
    rfl
  · rintro _ _ rfl
    rfl

/-- A handler keeps every relation of databases that does not look at users and, if it sends a
message, at messages. -/
theorem keeps_handleEvent (husers : ∀ db us, R db { db with users := us }) {e : SocketEvent}
    (hmessages : ∀ data, e = .sendMessage data →
      ∀ db m, R db { db with messages := db.messages ++ [m] }) :
    Keeps (OnDb R) (WebsocketGateway.handleEvent env client e) := by
  have emit : ∀ p e, Keeps (OnDb R) (emitTo p e) := fun _ _ => keeps_sockets fun _ => rfl
  have status : ∀ id status,
      Keeps (OnDb R) (onServer (onDb (UsersService.updateStatus env id status))) :=
    fun id status => keeps_onDb (keeps_updateStatus husers id status)
  cases e with
  | connection handshake =>
    refine .bind (keeps_sockets fun _ => rfl) fun _ =>
      .recover ?_ fun _ => keeps_sockets fun _ => rfl
    refine .bind (keeps_onServer (keeps_authenticate _)) fun user => ?_
    refine .bind (keeps_sockets fun _ => rfl) fun _ => .bind (status _ _) fun _ => ?_
    exact .bind (keeps_sockets fun _ => rfl) fun _ => emit _ _
  | disconnection =>
    refine .bind (.query _) fun user => .bind (keeps_sockets fun _ => rfl) fun _ => ?_
    cases user with
    | some user =>
      refine .bind (status _ _) fun _ => .bind (emit _ _) fun _ => keeps_onServer ?_
      exact .bind (.query _) fun _ => keeps_removeFrom _ _ _
    | none => exact .pure _
  | joinChannel c =>
    refine keeps_asUser fun user => .recover ?_ fun _ => emit _ _
    refine .bind (keeps_onDb (keeps_channels_findOneOf _)) fun _ => ?_
    refine .bind (keeps_sockets fun _ => rfl) fun _ => .bind (keeps_onServer ?_) fun _ => ?_
    · exact .bind (keeps_attempt _ _) fun _ => .pure _
    refine .bind (keeps_onServer (.query _)) fun _ => ?_
    refine .bind (keeps_onDb (keeps_messages_findAllOf _ _ _)) fun _ => ?_
    exact .bind (emit _ _) fun _ => emit _ _
  | leaveChannel c =>
    refine keeps_asUser fun user => .bind (keeps_sockets fun _ => rfl) fun _ => ?_
    refine .bind (keeps_onServer ?_) fun _ => emit _ _
    exact .bind (keeps_attempt _ _) fun _ => .pure _
  | sendMessage data =>
    refine keeps_asUser fun user => .recover ?_ fun _ => emit _ _
    exact .bind (keeps_onDb (keeps_messages_create (hmessages data rfl) _ _)) fun _ => emit _ _
  | guildJoin g => exact keeps_asUser fun _ => keeps_sockets fun _ => rfl
  | guildLeave g => exact keeps_asUser fun _ => keeps_sockets fun _ => rfl
  | _ => exact keeps_asUser fun _ => emit _ _

end VoxLink
