import VoxLink.Backend.Auth
import VoxLink.ProofKit.Courses

/-! Time that passes between the turns of a request. -/

namespace VoxLink

open ProofKit Prog

/-- The server at a point of time. -/
structure Clocked where
  now : Date
  server : Server
deriving DecidableEq

def Clocked.pass (ms : Nat) (c : Clocked) : Clocked := { c with now := c.now + ms }

def Clocked.del (key : String) (c : Clocked) : Clocked :=
  { c with server := { c.server with redis := c.server.redis.del key } }

/-- Stores a value under a key for `ttl` seconds. -/
def Clocked.put (key : String) (v : RedisValue) (ttl : Int) (c : Clocked) : Clocked :=
  { c with server := { c.server with
      redis := c.server.redis.put key v (some (c.now + 1000 * ttl.toNat)) } }

def Env.at (env : Env) (now : Date) : Env := { env with now }

/-- A program that finds the time on the clock. -/
def clocked {α : Type} (m : Date → Backend α) : Prog Exception Clocked α := fun c =>
  within Clocked.server (fun server c => { c with server }) (m c.now) c

variable {α β : Type} {c : Clocked}

theorem wp_clocked {m : Date → Backend α} {Q : α → Clocked → Prop}
    {E : Exception → Clocked → Prop} :
    wp (clocked m) Q E c ↔ wp (m c.now) (fun a server => Q a { c with server })
      (fun e server => E e { c with server }) c.server :=
  wp_within

theorem clocked_bind {m : Date → Backend α} {f : Date → α → Backend β} :
    clocked (fun now => m now >>= f now) = clocked m >>= fun a => clocked (f · a) := by
  funext c
  cases hm : m c.now c.server with
  | ok a s =>
    have hc : clocked m c = .ok a { c with server := s } := within_at hm
    rw [bind_at hc]
    simp only [clocked, within, bind_at hm]
  | error e s =>
    have hc : clocked m c = .error e { c with server := s } := within_error_at hm
    rw [bind_error_at hc]
    simp only [clocked, within, bind_error_at hm]

/-- A request that goes on from one `await` to the next while the clock stands still. -/
theorem clocked_rest {P : Type} {turn : Date → P → Backend (P ⊕ α)} {rest : Date → P → Backend α}
    (h : ∀ now p, rest now p = turn now p >>= fun x => Sum.elim (rest now) pure x) (p : P) :
    clocked (rest · p) =
      clocked (turn · p) >>= fun x => Sum.elim (fun p => clocked (rest · p)) pure x := by
  have hnext : ∀ x, Sum.elim (fun p => clocked (rest · p)) pure x =
      clocked fun now => Sum.elim (rest now) pure x := by
    intro x
    cases x <;> rfl
  simp only [hnext, ← clocked_bind, ← h]

end VoxLink
