import VoxLink.ProofKit.Pools
import VoxLink.ProofKit.Programs

/-! Requests cut at their `await`s. Each turn of a request is a program that ends at the next
`await` or with the answer; a throw ends the request. -/

namespace ProofKit

/-- Where a request stands: at an `await`, with what it has loaded, or at its end. -/
inductive Course (P ε α : Type) where
  | awaits (p : P)
  | ended (o : Except ε α)
deriving DecidableEq, Repr

variable {R P ε σ α : Type}

namespace Course

/-- Where a turn leads that returns. -/
def next : P ⊕ α → Course P ε α
  | .inl p => .awaits p
  | .inr a => .ended (.ok a)

end Course

/-- A turn of a request. -/
def advance (turn : R → P → Prog ε σ (P ⊕ α)) (l : R × Course P ε α) (s : σ) :
    (R × Course P ε α) × σ :=
  match l.2 with
  | .awaits p =>
    match turn l.1 p s with
    | .ok x s' => ((l.1, .next x), s')
    | .error e s' => ((l.1, .ended (.error e)), s')
  | .ended _ => (l, s)

variable {turn : R → P → Prog ε σ (P ⊕ α)} {r : R} {p : P} {s s' : σ}

/-- What a turn leads to, by its postconditions. -/
theorem advance_of_wp {C : R × Course P ε α → σ → Prop}
    (h : wp (turn r p) (fun x s' => C (r, .next x) s') (fun e s' => C (r, .ended (.error e)) s')
      s) : C (advance turn (r, .awaits p) s).1 (advance turn (r, .awaits p) s).2 := by
  unfold wp at h
  unfold advance
  cases hturn : turn r p s with
  | ok x s' =>
    rw [hturn] at h
    simp only [hturn]
    exact h
  | error e s' =>
    rw [hturn] at h
    simp only [hturn]
    exact h

theorem advance_ok {x : P ⊕ α} (h : turn r p s = .ok x s') :
    advance turn (r, .awaits p) s = ((r, .next x), s') := by
  simp only [advance, h]

theorem advance_error {e : ε} (h : turn r p s = .error e s') :
    advance turn (r, .awaits p) s = ((r, .ended (.error e)), s') := by
  simp only [advance, h]

theorem advance_ended (o : Except ε α) : advance turn (r, .ended o) s = ((r, .ended o), s) := rfl

/-- A turn does not change the request. -/
theorem advance_request (l : R × Course P ε α) : (advance turn l s).1.1 = l.1 := by
  obtain ⟨r, course⟩ := l
  cases course with
  | ended o => rfl
  | awaits p =>
    cases hturn : turn r p s with
    | ok x s' => rw [advance_ok hturn]
    | error e s' => rw [advance_error hturn]

/-- Neither does a turn of one of several change any of them. -/
theorem turn_requests (q : Pool (R × Course P ε α) σ) (k : Nat) :
    (q.turn (advance turn) k).2.jobs.map (·.1) = q.jobs.map (·.1) := by
  cases hk : q.jobs[k]? with
  | none => rw [turn_none hk]
  | some l =>
    obtain ⟨hlt, rfl⟩ := List.getElem?_eq_some_iff.mp hk
    have hk' : k < (q.jobs.map (·.1)).length := by rwa [List.length_map]
    have hsame : (advance turn q.jobs[k] q.state).1.1 = (q.jobs.map (·.1))[k] := by
      rw [advance_request, List.getElem_map]
    rw [turn_some hk, List.map_set, hsame, List.set_getElem_self]

theorem turn_ended {q : Pool (R × Course P ε α) σ} {k : Nat} {o : Except ε α}
    (h : q.jobs[k]? = some (r, .ended o)) : (q.turn (advance turn) k).2 = q := by
  obtain ⟨hlt, hget⟩ := List.getElem?_eq_some_iff.mp h
  rw [turn_some h, advance_ended, ← hget, List.set_getElem_self]

/-- The turn of a request that has not ended. -/
theorem turn_awaits {q : Pool (R × Course P ε α) σ} {k : Nat}
    (h : q.jobs[k]? = some (r, .awaits p)) :
    (q.turn (advance turn) k).2 =
      ⟨q.jobs.set k (r, (advance turn (r, .awaits p) q.state).1.2),
        (advance turn (r, .awaits p) q.state).2⟩ := by
  have hrequest : (advance turn (r, .awaits p) q.state).1 =
      (r, (advance turn (r, .awaits p) q.state).1.2) := Prod.ext (advance_request _) rfl
  rw [turn_some h, ← hrequest]

/-- An invariant kept by what a turn can do, said once by `M`: requests that have ended do
nothing. -/
theorem turn_moves {M : R → σ → P → Course P ε α → σ → Prop}
    {I : Pool (R × Course P ε α) σ → Prop} {q : Pool (R × Course P ε α) σ} {k : Nat}
    (hmoves : ∀ r p, q.jobs[k]? = some (r, .awaits p) →
      M r q.state p (advance turn (r, .awaits p) q.state).1.2
        (advance turn (r, .awaits p) q.state).2)
    (hq : I q) (h : ∀ r p course s', q.jobs[k]? = some (r, .awaits p) →
      M r q.state p course s' → I ⟨q.jobs.set k (r, course), s'⟩) :
    I (q.turn (advance turn) k).2 := by
  apply turn_keeps _ hq
  rintro ⟨r, course⟩ hk
  cases course with
  | ended o =>
    rw [turn_ended hk]
    exact hq
  | awaits p =>
    rw [turn_awaits hk]
    exact h r p _ _ hk (hmoves r p hk)

theorem run_ended (o : Except ε α) (n : Nat) :
    run (Pool.turn (advance turn)) ⟨[(r, .ended o)], s⟩ (List.replicate n 0) =
      ⟨[(r, .ended o)], s⟩ := by
  induction n with
  | zero => rfl
  | succ n ih => exact ih

/-- Alone, a request does what the program does of which it has been cut. `left` bounds the turns
that are left. -/
theorem run_course {prog : P → Prog ε σ α} {left : P → Nat}
    (hprog : ∀ p, prog p = (turn r p >>= fun x => Sum.elim prog pure x))
    (hleft : ∀ p p' s s', turn r p s = .ok (.inl p') s' → left p' < left p) {n : Nat}
    (hn : left p < n) :
    run (Pool.turn (advance turn)) ⟨[(r, .awaits p)], s⟩ (List.replicate n 0) =
      ⟨[(r, .ended ((prog p).outcome s))], (prog p).final s⟩ := by
  induction n generalizing p s with
  | zero => omega
  | succ n ih =>
    show run (Pool.turn (advance turn)) ⟨[(advance turn (r, .awaits p) s).1],
      (advance turn (r, .awaits p) s).2⟩ (List.replicate n 0) = _
    cases hturn : turn r p s with
    | ok x s' =>
      have hrest : prog p s = Sum.elim prog pure x s' := by rw [hprog p, bind_at hturn]
      rw [advance_ok hturn]
      cases x with
      | inl p' =>
        have hp' : left p' < n := by
          have := hleft p p' s s' hturn
          omega
        rw [Prog.outcome, Prog.final, hrest]
        exact ih hp'
      | inr a =>
        rw [Prog.outcome, Prog.final, hrest]
        exact run_ended (.ok a) n
    | error e s' =>
      have hrest : prog p s = .error e s' := by rw [hprog p, bind_error_at hturn]
      rw [advance_error hturn, Prog.outcome, Prog.final, hrest]
      exact run_ended (.error e) n

end ProofKit
