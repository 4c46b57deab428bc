import VoxLink.ProofKit.Programs

/-! Sequences of writes of which one fails. Without a transaction around them the writes before the
failing one stay. -/

namespace ProofKit

open Prog

variable {ε σ α β : Type}

/-- The program, unless it is one that fails. -/
def unlessFailing (failure : Option ε) (m : Prog ε σ α) : Prog ε σ α :=
  match failure with
  | none => m
  | some e => throw e

/-- Of the numbered writes only `k` fails. -/
def failing (k : Nat) (e : ε) (site : Nat) : Option ε := if site = k then some e else none

theorem failing_self (k : Nat) (e : ε) : failing k e k = some e := if_pos rfl

theorem failing_of_ne {k site : Nat} (e : ε) (h : site ≠ k) : failing k e site = none := if_neg h

/-- Makes the writes one after the other, the first of them numbered `site`. -/
def storeAll (fails : Nat → Option ε) : Nat → List (σ → σ) → Prog ε σ Unit
  | _, [] => pure ()
  | site, w :: ws => do
    unlessFailing (fails site) (write w)
    storeAll fails (site + 1) ws

/-- The state after the writes. -/
def applyAll (ws : List (σ → σ)) (s : σ) : σ := ws.foldl (fun s w => w s) s

/-- The writes up to the failing one are made, and nothing after it. -/
theorem storeAll_failing {ws : List (σ → σ)} {site k : Nat} {e : ε} {s : σ} (hk : k < ws.length) :
    storeAll (failing (site + k) e) site ws s = .error e (applyAll (ws.take k) s) := by
  induction ws generalizing site k s with
  | nil => exact absurd hk (Nat.not_lt_zero k)
  | cons w ws ih =>
    cases k with
    | zero =>
      rw [Nat.add_zero, storeAll, failing_self]
      rfl
    | succ k =>
      have hne : site ≠ site + (k + 1) := by omega
      rw [storeAll, failing_of_ne e hne]
      have hrest : storeAll (failing (site + 1 + k) e) (site + 1) ws (w s) =
          .error e (applyAll (ws.take k) (w s)) := ih (Nat.lt_of_succ_lt_succ hk)
      rw [show site + 1 + k = site + (k + 1) by omega] at hrest
      exact hrest

/-- A part of the state that no write changes stays as it is. -/
theorem applyAll_keeps {τ : Type} {part : σ → τ} {ws : List (σ → σ)} {s : σ}
    (h : ∀ w ∈ ws, ∀ s, part (w s) = part s) : part (applyAll ws s) = part s := by
  induction ws generalizing s with
  | nil => rfl
  | cons w ws ih =>
    calc part (applyAll (w :: ws) s)
        = part (applyAll ws (w s)) := rfl
      _ = part (w s) := ih fun w' hw' => h w' (List.mem_cons_of_mem w hw')
      _ = part s := h w List.mem_cons_self s

/-- The state in which a program ends whose write `k` fails: its checks refuse, or they pass and the
writes before `k` have been made. -/
def stopped (checks : Prog ε σ α) (ws : α → List (σ → σ)) (k : Nat) (s : σ) : σ :=
  match checks.outcome s with
  | .ok a => applyAll ((ws a).take k) s
  | .error _ => s

/-- A program of checks, writes and a rest throws when a write fails, and the writes before that one
stay. -/
theorem stores_failing {checks : Prog ε σ α} {ws : α → List (σ → σ)}
    {rest : α → Prog ε σ β} {k : Nat}
    {e : ε} (hchecks : Keeps (· = ·) checks) (hk : ∀ a, k < (ws a).length) (s : σ) :
    let m := checks >>= fun a => storeAll (failing k e) 0 (ws a) >>= fun _ => rest a
    m.passes s = false ∧ m.final s = stopped checks ws k s := by
  intro m
  have hkept := hchecks s
  unfold wp at hkept
  unfold stopped Prog.outcome
  cases hruns : checks s with
  | error e s' =>
    rw [hruns] at hkept
    exact ⟨passes_bind_error_at hruns, (final_bind_error_at hruns).trans hkept.symm⟩
  | ok a s' =>
    rw [hruns] at hkept
    obtain rfl : s = s' := hkept
    have hfails : storeAll (failing (0 + k) e) 0 (ws a) s = .error e (applyAll ((ws a).take k) s) :=
      storeAll_failing (hk a)
    rw [Nat.zero_add] at hfails
    constructor
    · rw [passes_bind_at hruns, passes_bind_error_at hfails, Bool.and_false]
    · rw [final_bind_at hruns, final_bind_error_at hfails]

end ProofKit
