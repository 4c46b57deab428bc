import VoxLink.ProofKit.Runs

/-! `debounce` of `utils/index.ts`: every call of the debounced function cancels the timer of the
call before it and starts one of its own. A timer fires at the time that it is set for, before the
calls that are made then. -/

namespace VoxLink

open ProofKit

namespace Client

variable {τ α : Type}

/-- A timer: the time at which the wrapped function runs, and its arguments. -/
structure Timeout (τ α : Type) where
  due : τ
  args : α
deriving DecidableEq, Repr

/-- A call of the debounced function. -/
structure DebouncedCall (τ α : Type) where
  time : τ
  args : α
deriving DecidableEq, Repr

/-- Calls in the order of their times. -/
def Timely [LinearOrder τ] (calls : List (DebouncedCall τ α)) : Prop :=
  calls.Pairwise fun c c' => c.time ≤ c'.time

/-- In calls that are timely, the next call is the one to look at. -/
theorem Timely.not_before_iff [LinearOrder τ] {c : DebouncedCall τ α}
    {cs : List (DebouncedCall τ α)} (h : Timely (c :: cs)) {due : τ} :
    (∀ c' ∈ c :: cs, ¬c'.time < due) ↔ due ≤ c.time := by
  constructor
  · exact fun hall => not_lt.mp (hall c List.mem_cons_self)
  · intro hdue c' hc'
    rcases List.mem_cons.mp hc' with rfl | hc'
    · exact not_lt.mpr hdue
    · exact not_lt.mpr (hdue.trans (List.rel_of_pairwise_cons h hc'))

namespace Debounce

section Timers

variable [LinearOrder τ] [Add τ]

/-- What runs up to the time `now`, and the timer that is pending then. -/
def elapse (now : τ) : Option (Timeout τ α) → List (Timeout τ α) × Option (Timeout τ α)
  | some timeout => if timeout.due ≤ now then ([timeout], none) else ([], some timeout)
  | none => ([], none)

/-- The body of the debounced function. It forgets the timer that it clears. -/
def call (wait : τ) (c : DebouncedCall τ α) : Option (Timeout τ α) → Option (Timeout τ α) :=
  -- `clearTimeout` of a timer that has fired does nothing
  fun _ => some ⟨c.time + wait, c.args⟩

/-- A timer that is due at the time of the call fires before it. -/
def step (wait : τ) (timeout : Option (Timeout τ α)) (c : DebouncedCall τ α) :
    List (Timeout τ α) × Option (Timeout τ α) :=
  let (fired, timeout) := elapse c.time timeout
  (fired, call wait c timeout)

/-- What runs during the calls and after the last of them, when a timer is pending first. -/
def runsFrom (wait : τ) (timeout : Option (Timeout τ α)) (calls : List (DebouncedCall τ α)) :
    List (Timeout τ α) :=
  (outputs (step wait) timeout calls).flatten ++ (run (step wait) timeout calls).toList

/-- What `debounce(func, wait)` makes of the calls. -/
def runs (wait : τ) (calls : List (DebouncedCall τ α)) : List (Timeout τ α) :=
  runsFrom wait none calls

/-- The timer that a call starts. -/
def timeoutOf (wait : τ) (c : DebouncedCall τ α) : Timeout τ α := ⟨c.time + wait, c.args⟩

variable {wait : τ} {c : DebouncedCall τ α} {cs : List (DebouncedCall τ α)} {t : Timeout τ α}

theorem runs_cons : runs wait (c :: cs) = runsFrom wait (some (timeoutOf wait c)) cs := rfl

theorem runsFrom_nil : runsFrom wait (some t) [] = [t] := rfl

theorem runsFrom_cons : runsFrom wait (some t) (c :: cs) =
    if t.due ≤ c.time then t :: runs wait (c :: cs) else runs wait (c :: cs) := by
  by_cases hdue : t.due ≤ c.time
  · simp only [runs, runsFrom, outputs, run, step, elapse, if_pos hdue]
    rfl
  · simp only [runs, runsFrom, outputs, run, step, elapse, if_neg hdue]
    rfl

/-! ### When the wrapped function runs -/

/-- The run comes from a call that has waited for `wait` and that no other came upon meanwhile. -/
def Undisturbed (wait : τ) (calls : List (DebouncedCall τ α)) (t : Timeout τ α) : Prop :=
  ∃ before c after, calls = before ++ c :: after ∧ timeoutOf wait c = t ∧
    ∀ c' ∈ after, ¬c'.time < t.due

theorem undisturbed_cons : Undisturbed wait (c :: cs) t ↔
    (timeoutOf wait c = t ∧ ∀ c' ∈ cs, ¬c'.time < t.due) ∨ Undisturbed wait cs t := by
  constructor
  · rintro ⟨before, c₀, after, hcalls, ht, hlater⟩
    cases before with
    | nil =>
      obtain ⟨rfl, rfl⟩ := List.cons.inj hcalls
      exact .inl ⟨ht, hlater⟩
    | cons _ before => exact .inr ⟨before, c₀, after, (List.cons.inj hcalls).2, ht, hlater⟩
  · rintro (⟨ht, hlater⟩ | ⟨before, c₀, after, rfl, ht, hlater⟩)
    · exact ⟨[], c, cs, rfl, ht, hlater⟩
    · exact ⟨c :: before, c₀, after, rfl, ht, hlater⟩

theorem mem_runs_iff {calls : List (DebouncedCall τ α)} (h : Timely calls) :
    t ∈ runs wait calls ↔ Undisturbed wait calls t := by
  induction calls with
  | nil =>
    refine iff_of_false List.not_mem_nil ?_
    rintro ⟨before, c, after, hcalls, -⟩
    exact List.append_ne_nil_of_right_ne_nil before (List.cons_ne_nil c after) hcalls.symm
  | cons c cs ih =>
    rw [undisturbed_cons, runs_cons]
    cases cs with
    | nil =>
      have hnone : ¬Undisturbed wait [] t := fun hrun => List.not_mem_nil ((ih .nil).mpr hrun)
      rw [runsFrom_nil, List.mem_singleton, or_iff_left hnone, eq_comm]
      exact (and_iff_left fun c' hc' => nomatch hc').symm
    | cons c' cs =>
      have hrest : Timely (c' :: cs) := h.of_cons
      rw [runsFrom_cons, ← ih hrest, hrest.not_before_iff]
      split
      · rename_i hdue
        rw [List.mem_cons, eq_comm]
        refine or_congr_left (and_iff_left_of_imp fun ht => ?_).symm
        rwa [← ht]
      · rename_i hdue
        refine (or_iff_right fun hfirst => hdue ?_).symm
        rw [hfirst.1]
        exact hfirst.2

end Timers

/-! ### How far the runs are apart -/

section Distances

variable [LinearOrder τ] [AddCommMonoid τ] [IsOrderedAddMonoid τ] {wait : τ}
  {c : DebouncedCall τ α} {cs calls : List (DebouncedCall τ α)} {t : Timeout τ α}

/-- A run comes no earlier than the first call allows. -/
theorem due_ge (h : Timely (c :: cs)) (ht : t ∈ runs wait (c :: cs)) : c.time + wait ≤ t.due := by
  obtain ⟨before, c₀, after, hcalls, rfl, -⟩ := (mem_runs_iff h).mp ht
  have hmem : c₀ ∈ c :: cs := hcalls ▸ List.mem_append_right before List.mem_cons_self
  have hle : c.time ≤ c₀.time := by
    rcases List.mem_cons.mp hmem with rfl | hmem
    · exact le_rfl
    · exact List.rel_of_pairwise_cons h hmem
  exact add_le_add_left hle wait

theorem runs_apart (h : Timely calls) :
    (runs wait calls).Pairwise fun t t' => t.due + wait ≤ t'.due := by
  induction calls with
  | nil => exact .nil
  | cons c cs ih =>
    rw [runs_cons]
    cases cs with
    | nil => exact List.pairwise_singleton _ _
    | cons c' cs =>
      have hrest : Timely (c' :: cs) := h.of_cons
      rw [runsFrom_cons]
      split
      · rename_i hdue
        refine List.pairwise_cons.mpr ⟨fun t ht => ?_, ih hrest⟩
        exact (add_le_add_left hdue wait).trans (due_ge hrest ht)
      · exact ih hrest

/-- What `debounce` promises of the runs that it makes of the calls. -/
structure OncePerBurst (wait : τ) (calls : List (DebouncedCall τ α)) (runs : List (Timeout τ α)) :
    Prop where
  runs_iff : ∀ t args, ⟨t, args⟩ ∈ runs ↔
    ∃ before c after, calls = before ++ c :: after ∧ c.time + wait = t ∧ c.args = args ∧
      ∀ c' ∈ after, ¬c'.time < t
  apart : runs.Pairwise fun r r' => r.due + wait ≤ r'.due
  -- the last call of a burst is the last of all, or the next comes no earlier than its timer
  last : ∀ before c after, calls = before ++ c :: after →
    (∀ c' ∈ after.head?, c.time + wait ≤ c'.time) → ⟨c.time + wait, c.args⟩ ∈ runs

/-- Of calls at any times that do not decrease, the wrapped function runs for those that no other
call follows before their timer fires, and for each of these once. -/
theorem once_per_burst (wait : τ) (calls : List (DebouncedCall τ α)) (h : Timely calls) :
    OncePerBurst wait calls (runs wait calls) := by
  constructor
  · intro t args
    rw [mem_runs_iff h]
    refine exists₃_congr fun before c after => and_congr_right fun _ => ?_
    rw [timeoutOf, Timeout.mk.injEq, and_assoc]
  · exact runs_apart h
  · rintro before c after rfl hnext
    refine (mem_runs_iff h).mpr ⟨before, c, after, rfl, rfl, ?_⟩
    cases after with
    | nil => exact fun c' hc' => nomatch hc'
    | cons c' after =>
      have hafter : Timely (c' :: after) := (List.pairwise_append.mp h).2.1.of_cons
      exact hafter.not_before_iff.mpr (hnext c' rfl)

end Distances

/-- The second call comes at the deadline of the first, the third within its wait. -/
theorem typing_once_per_burst :
    let calls : List (DebouncedCall Nat String) := [⟨0, "a"⟩, ⟨1000, "b"⟩, ⟨1400, "c"⟩]
    OncePerBurst 1000 calls [⟨1000, "a"⟩, ⟨2400, "c"⟩] :=
  once_per_burst 1000 _ (by unfold Timely; decide)

end Debounce

end Client

end VoxLink
