import VoxLink.ProofKit.Runs

/-! Jobs that share a state and take turns. A job runs alone until it awaits something; then any job
may run. `pool_serialised` is the rule of linearisation points: when each job acts on the state in
one turn only, and there as if it ran alone, the jobs act one after another. -/

namespace ProofKit

variable {L σ R : Type}

/-- Jobs in their local states, and the state they share. -/
structure Pool (L σ : Type) where
  jobs : List L
  state : σ
deriving DecidableEq, Repr

/-- Job `k` runs until it awaits something again. -/
def Pool.turn (move : L → σ → L × σ) (p : Pool L σ) (k : Nat) : Unit × Pool L σ :=
  match p.jobs[k]? with
  | none => ((), p)
  | some l => ((), ⟨p.jobs.set k (move l p.state).1, (move l p.state).2⟩)

variable {move : L → σ → L × σ} {p : Pool L σ} {k : Nat} {l : L}

theorem turn_none (h : p.jobs[k]? = none) : (p.turn move k).2 = p := by
  rw [Pool.turn, h]

theorem turn_some (h : p.jobs[k]? = some l) :
    (p.turn move k).2 = ⟨p.jobs.set k (move l p.state).1, (move l p.state).2⟩ := by
  rw [Pool.turn, h]

theorem turn_self (h : p.jobs[k]? = some l) :
    (p.turn move k).2.jobs[k]? = some (move l p.state).1 := by
  rw [turn_some h]
  exact List.getElem?_set_self (List.getElem?_eq_some_iff.mp h).1

/-- A turn leaves the other jobs where they stand. -/
theorem turn_ne {i : Nat} (h : i ≠ k) : (p.turn move i).2.jobs[k]? = p.jobs[k]? := by
  cases hi : p.jobs[i]? with
  | none => rw [turn_none hi]
  | some l =>
    rw [turn_some hi]
    exact List.getElem?_set_ne h

/-- The turn of a job other than the first is one of the pool of these. -/
theorem turn_succ {rest : List L} {s : σ} : (Pool.turn move ⟨l :: rest, s⟩ (k + 1)).2 =
    ⟨l :: (Pool.turn move ⟨rest, s⟩ k).2.jobs, (Pool.turn move ⟨rest, s⟩ k).2.state⟩ := by
  unfold Pool.turn
  simp only [List.getElem?_cons_succ]
  cases rest[k]? <;> rfl

/-- A fact about the shared state and facts about the jobs that hold on whatever the others do. -/
theorem turn_invariant {J : σ → Prop} {M : L → Prop}
    (hmove : ∀ l s, J s → M l → J (move l s).2 ∧ M (move l s).1)
    (h : J p.state ∧ ∀ l ∈ p.jobs, M l) (k : Nat) :
    J (p.turn move k).2.state ∧ ∀ l ∈ (p.turn move k).2.jobs, M l := by
  cases hk : p.jobs[k]? with
  | none =>
    rw [turn_none hk]
    exact h
  | some l =>
    have hl := hmove l p.state h.1 (h.2 l (List.mem_of_getElem? hk))
    rw [turn_some hk]
    refine ⟨hl.1, fun l' hl' => ?_⟩
    rcases List.mem_or_eq_of_mem_set hl' with hold | rfl
    · exact h.2 l' hold
    · exact hl.2

/-- The jobs that do not have the turn. -/
def Pool.others (p : Pool L σ) (k : Nat) : List L := p.jobs.eraseIdx k

theorem jobs_perm (h : p.jobs[k]? = some l) : p.jobs.Perm (l :: p.others k) := by
  obtain ⟨hlt, rfl⟩ := List.getElem?_eq_some_iff.mp h
  exact (List.getElem_cons_eraseIdx_perm hlt).symm

theorem jobs_any (f : L → Bool) (h : p.jobs[k]? = some l) :
    p.jobs.any f = (f l || (p.others k).any f) :=
  (jobs_perm h).any_eq

theorem set_any (m : L) (f : L → Bool) (h : p.jobs[k]? = some l) :
    (p.jobs.set k m).any f = (f m || (p.others k).any f) :=
  (List.set_perm_cons_eraseIdx (List.getElem?_eq_some_iff.mp h).1 m).any_eq

/-- A turn changes its own job and no other. -/
theorem turn_perm (h : p.jobs[k]? = some l) :
    (p.turn move k).2.jobs.Perm ((move l p.state).1 :: p.others k) := by
  rw [turn_some h]
  exact List.set_perm_cons_eraseIdx (List.getElem?_eq_some_iff.mp h).1 _

/-- An invariant kept by the turns of the jobs that are there. -/
theorem turn_keeps {I : Pool L σ → Prop}
    (h : ∀ l, p.jobs[k]? = some l → I (p.turn move k).2) (hp : I p) : I (p.turn move k).2 := by
  cases hk : p.jobs[k]? with
  | none =>
    rw [turn_none hk]
    exact hp
  | some l => exact h l hk

/-- How many jobs have `f`, after one of them has changed and before it. -/
theorem set_countP {jobs : List L} (m : L) (f : L → Bool) (h : jobs[k]? = some l) :
    (jobs.set k m).countP f + (if f l then 1 else 0) =
      jobs.countP f + if f m then 1 else 0 := by
  obtain ⟨hlt, rfl⟩ := List.getElem?_eq_some_iff.mp h
  have hbefore := (List.getElem_cons_eraseIdx_perm hlt).countP_eq f
  have hafter := (List.set_perm_cons_eraseIdx hlt m).countP_eq f
  rw [List.countP_cons] at hbefore hafter
  omega

theorem set_countP_eq {jobs : List L} {l' : L} {f : L → Bool} (h : jobs[k]? = some l)
    (hf : f l' = f l) : (jobs.set k l').countP f = jobs.countP f := by
  have hcount := set_countP l' f h
  rw [hf] at hcount
  omega

/-- What a job knows after a run it has learnt in some state of the run. -/
theorem learnt (knows : L → Prop) (learns : L → σ → Prop)
    (hmove : ∀ l s, knows (move l s).1 → knows l ∨ learns (move l s).1 s)
    (hlearns : ∀ l s t, learns l t → learns (move l s).1 t) (hstart : ∀ l ∈ p.jobs, ¬knows l)
    {ks : List Nat} (hl : (run (Pool.turn move) p ks).jobs[k]? = some l) (hknows : knows l) :
    ∃ as bs, ks = as ++ bs ∧ learns l (run (Pool.turn move) p as).state := by
  induction ks using List.reverseRecOn generalizing l with
  | nil => exact absurd hknows (hstart l (List.mem_of_getElem? hl))
  | append_singleton ks i ih =>
    rw [run_append] at hl
    have hearlier : ∀ l, (run (Pool.turn move) p ks).jobs[k]? = some l → knows l →
        ∃ as bs, ks ++ [i] = as ++ bs ∧ learns l (run (Pool.turn move) p as).state := by
      intro l hl hknows
      obtain ⟨as, bs, rfl, hlearnt⟩ := ih hl hknows
      exact ⟨as, bs ++ [i], List.append_assoc _ _ _, hlearnt⟩
    by_cases hik : i = k
    · subst hik
      cases hbefore : (run (Pool.turn move) p ks).jobs[i]? with
      | none =>
        have hsame : (Pool.turn move (run (Pool.turn move) p ks) i).2 = _ := turn_none hbefore
        rw [run, run, hsame, hbefore] at hl
        cases hl
      | some l₀ =>
        have hself : (Pool.turn move (run (Pool.turn move) p ks) i).2.jobs[i]? =
            some (move l₀ (run (Pool.turn move) p ks).state).1 := turn_self hbefore
        obtain rfl := Option.some.inj (hself.symm.trans hl)
        rcases hmove _ _ hknows with hknew | hlearnt
        · obtain ⟨as, bs, hks, hlearnt⟩ := hearlier _ hbefore hknew
          exact ⟨as, bs, hks, hlearns _ _ _ hlearnt⟩
        · exact ⟨ks, [i], rfl, hlearnt⟩
    · exact hearlier l ((turn_ne hik).symm.trans hl) hknows

theorem jobs_get_any {f : L → Bool} (h : p.jobs[k]? = some l) : (p.jobs[k]?).any f = f l := by
  rw [h, Option.any_some]

/-- What holds of a job after a change, of that job or of another. -/
theorem set_get_any {jobs : List L} {l' : L} {f : L → Bool} (h : jobs[k]? = some l) (i : Nat) :
    ((jobs.set k l')[i]?).any f = if i = k then f l' else (jobs[i]?).any f := by
  split
  · rename_i hik
    rw [hik, List.getElem?_set_self (List.getElem?_eq_some_iff.mp h).1, Option.any_some]
  · rename_i hik
    rw [List.getElem?_set_ne (Ne.symm hik)]

/-- Job `k` takes its turn, or the surroundings change the shared state. -/
def Pool.step {ι : Type} (move : L → σ → L × σ) (drift : ι → σ → σ) (p : Pool L σ) :
    Nat ⊕ ι → Unit × Pool L σ
  | .inl k => p.turn move k
  | .inr i => ((), { p with state := drift i p.state })

/-! ### A job alone -/

/-- Alone, a job comes from `l` and `s` to `l'` and `s'`. -/
def Comes (move : L → σ → L × σ) (l : L) (s : σ) (l' : L) (s' : σ) : Prop :=
  ∃ n, run (Pool.turn move) ⟨[l], s⟩ (List.replicate n 0) = ⟨[l'], s'⟩

theorem Comes.refl {s : σ} : Comes move l s l s := ⟨0, rfl⟩

theorem Comes.turn {s s' : σ} {l' : L} (h : Comes move (move l s).1 (move l s).2 l' s') :
    Comes move l s l' s' := by
  obtain ⟨n, hn⟩ := h
  exact ⟨n + 1, hn⟩

/-! ### Linearisation points -/

section Serial

variable (request : L → R) (settled : L → Bool)

/-- The requests of the jobs that have not acted yet. -/
def pending (p : Pool L σ) : List R := (p.jobs.filter fun l => !settled l).map request

/-- The state after the requests in turn, each run alone. -/
def serial (effect : R → σ → σ) (s : σ) (order : List R) : σ :=
  order.foldl (fun s r => effect r s) s

variable {request settled} {effect : R → σ → σ}

/-- What a turn of a job does: nothing yet, nothing any more, or its request. -/
def ActsAtOnce (move : L → σ → L × σ) (request : L → R) (settled : L → Bool)
    (effect : R → σ → σ) (l : L) (s : σ) : Prop :=
  request (move l s).1 = request l ∧
    if settled l = settled (move l s).1 then (move l s).2 = s
    else settled l = false ∧ (move l s).2 = effect (request l) s

theorem turn_pending (hk : p.jobs[k]? = some l)
    (hacts : ActsAtOnce move request settled effect l p.state) :
    (pending request settled (p.turn move k).2 = pending request settled p ∧
        (p.turn move k).2.state = p.state) ∨
      (pending request settled p).Perm
          (request l :: pending request settled (p.turn move k).2) ∧
        (p.turn move k).2.state = effect (request l) p.state := by
  obtain ⟨hlt, hget⟩ := List.getElem?_eq_some_iff.mp hk
  obtain ⟨hrequest, hact⟩ := hacts
  have hsplit : p.jobs = p.jobs.take k ++ l :: p.jobs.drop (k + 1) := by
    rw [← hget, List.getElem_cons_drop, List.take_append_drop]
  have hset : p.jobs.set k (move l p.state).1 =
      p.jobs.take k ++ (move l p.state).1 :: p.jobs.drop (k + 1) :=
    List.set_eq_take_append_cons_drop.trans (if_pos hlt)
  rw [turn_some hk]
  unfold pending
  simp only [hset]
  split at hact
  · rename_i hsame
    refine .inl ⟨?_, hact⟩
    conv_rhs => rw [hsplit]
    simp only [List.filter_append, List.filter_cons, List.map_append, hsame]
    split
    · simp only [List.map_cons, hrequest]
    · rfl
  · rename_i hchanged
    obtain ⟨hbefore, heffect⟩ := hact
    have hafter : settled (move l p.state).1 = true := by
      rw [hbefore] at hchanged
      simpa using hchanged
    refine .inr ⟨?_, heffect⟩
    conv_lhs => rw [hsplit]
    simp only [List.filter_append, List.filter_cons, List.map_append, hbefore, hafter,
      Bool.not_false, Bool.not_true, if_true, List.map_cons, Bool.false_eq_true, if_false]
    exact List.perm_middle

/-- If every job acts in one turn, as if alone, then the jobs that acted in a run did so one after
another. -/
theorem pool_serialised {P : Pool L σ → Nat → Prop} {I : Pool L σ → Prop} {ks : List Nat}
    (hI : ∀ p k, I p → P p k → I (p.turn move k).2)
    (hacts : ∀ p k l, I p → P p k → p.jobs[k]? = some l →
      ActsAtOnce move request settled effect l p.state)
    (hP : Along (Pool.turn move) P p ks) (hp : I p) :
    ∃ order, (order ++ pending request settled (run (Pool.turn move) p ks)).Perm
        (pending request settled p) ∧
      (run (Pool.turn move) p ks).state = serial effect p.state order := by
  induction ks generalizing p with
  | nil => exact ⟨[], List.Perm.refl _, rfl⟩
  | cons k ks ih =>
    obtain ⟨order, hperm, hstate⟩ := ih hP.2 (hI p k hp hP.1)
    show ∃ order, (order ++ pending request settled
      (run (Pool.turn move) (p.turn move k).2 ks)).Perm _ ∧
        (run (Pool.turn move) (p.turn move k).2 ks).state = _
    cases hk : p.jobs[k]? with
    | none =>
      rw [turn_none hk] at hperm hstate ⊢
      exact ⟨order, hperm, hstate⟩
    | some l =>
      rcases turn_pending hk (hacts p k l hp hP.1 hk) with ⟨hsame, hs⟩ | ⟨hstep, hs⟩
      · rw [hsame] at hperm
        rw [hs] at hstate
        exact ⟨order, hperm, hstate⟩
      · -- the request of this turn comes first
        refine ⟨request l :: order, (hperm.cons _).trans hstep.symm, ?_⟩
        rw [hstate, hs]
        rfl

end Serial

end ProofKit
