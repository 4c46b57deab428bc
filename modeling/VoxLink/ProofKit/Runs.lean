import Mathlib.Tactic

/-! Runs of a system that takes one input at a time: the state after a list of inputs, the outputs
on the way, and the rules that carry a fact about one step to every step of a run. -/

namespace ProofKit

variable {σ ι ο : Type}

/-- The state after the inputs `is`. -/
def run (step : σ → ι → ο × σ) : σ → List ι → σ
  | s, [] => s
  | s, i :: is => run step (step s i).2 is

/-- The outputs on the inputs `is`, in order. -/
def outputs (step : σ → ι → ο × σ) : σ → List ι → List ο
  | _, [] => []
  | s, i :: is => (step s i).1 :: outputs step (step s i).2 is

/-- `P` holds of the state before each step of the run and that step's input. -/
def Along (step : σ → ι → ο × σ) (P : σ → ι → Prop) : σ → List ι → Prop
  | _, [] => True
  | s, i :: is => P s i ∧ Along step P (step s i).2 is

/-- The states that runs from `init` reach whose steps all meet `ok`. -/
def Reachable (step : σ → ι → ο × σ) (ok : σ → ι → Prop) (init s : σ) : Prop :=
  ∃ is, Along step ok init is ∧ run step init is = s

variable {step : σ → ι → ο × σ} {P P' : σ → ι → Prop} {I : σ → Prop} {s t : σ} {is js : List ι}

theorem run_append : run step s (is ++ js) = run step (run step s is) js := by
  induction is generalizing s with
  | nil => rfl
  | cons i is ih => exact ih

theorem along_append :
    Along step P s (is ++ js) ↔ Along step P s is ∧ Along step P (run step s is) js := by
  induction is generalizing s with
  | nil => simp [Along, run]
  | cons i is ih => simp [Along, run, ih, and_assoc]

theorem Along.mono (h : ∀ s i, P s i → P' s i) (hP : Along step P s is) : Along step P' s is := by
  induction is generalizing s with
  | nil => trivial
  | cons i is ih => exact ⟨h _ _ hP.1, ih hP.2⟩

theorem along_of_forall (h : ∀ s i, P s i) (s : σ) (is : List ι) : Along step P s is := by
  induction is generalizing s with
  | nil => trivial
  | cons i is ih => exact ⟨h s i, ih _⟩

theorem along_iff_forall :
    Along step P s is ↔ ∀ as i bs, is = as ++ i :: bs → P (run step s as) i := by
  constructor
  · rintro hP as i bs rfl
    exact (along_append.mp hP).2.1
  · intro h
    induction is generalizing s with
    | nil => trivial
    | cons i is ih => exact ⟨h [] i is rfl, ih fun as j bs his =>
      h (i :: as) j bs (by rw [his]; rfl)⟩

/-- A condition on the inputs alone. -/
theorem along_input_iff {Q : ι → Prop} : Along step (fun _ i => Q i) s is ↔ ∀ i ∈ is, Q i := by
  induction is generalizing s with
  | nil => simp [Along]
  | cons i is ih => simp [Along, ih]

theorem along_and : Along step (fun s i => P s i ∧ P' s i) s is ↔
    Along step P s is ∧ Along step P' s is := by
  induction is generalizing s with
  | nil => simp [Along]
  | cons i is ih =>
    simp only [Along, ih]
    tauto

/-- A fact about all outputs of a run is one about each of its steps. -/
theorem forall_outputs_iff {Q : ο → Prop} : (∀ o ∈ outputs step s is, Q o) ↔
    Along step (fun s i => Q (step s i).1) s is := by
  induction is generalizing s with
  | nil => simp [outputs, Along]
  | cons i is ih => simp [outputs, Along, ih]

/-- Conditions that come to the same on steps that meet `P` come to the same on a run of these. -/
theorem Along.congr {Q Q' : σ → ι → Prop} (hP : Along step P s is)
    (h : ∀ s i, P s i → (Q s i ↔ Q' s i)) : Along step Q s is ↔ Along step Q' s is := by
  induction is generalizing s with
  | nil => exact Iff.rfl
  | cons i is ih => exact and_congr (h s i hP.1) (ih hP.2)

/-- Two conditions that come to the same in states with an invariant, when the steps that meet
the first keep it. -/
theorem Along.congr_invariant {Q Q' : σ → ι → Prop} (hP : Along step P s is)
    (h : ∀ s i, I s → P s i → (Q s i ↔ Q' s i))
    (hI : ∀ s i, I s → P s i → Q s i → I (step s i).2) (hs : I s) :
    Along step Q s is ↔ Along step Q' s is := by
  induction is generalizing s with
  | nil => exact Iff.rfl
  | cons i is ih =>
    have hfirst := h s i hs hP.1
    constructor
    · intro hQ
      exact ⟨hfirst.mp hQ.1, (ih hP.2 (hI s i hs hP.1 hQ.1)).mp hQ.2⟩
    · intro hQ
      have hQ₁ := hfirst.mpr hQ.1
      exact ⟨hQ₁, (ih hP.2 (hI s i hs hP.1 hQ₁)).mpr hQ.2⟩

instance {is : List ι} [∀ s i, Decidable (P s i)] : Decidable (Along step P s is) :=
  decideAlong s is
where
  decideAlong : (s : σ) → (is : List ι) → Decidable (Along step P s is)
    | _, [] => .isTrue trivial
    | s, i :: is =>
      have := decideAlong (step s i).2 is
      inferInstanceAs (Decidable (P s i ∧ Along step P (step s i).2 is))

/-- An invariant kept by every step that meets `P` holds after a run of such steps. -/
theorem Along.invariant (h : ∀ s i, I s → P s i → I (step s i).2) (hP : Along step P s is)
    (hs : I s) : I (run step s is) := by
  induction is generalizing s with
  | nil => exact hs
  | cons i is ih => exact ih hP.2 (h s i hs hP.1)

/-- A relation to the states of another system that takes the same inputs. -/
theorem Along.simulates {τ ο' : Type} {step' : τ → ι → ο' × τ} {R : σ → τ → Prop} {t : τ}
    (h : ∀ s t i, R s t → P s i → R (step s i).2 (step' t i).2) (hP : Along step P s is)
    (ht : R s t) : R (run step s is) (run step' t is) := by
  induction is generalizing s t with
  | nil => exact ht
  | cons i is ih => exact ih hP.2 (h s t i ht hP.1)

/-- A fact that comes about in the steps that `Sets` says and goes in those that `Resets` says holds
after a run when some step has set it and none after that has reset it. -/
theorem run_since_iff (O : σ → Prop) (Sets Resets : σ → ι → Prop)
    (h : ∀ s i, O (step s i).2 ↔ Sets s i ∨ O s ∧ ¬Resets s i) (hs : ¬O s) :
    O (run step s is) ↔ ∃ as i bs, is = as ++ i :: bs ∧ Sets (run step s as) i ∧
      Along step (fun s i => ¬Resets s i) (run step s (as ++ [i])) bs := by
  induction is using List.reverseRecOn with
  | nil =>
    refine iff_of_false hs ?_
    rintro ⟨as, i, bs, hnil, -⟩
    exact List.append_ne_nil_of_right_ne_nil as (List.cons_ne_nil i bs) hnil.symm
  | append_singleton is i ih =>
    have hlast : run step s (is ++ [i]) = (step (run step s is) i).2 := run_append
    rw [hlast, h, ih]
    constructor
    · rintro (hsets | ⟨⟨as, j, bs, rfl, hsets, hkept⟩, hkeeps⟩)
      · exact ⟨is, i, [], rfl, hsets, trivial⟩
      · refine ⟨as, j, bs ++ [i], by simp, hsets, along_append.mpr ⟨hkept, ?_, trivial⟩⟩
        rwa [← run_append, List.append_assoc]
    · rintro ⟨as, j, bs, hsplit, hsets, hkept⟩
      rcases bs.eq_nil_or_concat' with rfl | ⟨bs, i', rfl⟩
      · obtain ⟨rfl, hij⟩ := List.append_inj' hsplit rfl
        obtain rfl := (List.cons.inj hij).1
        exact .inl hsets
      · rw [← List.cons_append, ← List.append_assoc] at hsplit
        obtain ⟨rfl, hii⟩ := List.append_inj' hsplit rfl
        obtain rfl := (List.cons.inj hii).1
        obtain ⟨hkept, hkeeps, -⟩ := along_append.mp hkept
        refine .inr ⟨⟨as, j, bs, rfl, hsets, hkept⟩, ?_⟩
        rwa [← run_append, List.append_assoc] at hkeeps

/-- What a step does from a state with the invariant, every step of the run does. -/
theorem Along.of_invariant (h : ∀ s i, I s → P s i → I (step s i).2)
    (hstep : ∀ s i, I s → P s i → P' s i) (hP : Along step P s is) (hs : I s) :
    Along step P' s is := by
  induction is generalizing s with
  | nil => trivial
  | cons i is ih => exact ⟨hstep s i hs hP.1, ih hP.2 (h s i hs hP.1)⟩

/-- An invariant of the state and the outputs so far. -/
theorem Along.history {J : σ → List ο → Prop}
    (h : ∀ s i past, J s past → P s i → J (step s i).2 (past ++ [(step s i).1]))
    (hP : Along step P s is) {past : List ο} (hs : J s past) :
    J (run step s is) (past ++ outputs step s is) := by
  induction is generalizing s past with
  | nil => rwa [outputs, List.append_nil]
  | cons i is ih =>
    have hrest := ih hP.2 (h s i past hs hP.1)
    rwa [List.append_assoc] at hrest

theorem Reachable.invariant {init : σ} (h : ∀ s i, I s → P s i → I (step s i).2)
    (hinit : I init) (hs : Reachable step P init s) : I s := by
  obtain ⟨is, hP, rfl⟩ := hs
  exact hP.invariant h hinit

theorem Reachable.next {init : σ} {i : ι} (hs : Reachable step P init s) (hi : P s i) :
    Reachable step P init (step s i).2 := by
  obtain ⟨is, hP, rfl⟩ := hs
  exact ⟨is ++ [i], along_append.mpr ⟨hP, hi, trivial⟩, run_append⟩

theorem Reachable.mono {init : σ} (h : ∀ s i, P s i → P' s i) (hs : Reachable step P init s) :
    Reachable step P' init s := by
  obtain ⟨is, hP, rfl⟩ := hs
  exact ⟨is, hP.mono h, rfl⟩

/-- Two runs on the same inputs from related states give the same outputs, when every step that
meets `P` gives equal outputs and related states. -/
theorem Along.outputs_eq {R : σ → σ → Prop}
    (h : ∀ s t i, R s t → P s i → (step s i).1 = (step t i).1 ∧ R (step s i).2 (step t i).2)
    (hP : Along step P s is) (hR : R s t) : outputs step s is = outputs step t is := by
  induction is generalizing s t with
  | nil => rfl
  | cons i is ih =>
    obtain ⟨hout, hnext⟩ := h s t i hR hP.1
    simp only [outputs]
    rw [hout, ih hP.2 hnext]

end ProofKit
