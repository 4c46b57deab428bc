import Mathlib.Tactic

/-! Programs that read and write a state and may throw. A throw keeps the writes made before it:
nothing is rolled back. `wp` gives the rules of pre- and postconditions for such programs, with one
postcondition for a return and one for a throw, and `AgreesVia` the rules for two runs of one
program from related states. -/

namespace ProofKit

/-- A program over the state `σ` that returns an `α` or throws an `ε`. -/
abbrev Prog (ε σ α : Type) := EStateM ε σ α

variable {ε σ τ α β : Type}

namespace Prog

/-- Reads the state. -/
def query (q : σ → α) : Prog ε σ α := fun s => .ok (q s) s

/-- Changes the state. -/
def write (w : σ → σ) : Prog ε σ Unit := fun s => .ok () (w s)

/-- Throws `e` unless `a` is present. -/
def orThrow (e : ε) : Option α → Prog ε σ α
  | some a => pure a
  | none => throw e

/-- Throws `e` when `b` holds. -/
def throwIf (b : Bool) (e : ε) : Prog ε σ Unit := if b then throw e else pure ()

/-- A program over a part of the state. -/
def within (part : σ → τ) (put : τ → σ → σ) (m : Prog ε τ α) : Prog ε σ α := fun s =>
  match m (part s) with
  | .ok a t => .ok a (put t s)
  | .error e t => .error e (put t s)

/-- Catches what `m` throws. -/
def recover (m : Prog ε σ α) (handler : ε → Prog ε σ α) : Prog ε σ α := fun s =>
  match m s with
  | .ok a s' => .ok a s'
  | .error e s' => handler e s'

/-- The outcome of a program, without the state it ends in. -/
def outcome (m : Prog ε σ α) (s : σ) : Except ε α :=
  match m s with
  | .ok a _ => .ok a
  | .error e _ => .error e

/-- Whether a program returns. -/
def passes (m : Prog ε σ α) (s : σ) : Bool :=
  match m s with
  | .ok _ _ => true
  | .error _ _ => false

/-- The state a program ends in, whatever its outcome. -/
def final (m : Prog ε σ α) (s : σ) : σ :=
  match m s with
  | .ok _ s' => s'
  | .error _ s' => s'

end Prog

open Prog

/-! ### Pre- and postconditions -/

/-- From `s`, `m` returns a value and state in `Q` or throws an error and state in `E`. -/
def wp (m : Prog ε σ α) (Q : α → σ → Prop) (E : ε → σ → Prop) (s : σ) : Prop :=
  match m s with
  | .ok a s' => Q a s'
  | .error e s' => E e s'

variable {m : Prog ε σ α} {f : α → Prog ε σ β} {Q Q' : α → σ → Prop} {E E' : ε → σ → Prop}
  {R : β → σ → Prop} {s s' : σ}

theorem wp.of_ok {a : α} (h : wp m Q E s) (hm : m s = .ok a s') : Q a s' := by
  simpa only [wp, hm] using h

theorem bind_at {a : α} (hm : m s = .ok a s') : (m >>= f) s = f a s' := by
  show EStateM.bind m f s = f a s'
  rw [EStateM.bind, hm]

theorem bind_error_at {e : ε} (hm : m s = .error e s') : (m >>= f) s = .error e s' := by
  show EStateM.bind m f s = .error e s'
  rw [EStateM.bind, hm]

theorem query_at {q : σ → α} {a : α} (h : q s = a) : (query q : Prog ε σ α) s = .ok a s := by
  rw [query, h]

theorem query_ok {q : σ → α} {a : α} (h : (query q : Prog ε σ α) s = .ok a s') :
    a = q s ∧ s' = s := by
  obtain ⟨rfl, rfl⟩ := EStateM.Result.ok.inj h
  exact ⟨rfl, rfl⟩

theorem orThrow_ok {e : ε} {o : Option α} {a : α} (h : (orThrow e o : Prog ε σ α) s = .ok a s') :
    o = some a ∧ s' = s := by
  cases o with
  | none => cases h
  | some b =>
    obtain ⟨rfl, rfl⟩ := EStateM.Result.ok.inj h
    exact ⟨rfl, rfl⟩

theorem throwIf_ok {e : ε} {b : Bool} (h : (throwIf b e : Prog ε σ Unit) s = .ok () s') :
    b = false ∧ s' = s := by
  cases b with
  | true => cases h
  | false =>
    obtain ⟨-, rfl⟩ := EStateM.Result.ok.inj h
    exact ⟨rfl, rfl⟩

theorem bind_left_at {m' : Prog ε σ α} (h : m s = m' s) : (m >>= f) s = (m' >>= f) s := by
  show EStateM.bind m f s = EStateM.bind m' f s
  rw [EStateM.bind, h, EStateM.bind]

theorem map_at {m' : Prog ε σ α} {g : α → β} (h : m s = m' s) : (g <$> m) s = (g <$> m') s := by
  show EStateM.map g m s = EStateM.map g m' s
  rw [EStateM.map, h, EStateM.map]

theorem passes_eq_isOk : m.passes s = (m.outcome s).isOk := by
  unfold Prog.passes Prog.outcome
  cases m s <;> rfl

theorem passes_bind_at {a : α} (hm : m s = .ok a s') :
    (m >>= f).passes s = (m.passes s && (f a).passes s') := by
  simp only [Prog.passes, bind_at hm, hm, Bool.true_and]

theorem passes_bind_error_at {e : ε} (hm : m s = .error e s') : (m >>= f).passes s = false := by
  simp only [Prog.passes, bind_error_at hm]

theorem passes_map {g : α → β} : Prog.passes (g <$> m) s = m.passes s := by
  show (match EStateM.map g m s with | .ok _ _ => true | .error _ _ => false) = _
  unfold EStateM.map Prog.passes
  cases m s <;> rfl

theorem final_map {g : α → β} : Prog.final (g <$> m) s = m.final s := by
  show (match EStateM.map g m s with | .ok _ s' => s' | .error _ s' => s') = _
  unfold EStateM.map Prog.final
  cases m s <;> rfl

theorem outcome_map {g : α → β} : Prog.outcome (g <$> m) s = (m.outcome s).map g := by
  show (match EStateM.map g m s with | .ok b _ => Except.ok b | .error e _ => .error e) = _
  unfold EStateM.map Prog.outcome
  cases m s <;> rfl

theorem passes_within {part : σ → τ} {put : τ → σ → σ} {m : Prog ε τ α} :
    (within part put m).passes s = m.passes (part s) := by
  simp only [Prog.passes, within]
  cases m (part s) <;> rfl

theorem final_within {part : σ → τ} {put : τ → σ → σ} {m : Prog ε τ α} :
    (within part put m).final s = put (m.final (part s)) s := by
  simp only [Prog.final, within]
  cases m (part s) <;> rfl

theorem final_bind_at {a : α} (hm : m s = .ok a s') : (m >>= f).final s = (f a).final s' := by
  simp only [Prog.final, bind_at hm]

theorem final_bind_error_at {e : ε} (hm : m s = .error e s') : (m >>= f).final s = s' := by
  simp only [Prog.final, bind_error_at hm]

theorem final_write_bind {w : σ → σ} {f : Unit → Prog ε σ β} :
    (write w >>= f).final s = (f ()).final (w s) := rfl

theorem recover_at {handler : ε → Prog ε σ α} {a : α} (hm : m s = .ok a s') :
    recover m handler s = .ok a s' := by
  simp only [recover, hm]

theorem recover_error_at {handler : ε → Prog ε σ α} {e : ε} (hm : m s = .error e s') :
    recover m handler s = handler e s' := by
  simp only [recover, hm]

theorem recover_bind_at {handler : ε → Prog ε σ β} {a : α} (hm : m s = .ok a s') :
    recover (m >>= f) handler s = recover (f a) handler s' := by
  simp only [recover, bind_at hm]

theorem final_recover_bind_at {handler : ε → Prog ε σ β} {a : α} (hm : m s = .ok a s') :
    (recover (m >>= f) handler).final s = (recover (f a) handler).final s' := by
  simp only [Prog.final, recover_bind_at hm]

theorem final_recover_error_at {handler : ε → Prog ε σ α} {e : ε} (hm : m s = .error e s') :
    (recover m handler).final s = (handler e).final s' := by
  simp only [Prog.final, recover_error_at hm]

theorem final_recover_congr {m' : Prog ε σ α} {handler : ε → Prog ε σ α} (h : m s = m' s) :
    (recover m handler).final s = (recover m' handler).final s := by
  simp only [Prog.final, recover, h]

theorem within_at {part : σ → τ} {put : τ → σ → σ} {m : Prog ε τ α} {a : α} {t : τ}
    (hm : m (part s) = .ok a t) : within part put m s = .ok a (put t s) := by
  simp only [within, hm]

theorem within_error_at {part : σ → τ} {put : τ → σ → σ} {m : Prog ε τ α} {e : ε} {t : τ}
    (hm : m (part s) = .error e t) : within part put m s = .error e (put t s) := by
  simp only [within, hm]

/-- A program over a part of the state runs there step by step. -/
theorem within_bind {part : σ → τ} {put : τ → σ → σ} {m : Prog ε τ α} {f : α → Prog ε τ β}
    (hpart : ∀ t s, part (put t s) = t) (hput : ∀ t t' s, put t (put t' s) = put t s) :
    within part put (m >>= f) = (within part put m >>= fun a => within part put (f a)) := by
  funext s
  cases hm : m (part s) with
  | ok a t =>
    rw [bind_at (within_at hm)]
    simp only [within, bind_at hm, hpart, hput]
  | error e t => rw [bind_error_at (within_error_at hm), within_error_at (bind_error_at hm)]

theorem within_map {part : σ → τ} {put : τ → σ → σ} {m : Prog ε τ α} {g : α → β}
    (hpart : ∀ t s, part (put t s) = t) (hput : ∀ t t' s, put t (put t' s) = put t s)
    (hself : ∀ s, put (part s) s = s) : within part put (g <$> m) = g <$> within part put m := by
  have hpure : ∀ b : β, within part put (pure b : Prog ε τ β) = pure b := by
    intro b
    funext s
    show EStateM.Result.ok b (put (part s) s) = .ok b s
    rw [hself]
  simp only [← bind_pure_comp, within_bind hpart hput, hpure]

/-- Two programs with one first step, alike after it. -/
theorem bind_congr_at {f f' : α → Prog ε σ β}
    (h : ∀ a s', m s = .ok a s' → f a s' = f' a s') : (m >>= f) s = (m >>= f') s := by
  show EStateM.bind m f s = EStateM.bind m f' s
  unfold EStateM.bind
  cases hm : m s with
  | ok a s' => exact h a s' hm
  | error e s' => rfl

theorem wp.mono (h : wp m Q E s) (hQ : ∀ a s', Q a s' → Q' a s') (hE : ∀ e s', E e s' → E' e s') :
    wp m Q' E' s := by
  unfold wp at h ⊢
  split at h
  · exact hQ _ _ h
  · exact hE _ _ h

theorem wp.of_forall (hQ : ∀ a s', Q a s') (hE : ∀ e s', E e s') : wp m Q E s := by
  unfold wp
  split
  · exact hQ _ _
  · exact hE _ _

@[simp] theorem wp_bind : wp (m >>= f) R E s ↔ wp m (fun a s' => wp (f a) R E s') E s := by
  show wp (EStateM.bind m f) R E s ↔ _
  unfold wp EStateM.bind
  split <;> rename_i h <;> split at h <;> simp_all

/-- A step whose postcondition is known, followed by the rest of the program. -/
theorem wp.seq (h : wp m Q E s) (hf : ∀ a s', Q a s' → wp (f a) R E s') : wp (m >>= f) R E s :=
  wp_bind.mpr (h.mono hf fun _ _ he => he)

@[simp] theorem wp_pure {a : α} : wp (pure a : Prog ε σ α) Q E s ↔ Q a s := Iff.rfl

@[simp] theorem wp_throw {e : ε} : wp (throw e : Prog ε σ α) Q E s ↔ E e s := Iff.rfl

@[simp] theorem wp_query {q : σ → α} : wp (query q : Prog ε σ α) Q E s ↔ Q (q s) s := Iff.rfl

@[simp] theorem wp_write {w : σ → σ} {Q : Unit → σ → Prop} :
    wp (write w : Prog ε σ Unit) Q E s ↔ Q () (w s) := Iff.rfl

@[simp] theorem wp_map {g : α → β} : wp (g <$> m) R E s ↔ wp m (fun a s' => R (g a) s') E s := by
  show wp (EStateM.map g m) R E s ↔ _
  unfold wp EStateM.map
  split <;> rename_i h <;> split at h <;> simp_all

theorem wp_orThrow {e : ε} {o : Option α} :
    wp (orThrow e o) Q E s ↔ (∀ a, o = some a → Q a s) ∧ (o = none → E e s) := by
  cases o <;> simp [orThrow]

theorem wp_throwIf {b : Bool} {e : ε} {Q : Unit → σ → Prop} :
    wp (throwIf b e) Q E s ↔ (b = false → Q () s) ∧ (b = true → E e s) := by
  cases b <;> simp [throwIf]

theorem wp_within {part : σ → τ} {put : τ → σ → σ} {m : Prog ε τ α} :
    wp (within part put m) Q E s ↔
      wp m (fun a t => Q a (put t s)) (fun e t => E e (put t s)) (part s) := by
  unfold wp within
  split <;> rename_i h <;> split at h <;> simp_all

theorem wp_recover {handler : ε → Prog ε σ α} :
    wp (recover m handler) Q E s ↔ wp m Q (fun e s' => wp (handler e) Q E s') s := by
  unfold wp recover
  cases m s <;> rfl

theorem wp.and_passes (h : wp m Q E s) : wp m (fun a s' => m.passes s = true ∧ Q a s') E s := by
  unfold wp at h ⊢
  unfold Prog.passes
  split at h <;> simp_all

theorem passes_iff : m.passes s = true ↔ wp m (fun _ _ => True) (fun _ _ => False) s := by
  unfold Prog.passes wp
  split <;> simp

/-- A program that returns where `P` holds and throws where it fails. -/
theorem wp.passes_iff {P : Prop} (h : wp m (fun _ _ => P) (fun _ _ => ¬P) s) :
    m.passes s = true ↔ P := by
  unfold wp at h
  unfold Prog.passes
  split at h <;> simp_all

theorem wp.of_passes (h : wp m Q E s) (hm : m.passes s = true) : wp m Q (fun _ _ => False) s := by
  unfold wp at h ⊢
  unfold Prog.passes at hm
  split at h <;> simp_all

theorem wp.of_refused (hm : m.passes s = false) :
    wp m (fun _ _ => False) (fun _ _ => True) s := by
  unfold Prog.passes at hm
  unfold wp
  split at hm <;> simp_all

theorem wp.ok_of_passes (h : wp m Q E s) (hm : m.passes s = true) :
    ∃ a s', m s = .ok a s' ∧ Q a s' := by
  unfold wp at h
  unfold Prog.passes at hm
  split at h
  · exact ⟨_, _, ‹_›, h⟩
  · simp_all

/-- A program that cannot return throws. -/
theorem wp.throws (h : wp m (fun _ _ => False) E s) :
    ∃ e, m.outcome s = .error e ∧ E e (m.final s) := by
  unfold wp at h
  unfold Prog.outcome Prog.final
  split at h
  · exact h.elim
  · exact ⟨_, rfl, h⟩

/-- A postcondition of both outcomes, of the final state. -/
theorem wp.final {P : σ → Prop} (h : wp m (fun _ s' => P s') (fun _ s' => P s') s) :
    P (m.final s) := by
  unfold wp at h
  unfold Prog.final
  split at h <;> simp_all

theorem wp.of_returned {a : α} (h : wp m Q E s) (ha : m.outcome s = .ok a) :
    Q a (m.final s) := by
  unfold wp at h
  unfold Prog.outcome at ha
  unfold Prog.final
  split at h <;> simp_all

theorem wp.of_thrown {e : ε} (h : wp m Q E s) (he : m.outcome s = .error e) :
    E e (m.final s) := by
  unfold wp at h
  unfold Prog.outcome at he
  unfold Prog.final
  split at h <;> simp_all

theorem wp.of_outcome {a : α} (h : m.outcome s = .ok a) :
    wp m (fun b _ => b = a) (fun _ _ => False) s := by
  unfold Prog.outcome at h
  unfold wp
  split at h <;> simp_all

/-- Where a program that returns ends. -/
theorem wp.final_of_passes {P : σ → Prop} (h : wp m (fun _ s' => P s') E s)
    (hm : m.passes s = true) : P (m.final s) := by
  obtain ⟨a, s', hok, hP⟩ := h.ok_of_passes hm
  rw [Prog.final, hok]
  exact hP

/-- A program that cannot throw returns. -/
theorem wp.returns (h : wp m Q (fun _ _ => False) s) :
    ∃ a, m.outcome s = .ok a ∧ Q a (m.final s) := by
  unfold wp at h
  unfold Prog.outcome Prog.final
  split at h
  · exact ⟨_, rfl, h⟩
  · exact h.elim

/-- A program that throws only without a trace throws so, or returns and then `A` holds. -/
theorem wp.refused_or_returned {A : Prop} (h : wp m (fun _ _ => A) (fun _ s' => s' = s) s) :
    (∃ e, m.outcome s = .error e ∧ m.final s = s) ∨ (∃ a, m.outcome s = .ok a) ∧ A := by
  unfold wp at h
  unfold Prog.outcome Prog.final
  split at h
  · exact .inr ⟨⟨_, rfl⟩, h⟩
  · exact .inl ⟨_, rfl, h⟩

/-! ### Relations that every step keeps -/

/-- Whatever its outcome, `m` ends in a state related to the one it starts in. -/
def Keeps (R : σ → σ → Prop) (m : Prog ε σ α) : Prop :=
  ∀ s, wp m (fun _ s' => R s s') (fun _ s' => R s s') s

namespace Keeps

variable {R : σ → σ → Prop} [IsPreorder σ R]

theorem pure (a : α) : Keeps R (pure a : Prog ε σ α) := fun s => refl_of R s

theorem throw (e : ε) : Keeps R (throw e : Prog ε σ α) := fun s => refl_of R s

theorem query (q : σ → α) : Keeps R (query q : Prog ε σ α) := fun s => refl_of R s

omit [IsPreorder σ R] in
theorem write {w : σ → σ} (h : ∀ s, R s (w s)) : Keeps R (write w : Prog ε σ Unit) := h

omit [IsPreorder σ R] in
/-- A relation that contains another. -/
theorem mono {R' : σ → σ → Prop} (h : Keeps R m) (hR : ∀ s s', R s s' → R' s s') : Keeps R' m :=
  fun s => (h s).mono (fun _ s' h => hR s s' h) fun _ s' h => hR s s' h

theorem bind (h : Keeps R m) (hf : ∀ a, Keeps R (f a)) : Keeps R (m >>= f) := by
  intro s
  refine wp_bind.mpr ((h s).mono ?_ fun _ _ h => h)
  intro a s' hs'
  exact (hf a s').mono (fun _ _ h' => trans_of R hs' h') fun _ _ h' => trans_of R hs' h'

omit [IsPreorder σ R] in
theorem map {g : α → β} (h : Keeps R m) : Keeps R (g <$> m) := fun s => wp_map.mpr (h s)

theorem orThrow (e : ε) (o : Option α) : Keeps R (orThrow e o) := by
  cases o
  · exact .throw e
  · exact .pure _

theorem throwIf (b : Bool) (e : ε) : Keeps R (throwIf b e) := by
  cases b
  · exact .pure _
  · exact .throw e

theorem recover {handler : ε → Prog ε σ α} (h : Keeps R m) (hhandler : ∀ e, Keeps R (handler e)) :
    Keeps R (recover m handler) := by
  intro s
  have hm := h s
  unfold wp at hm ⊢
  unfold Prog.recover
  cases hs : m s with
  | ok a s' =>
    rw [hs] at hm
    exact hm
  | error e s' =>
    rw [hs] at hm
    exact (hhandler e s').mono (fun _ _ h' => trans_of R hm h') fun _ _ h' => trans_of R hm h'

omit [IsPreorder σ R] in
/-- A program over a part of the state that keeps a relation of it. -/
theorem within {R' : τ → τ → Prop} {part : σ → τ} {put : τ → σ → σ} {m : Prog ε τ α}
    (hput : ∀ s x, R' (part s) x → R s (put x s)) (h : Keeps R' m) :
    Keeps R (within part put m) :=
  fun s => wp_within.mpr ((h (part s)).mono (fun _ x hx => hput s x hx) fun _ x hx => hput s x hx)

end Keeps

/-- `m` keeps `R`, and what it returns is in `Q`. -/
def Yields (R : σ → σ → Prop) (Q : α → Prop) (m : Prog ε σ α) : Prop :=
  ∀ s, wp m (fun a s' => R s s' ∧ Q a) (fun _ s' => R s s') s

namespace Yields

variable {R : σ → σ → Prop} [IsPreorder σ R] {Q : β → Prop}

theorem pure {b : β} (h : Q b) : Yields R Q (pure b : Prog ε σ β) := fun s => ⟨refl_of R s, h⟩

theorem bind (h : Keeps R m) (hf : ∀ a, Yields R Q (f a)) : Yields R Q (m >>= f) := by
  intro s
  refine wp_bind.mpr ((h s).mono ?_ fun _ _ h => h)
  intro a s' hs'
  exact (hf a s').mono (fun _ _ h' => ⟨trans_of R hs' h'.1, h'.2⟩) fun _ _ h' => trans_of R hs' h'

theorem recover {m : Prog ε σ β} {handler : ε → Prog ε σ β} (h : Yields R Q m)
    (hhandler : ∀ e, Yields R Q (handler e)) : Yields R Q (recover m handler) := by
  intro s
  refine wp_recover.mpr ((h s).mono (fun _ _ h' => h') ?_)
  intro e s' hs'
  exact (hhandler e s').mono (fun _ _ h' => ⟨trans_of R hs' h'.1, h'.2⟩)
    fun _ _ h' => trans_of R hs' h'

end Yields

/-! ### Two runs from related states -/

/-- Both results return values with one image under `v`, or both throw the same error, in related
states. -/
def SameResult (R : σ → σ → Prop) (v : α → β) :
    EStateM.Result ε σ α → EStateM.Result ε σ α → Prop
  | .ok a s, .ok b t => v a = v b ∧ R s t
  | .error e s, .error d t => e = d ∧ R s t
  | _, _ => False

/-- From any two states related by `R`, `m` behaves alike: its values have one image under `v`, and
its final states are related. -/
def AgreesVia (R : σ → σ → Prop) (v : α → β) (m : Prog ε σ α) : Prop :=
  ∀ s t, R s t → SameResult R v (m s) (m t)

/-- From any two states related by `R`, `m` gives equal values. -/
abbrev Agrees (R : σ → σ → Prop) (m : Prog ε σ α) : Prop := AgreesVia R id m

section Agrees

variable {γ : Type} {R : σ → σ → Prop} {v : β → γ}

/-- Two runs of a program, step by step, with what the first step gave in each. -/
theorem SameResult.bind {w : α → γ} {v : β → τ} {t : σ} (h : SameResult R w (m s) (m t))
    (hf : ∀ a b s' t', m s = .ok a s' → m t = .ok b t' → w a = w b → R s' t' →
      SameResult R v (f a s') (f b t')) : SameResult R v ((m >>= f) s) ((m >>= f) t) := by
  show SameResult R v (EStateM.bind m f s) (EStateM.bind m f t)
  unfold EStateM.bind
  cases hs : m s <;> cases ht : m t <;> rw [hs, ht] at h <;> simp only [SameResult] at h ⊢
  · exact hf _ _ _ _ hs ht h.1 h.2
  · exact h

/-- A first step whose value shows in the second only through its image. -/
theorem AgreesVia.bind_via {w : α → γ} {v : β → τ} (h : AgreesVia R w m)
    (hf : ∀ a b, w a = w b → ∀ s t, R s t → SameResult R v (f a s) (f b t)) :
    AgreesVia R v (m >>= f) := by
  intro s t hR
  exact (h s t hR).bind fun a b s' t' _ _ hab hR' => hf a b hab s' t' hR'

theorem AgreesVia.bind (h : Agrees R m) (hf : ∀ a, AgreesVia R v (f a)) :
    AgreesVia R v (m >>= f) :=
  h.bind_via fun a b (hab : a = b) => hab ▸ hf a

/-- A first step whose value the second does not use. -/
theorem AgreesVia.seq {n : Prog ε σ β} (h : AgreesVia R (fun _ => ()) m) (hn : AgreesVia R v n) :
    AgreesVia R v (m >>= fun _ => n) :=
  h.bind_via fun _ _ _ => hn

theorem AgreesVia.pure (b : β) : AgreesVia R v (pure b : Prog ε σ β) := fun _ _ h => ⟨rfl, h⟩

theorem AgreesVia.throw (e : ε) : AgreesVia R v (throw e : Prog ε σ β) := fun _ _ h => ⟨rfl, h⟩

theorem AgreesVia.query {q : σ → β} (hq : ∀ s t, R s t → v (q s) = v (q t)) :
    AgreesVia R v (query q : Prog ε σ β) :=
  fun s t h => ⟨hq s t h, h⟩

theorem AgreesVia.write {w : σ → σ} {v : Unit → γ} (hw : ∀ s t, R s t → R (w s) (w t)) :
    AgreesVia R v (write w : Prog ε σ Unit) :=
  fun s t h => ⟨rfl, hw s t h⟩

theorem AgreesVia.orThrow (e : ε) (o : Option β) : AgreesVia R v (orThrow e o) := by
  cases o
  · exact .throw e
  · exact .pure _

/-- Options with one image are both present or both absent. -/
theorem SameResult.orThrow {e : ε} {o o' : Option β} {t : σ} (h : o.map v = o'.map v)
    (hR : R s t) : SameResult R v (Prog.orThrow e o s) (Prog.orThrow e o' t) := by
  cases o <;> cases o' <;> simp only [Option.map_some, Option.map_none, reduceCtorEq] at h
  · exact ⟨rfl, hR⟩
  · exact ⟨Option.some.inj h, hR⟩

theorem AgreesVia.throwIf {v : Unit → γ} (b : Bool) (e : ε) : AgreesVia R v (throwIf b e) := by
  cases b
  · exact .pure _
  · exact .throw e

theorem SameResult.map {g : α → β} {t : σ} (h : SameResult R (v ∘ g) (m s) (m t)) :
    SameResult R v ((g <$> m) s) ((g <$> m) t) := by
  show SameResult R v (EStateM.map g m s) (EStateM.map g m t)
  unfold EStateM.map
  cases hs : m s <;> cases ht : m t <;> rw [hs, ht] at h <;> exact h

theorem AgreesVia.map {g : α → β} (h : AgreesVia R (v ∘ g) m) : AgreesVia R v (g <$> m) :=
  fun s t hR => (h s t hR).map

theorem SameResult.image {w : γ → τ} {m : Prog ε σ β} {t : σ} (h : SameResult R v (m s) (m t)) :
    SameResult R (w ∘ v) (m s) (m t) := by
  cases hs : m s <;> cases ht : m t <;> rw [hs, ht] at h
  · exact ⟨congrArg w h.1, h.2⟩
  · exact h.elim
  · exact h.elim
  · exact h

theorem AgreesVia.image {w : γ → τ} {m : Prog ε σ β} (h : AgreesVia R v m) :
    AgreesVia R (w ∘ v) m :=
  fun s t hR => (h s t hR).image

/-- Values that are equal have equal images. -/
theorem Agrees.via {m : Prog ε σ β} (h : Agrees R m) : AgreesVia R v m := h.image

theorem SameResult.recover {m : Prog ε σ β} {handler : ε → Prog ε σ β} {t : σ}
    (h : SameResult R v (m s) (m t)) (hhandler : ∀ e, AgreesVia R v (handler e)) :
    SameResult R v (recover m handler s) (recover m handler t) := by
  unfold Prog.recover
  cases hs : m s <;> cases ht : m t <;> rw [hs, ht] at h <;> simp only [SameResult] at h ⊢
  · exact h
  · obtain ⟨rfl, hR⟩ := h
    exact hhandler _ _ _ hR

theorem AgreesVia.recover {m : Prog ε σ β} {handler : ε → Prog ε σ β} (h : AgreesVia R v m)
    (hhandler : ∀ e, AgreesVia R v (handler e)) : AgreesVia R v (recover m handler) :=
  fun s t hR => (h s t hR).recover hhandler

theorem SameResult.within {R' : τ → τ → Prop} {part : σ → τ} {put : τ → σ → σ} {m : Prog ε τ β}
    {t : σ} (hput : ∀ x y, R' x y → R (put x s) (put y t))
    (h : SameResult R' v (m (part s)) (m (part t))) :
    SameResult R v (within part put m s) (within part put m t) := by
  unfold Prog.within
  cases hs : m (part s) <;> cases ht : m (part t) <;> rw [hs, ht] at h <;>
    simp only [SameResult] at h ⊢
  · exact ⟨h.1, hput _ _ h.2⟩
  · exact ⟨h.1, hput _ _ h.2⟩

/-- A program over a part of the state, when the relation of the whole contains that of the
part. -/
theorem AgreesVia.within {R' : τ → τ → Prop} {part : σ → τ} {put : τ → σ → σ} {m : Prog ε τ β}
    (hpart : ∀ s t, R s t → R' (part s) (part t))
    (hput : ∀ s t x y, R s t → R' x y → R (put x s) (put y t)) (h : AgreesVia R' v m) :
    AgreesVia R v (within part put m) :=
  fun s t hR => (h _ _ (hpart s t hR)).within fun x y => hput s t x y hR

theorem SameResult.outcome_eq {m : Prog ε σ β} {t : σ} (h : SameResult R id (m s) (m t)) :
    m.outcome s = m.outcome t := by
  unfold Prog.outcome
  cases hs : m s <;> cases ht : m t <;> rw [hs, ht] at h <;> simp only [SameResult] at h ⊢
  · exact congrArg Except.ok h.1
  · exact congrArg Except.error h.1

theorem SameResult.final {m : Prog ε σ β} {t : σ} (h : SameResult R v (m s) (m t)) :
    R (m.final s) (m.final t) := by
  unfold Prog.final
  cases hs : m s <;> cases ht : m t <;> rw [hs, ht] at h <;> first | exact h.2 | exact h.elim

theorem AgreesVia.outcome_eq {m : Prog ε σ β} {t : σ} (h : AgreesVia R v m) (hR : R s t)
    (hv : ∀ a b, m.outcome s = .ok a → v a = v b → a = b) : m.outcome s = m.outcome t := by
  have hm := h s t hR
  unfold Prog.outcome at hv ⊢
  cases hs : m s <;> cases ht : m t <;> rw [hs, ht] at hm <;> simp only [hs, SameResult] at hv hm ⊢
  · rw [hv _ _ rfl hm.1]
  · rw [hm.1]

theorem AgreesVia.final {m : Prog ε σ β} {t : σ} (h : AgreesVia R v m) (hR : R s t) :
    R (m.final s) (m.final t) :=
  (h s t hR).final

end Agrees

/-! ### States alike but for a hidden part -/

/-- `s` and `t` are one state when what `hide` blanks is blanked. -/
def SameUnder (hide : σ → σ) (s t : σ) : Prop := hide s = hide t

instance [DecidableEq σ] (hide : σ → σ) (s t : σ) : Decidable (SameUnder hide s t) :=
  inferInstanceAs (Decidable (_ = _))

section SameUnder

variable {γ : Type} {hide : σ → σ} {v : β → γ} {t : σ}

/-- What does not depend on the hidden part is the same in both states. -/
theorem SameUnder.same (hst : SameUnder hide s t) {q : σ → β} (h : ∀ s, q (hide s) = q s) :
    q s = q t :=
  calc q s = q (hide s) := (h s).symm
    _ = q (hide t) := congrArg q hst
    _ = q t := h t

theorem AgreesVia.read {q : σ → β} (h : ∀ s, v (q (hide s)) = v (q s)) :
    AgreesVia (SameUnder hide) v (Prog.query q : Prog ε σ β) :=
  .query fun _ _ hst => hst.same (q := fun s => v (q s)) h

theorem AgreesVia.save {w : σ → σ} {v : Unit → γ} (h : ∀ s, hide (w (hide s)) = hide (w s)) :
    AgreesVia (SameUnder hide) v (Prog.write w : Prog ε σ Unit) :=
  .write fun _ _ hst => hst.same (q := fun s => hide (w s)) h

/-- A write that leaves the hidden part alone. -/
theorem AgreesVia.commutes {w : σ → σ} {v : Unit → γ} (hide_hide : ∀ s, hide (hide s) = hide s)
    (h : ∀ s, w (hide s) = hide (w s)) :
    AgreesVia (SameUnder hide) v (Prog.write w : Prog ε σ Unit) :=
  .save fun s => by rw [h s, hide_hide]

end SameUnder

end ProofKit
