import VoxLink.ProofKit.Pools
import VoxLink.ProofKit.Rows

/-! Tables whose rows belong to somebody. Jobs take turns; a job makes rows under keys of its own
supply, and changes or deletes rows that it may touch. It may check a row in one turn and write to
it by key in its next one, after others have had theirs. -/

namespace ProofKit

/-- A table in the shared state, and what the jobs have to do with it. -/
structure Custody (L σ α κ ω : Type) where
  rows : σ → List α
  key : α → κ
  owner : α → ω
  /-- The keys under which a job may still make rows. -/
  supply : L → List κ
  /-- The key of the row that a job has checked and writes to in its next turn. -/
  checked : L → Option κ
  makes : L → ω → Prop
  mayTouch : L → ω → Prop

namespace Custody

variable {L σ α κ ω : Type} {C : Custody L σ α κ ω} {move : L → σ → L × σ} {p : Pool L σ}
  {k : Nat} {ks : List Nat} {l l' : L} {s s' : σ} {a : α} {q : α → Bool} {f : α → α}

def keys (C : Custody L σ α κ ω) (s : σ) : List κ := (C.rows s).map C.key

theorem mem_keys (ha : a ∈ C.rows s) : C.key a ∈ C.keys s := List.mem_map_of_mem ha

/-! ### One turn -/

/-- What the turn of a job may do to the table. -/
structure Proper (C : Custody L σ α κ ω) (l : L) (s : σ) (l' : L) (s' : σ) : Prop where
  supply : C.supply l' ⊆ C.supply l
  keys : (C.keys s' ++ C.supply l').Sublist (C.keys s ++ C.supply l)
  kept : ∀ a ∈ C.rows s', (∃ b ∈ C.rows s, C.key b = C.key a ∧ C.owner b = C.owner a) ∨
    C.key a ∈ C.supply l ∧ C.makes l (C.owner a)
  touched : ∀ a ∈ C.rows s, a ∉ C.rows s' →
    C.mayTouch l (C.owner a) ∨ C.checked l = some (C.key a)
  checks : ∀ x, C.checked l' = some x → ∃ a ∈ C.rows s', C.key a = x ∧ C.mayTouch l' (C.owner a)

theorem Proper.leaves (hrows : C.rows s' = C.rows s) (hsupply : (C.supply l').Sublist (C.supply l))
    (hchecks : ∀ x, C.checked l' = some x →
      ∃ a ∈ C.rows s, C.key a = x ∧ C.mayTouch l' (C.owner a)) : C.Proper l s l' s' where
  supply := hsupply.subset
  keys := by
    rw [Custody.keys, hrows]
    exact hsupply.append_left _
  kept a ha := .inl ⟨a, hrows ▸ ha, rfl, rfl⟩
  touched a ha hgone := absurd (hrows ▸ ha) hgone
  checks x hx := by
    rw [hrows]
    exact hchecks x hx

theorem Proper.makes (hrows : C.rows s' = C.rows s ++ [a])
    (hsupply : C.supply l = C.key a :: C.supply l') (hmakes : C.makes l (C.owner a))
    (hchecked : C.checked l' = none) : C.Proper l s l' s' where
  supply := by
    rw [hsupply]
    exact List.subset_cons_self _ _
  keys := by
    rw [Custody.keys, hrows, hsupply, List.map_append, List.append_assoc]
    exact List.Sublist.refl _
  kept b hb := by
    rw [hrows, List.mem_append, List.mem_singleton] at hb
    rcases hb with hold | rfl
    · exact .inl ⟨b, hold, rfl, rfl⟩
    · exact .inr ⟨hsupply ▸ List.mem_cons_self, hmakes⟩
  touched b hb hgone := by
    rw [hrows] at hgone
    exact absurd (List.mem_append_left _ hb) hgone
  checks x hx := by
    rw [hchecked] at hx
    exact nomatch hx

theorem Proper.changes (hrows : C.rows s' = Rows.modify q f (C.rows s))
    (hf : ∀ a, C.key (f a) = C.key a ∧ C.owner (f a) = C.owner a)
    (hmay : ∀ a ∈ C.rows s, q a = true → C.mayTouch l (C.owner a) ∨ C.checked l = some (C.key a))
    (hsupply : (C.supply l').Sublist (C.supply l)) (hchecked : C.checked l' = none) :
    C.Proper l s l' s' where
  supply := hsupply.subset
  keys := by
    have hkeys : C.keys s' = C.keys s := by
      rw [Custody.keys, hrows, Rows.map_modify fun a _ => (hf a).1]
      rfl
    rw [hkeys]
    exact hsupply.append_left _
  kept b hb := by
    rw [hrows] at hb
    obtain ⟨a, ha, rfl⟩ := Rows.mem_modify.mp hb
    refine .inl ⟨a, ha, ?_⟩
    split
    · exact ⟨(hf a).1.symm, (hf a).2.symm⟩
    · exact ⟨rfl, rfl⟩
  touched a ha hgone := by
    rw [hrows] at hgone
    cases hq : q a with
    | true => exact hmay a ha hq
    | false => exact absurd (Rows.mem_modify.mpr ⟨a, ha, by simp [hq]⟩) hgone
  checks x hx := by
    rw [hchecked] at hx
    exact nomatch hx

theorem Proper.removes (hrows : C.rows s' = Rows.remove q (C.rows s))
    (hmay : ∀ a ∈ C.rows s, q a = true → C.mayTouch l (C.owner a) ∨ C.checked l = some (C.key a))
    (hsupply : (C.supply l').Sublist (C.supply l)) (hchecked : C.checked l' = none) :
    C.Proper l s l' s' where
  supply := hsupply.subset
  keys := by
    rw [Custody.keys, hrows]
    exact (Rows.remove_sublist.map C.key).append hsupply
  kept b hb := by
    rw [hrows] at hb
    exact .inl ⟨b, (Rows.mem_remove.mp hb).1, rfl, rfl⟩
  touched a ha hgone := by
    rw [hrows] at hgone
    cases hq : q a with
    | true => exact hmay a ha hq
    | false => exact absurd (Rows.mem_remove.mpr ⟨ha, hq⟩) hgone
  checks x hx := by
    rw [hchecked] at hx
    exact nomatch hx

/-! ### Jobs that take turns -/

/-- No key is in the table twice or will be, and what a job has checked still holds. -/
structure Kept (C : Custody L σ α κ ω) (p : Pool L σ) : Prop where
  nodup : (C.keys p.state ++ p.jobs.flatMap C.supply).Nodup
  checked : ∀ l ∈ p.jobs, ∀ x, C.checked l = some x → x ∉ p.jobs.flatMap C.supply ∧
    ∀ a ∈ C.rows p.state, C.key a = x → C.mayTouch l (C.owner a)

theorem Kept.turn (hmove : ∀ l s, C.Proper l s (move l s).1 (move l s).2) (h : C.Kept p) (k : Nat) :
    C.Kept (p.turn move k).2 := by
  apply turn_keeps _ h
  intro l hk
  have hproper := hmove l p.state
  have hbefore : (p.jobs.flatMap C.supply).Perm (C.supply l ++ (p.others k).flatMap C.supply) :=
    (jobs_perm hk).flatMap_right _
  have hturn : (p.turn move k).2.jobs.Perm ((move l p.state).1 :: p.others k) := turn_perm hk
  have hafter : ((p.turn move k).2.jobs.flatMap C.supply).Perm
      (C.supply (move l p.state).1 ++ (p.others k).flatMap C.supply) := hturn.flatMap_right _
  have hstate : (p.turn move k).2.state = (move l p.state).2 := by rw [turn_some hk]
  have hnodup : (C.keys p.state ++ C.supply l ++ (p.others k).flatMap C.supply).Nodup := by
    rw [List.append_assoc]
    exact (hbefore.append_left _).nodup h.nodup
  have hsupply : ∀ x,
      x ∈ (p.turn move k).2.jobs.flatMap C.supply → x ∈ p.jobs.flatMap C.supply := by
    intro x hx
    rcases List.mem_append.mp (hafter.mem_iff.mp hx) with hown | hother
    · exact hbefore.mem_iff.mpr (List.mem_append_left _ (hproper.supply hown))
    · exact hbefore.mem_iff.mpr (List.mem_append_right _ hother)
  rw [← hstate] at hproper
  have hnext : (C.keys (p.turn move k).2.state ++
      (p.turn move k).2.jobs.flatMap C.supply).Nodup := by
    apply (hafter.append_left _).nodup_iff.mpr
    rw [← List.append_assoc]
    exact hnodup.sublist (hproper.keys.append_right _)
  refine ⟨hnext, fun l' hl' x hx => ?_⟩
  rcases List.mem_cons.mp (hturn.mem_iff.mp hl') with rfl | hother
  · obtain ⟨hunique, -, hapart⟩ := List.nodup_append.mp hnext
    obtain ⟨a, ha, rfl, hmay⟩ := hproper.checks x hx
    refine ⟨fun hnew => hapart _ (mem_keys ha) _ hnew rfl, fun b hb hkey => ?_⟩
    rwa [Rows.eq_of_nodup hunique hb ha hkey]
  · obtain ⟨hnew, hmay⟩ := h.checked l' ((jobs_perm hk).mem_iff.mpr (.tail _ hother)) x hx
    refine ⟨fun hx => hnew (hsupply x hx), ?_⟩
    rintro a ha rfl
    rcases hproper.kept a ha with ⟨b, hb, hkey, howner⟩ | ⟨hmade, -⟩
    · exact howner ▸ hmay b hb hkey
    · exact absurd (hbefore.mem_iff.mpr (List.mem_append_left _ hmade)) hnew

theorem Kept.run (hmove : ∀ l s, C.Proper l s (move l s).1 (move l s).2) (h : C.Kept p) :
    C.Kept (run (Pool.turn move) p ks) := by
  have hany : Along (Pool.turn move) (fun _ _ => True) p ks :=
    along_of_forall (fun _ _ => trivial) _ _
  exact hany.invariant (fun _ k hp _ => hp.turn hmove k) h

/-- A row that a turn changes or deletes is one that the job may touch. -/
theorem Kept.touched (hmove : ∀ l s, C.Proper l s (move l s).1 (move l s).2) (h : C.Kept p)
    (ha : a ∈ C.rows p.state) (hgone : a ∉ C.rows (p.turn move k).2.state) :
    ∃ l, p.jobs[k]? = some l ∧ C.mayTouch l (C.owner a) := by
  cases hk : p.jobs[k]? with
  | none =>
    rw [turn_none hk] at hgone
    exact absurd ha hgone
  | some l =>
    rw [turn_some hk] at hgone
    refine ⟨l, rfl, ?_⟩
    rcases (hmove l p.state).touched a ha hgone with hmay | hchecked
    · exact hmay
    · exact (h.checked l (List.mem_of_getElem? hk) _ hchecked).2 a ha rfl

/-- A row after a turn had its owner before it, or the job makes it. -/
theorem Kept.next (hmove : ∀ l s, C.Proper l s (move l s).1 (move l s).2) (h : C.Kept p)
    (ha : a ∈ C.rows (p.turn move k).2.state) :
    (∃ b ∈ C.rows p.state, C.key b = C.key a ∧ C.owner b = C.owner a) ∨
      ∃ l, p.jobs[k]? = some l ∧ C.makes l (C.owner a) ∧ C.key a ∉ C.keys p.state := by
  cases hk : p.jobs[k]? with
  | none =>
    rw [turn_none hk] at ha
    exact .inl ⟨a, ha, rfl, rfl⟩
  | some l =>
    rw [turn_some hk] at ha
    rcases (hmove l p.state).kept a ha with hold | ⟨hsupply, hmakes⟩
    · exact .inl hold
    · have hlater : C.key a ∈ p.jobs.flatMap C.supply :=
        List.mem_flatMap.mpr ⟨l, List.mem_of_getElem? hk, hsupply⟩
      exact .inr ⟨l, rfl, hmakes, fun hstored =>
        (List.nodup_append.mp h.nodup).2.2 _ hstored _ hlater rfl⟩

/-- A turn does not give a row to somebody else. -/
theorem Kept.same_owner (hmove : ∀ l s, C.Proper l s (move l s).1 (move l s).2) (h : C.Kept p)
    {b : α} (ha : a ∈ C.rows p.state) (hb : b ∈ C.rows (p.turn move k).2.state)
    (hkey : C.key a = C.key b) : C.owner a = C.owner b := by
  rcases h.next hmove hb with ⟨c, hc, hsame, howner⟩ | ⟨l, -, -, hnew⟩
  · have hnodup : ((C.rows p.state).map C.key).Nodup := (List.nodup_append.mp h.nodup).1
    rw [Rows.eq_of_nodup hnodup ha hc (hkey.trans hsame.symm), howner]
  · exact absurd (hkey ▸ mem_keys ha) hnew

/-- After the run `as`, job `k` makes in its turn the row with the key of `a`, for the same
owner. -/
def Makes (C : Custody L σ α κ ω) (move : L → σ → L × σ) (p : Pool L σ) (as : List Nat) (k : Nat)
    (a : α) : Prop :=
  ∃ l, (ProofKit.run (Pool.turn move) p as).jobs[k]? = some l ∧ C.makes l (C.owner a) ∧
    C.key a ∉ C.keys (ProofKit.run (Pool.turn move) p as).state ∧
    C.key a ∈ C.keys (ProofKit.run (Pool.turn move) p (as ++ [k])).state

theorem Makes.congr {as : List Nat} {b : α} (h : C.Makes move p as k b) (hkey : C.key b = C.key a)
    (howner : C.owner b = C.owner a) : C.Makes move p as k a := by
  rw [Makes, hkey, howner] at h
  exact h

/-- A row after a run had its owner at the start, or was made for him in one of the turns. -/
theorem Kept.origin (hmove : ∀ l s, C.Proper l s (move l s).1 (move l s).2) (h : C.Kept p)
    (ha : a ∈ C.rows (ProofKit.run (Pool.turn move) p ks).state) :
    (∃ b ∈ C.rows p.state, C.key b = C.key a ∧ C.owner b = C.owner a) ∨
      ∃ as k bs, ks = as ++ k :: bs ∧ C.Makes move p as k a := by
  induction ks using List.reverseRecOn generalizing a with
  | nil => exact .inl ⟨a, ha, rfl, rfl⟩
  | append_singleton ks k ih =>
    have hafter := mem_keys ha
    rw [run_append] at ha
    rcases (h.run hmove).next hmove ha with ⟨b, hb, hkey, howner⟩ | ⟨l, hk, hmakes, hnew⟩
    · rcases ih hb with ⟨c, hc, hkey', howner'⟩ | ⟨as, i, bs, rfl, hmade⟩
      · exact .inl ⟨c, hc, hkey'.trans hkey, howner'.trans howner⟩
      · exact .inr ⟨as, i, bs ++ [k], by simp, hmade.congr hkey howner⟩
    · exact .inr ⟨ks, k, [], rfl, l, hk, hmakes, hnew, hafter⟩

end Custody

end ProofKit
