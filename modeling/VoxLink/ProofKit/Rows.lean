import Mathlib.Data.List.Nodup
import Mathlib.Tactic

/-! Tables as lists of rows. A query without an order returns its rows in an order the database
chooses, so a query for one row takes the number `k` of the row it returns among those that
match. -/

namespace ProofKit.Rows

variable {α β γ : Type}

/-- The row that a query for one row with `p` returns, when the database returns match `k`
first. -/
def pick (k : Nat) (p : α → Bool) (rows : List α) : Option α :=
  (rows.filter p)[k % (rows.filter p).length]?

/-- Rows with `p` are replaced by `f` of them. -/
def modify (p : α → Bool) (f : α → α) (rows : List α) : List α :=
  rows.map fun r => if p r then f r else r

/-- Rows with `p` are deleted. -/
def remove (p : α → Bool) (rows : List α) : List α := rows.filter fun r => !p r

variable {k : Nat} {p q : α → Bool} {f : α → α} {rows : List α} {a b : α}

theorem pick_some (h : pick k p rows = some a) : a ∈ rows ∧ p a = true :=
  List.mem_filter.mp (List.mem_of_getElem? h)

theorem pick_eq_none : pick k p rows = none ↔ ∀ a ∈ rows, p a = false := by
  constructor
  · intro h
    rw [pick, List.getElem?_eq_none_iff] at h
    have hempty : (rows.filter p).length = 0 := by
      by_contra hne
      have := Nat.mod_lt k (Nat.pos_of_ne_zero hne)
      omega
    simpa [List.filter_eq_nil_iff] using List.eq_nil_of_length_eq_zero hempty
  · intro h
    have hempty : rows.filter p = [] := by simpa [List.filter_eq_nil_iff] using h
    simp [pick, hempty]

/-- A query for one row returns a row as soon as one matches. -/
theorem exists_pick (ha : a ∈ rows) (hp : p a = true) : ∃ b, pick k p rows = some b := by
  cases h : pick k p rows with
  | some b => exact ⟨b, rfl⟩
  | none =>
    have := pick_eq_none.mp h a ha
    simp [hp] at this

theorem mem_modify : b ∈ modify p f rows ↔ ∃ a ∈ rows, (if p a then f a else a) = b := by
  simp [modify]

theorem mem_remove : a ∈ remove p rows ↔ a ∈ rows ∧ p a = false := by
  simp [remove]

/-- A column that `f` keeps is unchanged. -/
theorem map_modify {c : α → β} (h : ∀ a, p a = true → c (f a) = c a) :
    (modify p f rows).map c = rows.map c := by
  simp only [modify, List.map_map]
  refine List.map_congr_left fun a _ => ?_
  simp only [Function.comp_apply]
  split
  · exact h a ‹_›
  · rfl

theorem subset_modify {c : α → β} (h : ∀ a, p a = true → c (f a) = c a) :
    rows.map c ⊆ (modify p f rows).map c := by
  rw [map_modify h]
  exact List.Subset.refl _

theorem subset_append {c : α → β} {new : List α} : rows.map c ⊆ (rows ++ new).map c := by
  rw [List.map_append]
  exact List.subset_append_left _ _

theorem nodup_modify {c : α → β} (h : (rows.map c).Nodup) (hf : ∀ a, p a = true → c (f a) = c a) :
    ((modify p f rows).map c).Nodup := by
  rw [map_modify hf]
  exact h

/-- A selection that `f` respects selects the modified rows. -/
theorem filter_modify (h : ∀ a, p a = true → q (f a) = q a) :
    (modify p f rows).filter q = modify p f (rows.filter q) := by
  simp only [modify, List.filter_map]
  congr 1
  refine List.filter_congr fun a _ => ?_
  simp only [Function.comp_apply]
  split
  · exact h a ‹_›
  · rfl

/-- The row with a key, after an update that keeps keys. -/
theorem find?_modify_map [DecidableEq β] {c : α → β} {k : β} (hf : ∀ a, c (f a) = c a) :
    (modify p f rows).find? (c · = k) =
      (rows.find? (c · = k)).map fun r => if p r then f r else r := by
  rw [modify, List.find?_map]
  congr 2
  funext r
  simp only [Function.comp_apply]
  split
  · rw [hf]
  · rfl

/-- The row that an update by key has changed. -/
theorem find?_modify [DecidableEq β] {c : α → β} {k : β} (hf : ∀ a, c (f a) = c a)
    (ha : rows.find? (c · = k) = some a) :
    (modify (c · = k) f rows).find? (c · = k) = some (f a) := by
  have hk : c a = k := by simpa using List.find?_some ha
  rw [find?_modify_map hf, ha, Option.map_some, if_pos (by simpa using hk)]

theorem modify_eq_self_iff : modify p f rows = rows ↔ ∀ a ∈ rows, p a = true → f a = a := by
  have hid : rows = rows.map id := by simp
  rw [modify]
  conv_lhs => rhs; rw [hid]
  rw [List.map_inj_left]
  refine forall₂_congr fun a _ => ?_
  cases p a <;> simp

/-- A selection whose rows `f` leaves alone. -/
theorem filter_map_eq (hq : ∀ a ∈ rows, q (f a) = q a) (hf : ∀ a ∈ rows, q a = true → f a = a) :
    (rows.map f).filter q = rows.filter q := by
  induction rows with
  | nil => rfl
  | cons a rows ih =>
    have hrest := ih (fun b hb => hq b (List.mem_cons_of_mem _ hb))
      fun b hb => hf b (List.mem_cons_of_mem _ hb)
    have ha := List.mem_cons_self (a := a) (l := rows)
    rw [List.map_cons, List.filter_cons, List.filter_cons, hrest, hq a ha]
    split
    · rw [hf a ha ‹_›]
    · rfl

/-- Rows outside the changed ones are selected as before. -/
theorem filter_modify_disjoint
    (hq : ∀ a ∈ rows, p a = true → q a = false ∧ q (f a) = false) :
    (modify p f rows).filter q = rows.filter q := by
  refine filter_map_eq ?_ ?_
  · intro a ha
    split
    · rw [(hq a ha ‹_›).1, (hq a ha ‹_›).2]
    · rfl
  · intro a ha hqa
    split
    · rw [(hq a ha ‹_›).1] at hqa
      exact nomatch hqa
    · rfl

theorem filter_remove_disjoint (hq : ∀ a ∈ rows, p a = true → q a = false) :
    (remove p rows).filter q = rows.filter q := by
  simp only [remove, List.filter_filter]
  refine List.filter_congr fun a ha => ?_
  cases hp : p a
  · simp
  · simp [hq a ha hp]

theorem filter_append_of_not {new : List α} (hnew : ∀ a ∈ new, q a = false) :
    (rows ++ new).filter q = rows.filter q := by
  have hnil : new.filter q = [] := List.filter_eq_nil_iff.mpr fun a ha => by simp [hnew a ha]
  rw [List.filter_append, hnil, List.append_nil]

theorem remove_sublist : (remove p rows).Sublist rows := List.filter_sublist

theorem nodup_remove {c : α → β} (h : (rows.map c).Nodup) : ((remove p rows).map c).Nodup :=
  h.sublist (remove_sublist.map c)

/-! ### Rows by group -/

theorem filter_append_disjoint (hpq : ∀ a ∈ rows, p a = true → q a = false) :
    (rows.filter p ++ rows.filter q).Perm (rows.filter fun a => p a || q a) := by
  have hsplit := List.filter_append_perm p (rows.filter fun a => p a || q a)
  have hleft : (rows.filter fun a => p a || q a).filter p = rows.filter p := by
    rw [List.filter_filter]
    refine List.filter_congr fun a _ => ?_
    cases p a <;> simp
  have hright : (rows.filter fun a => p a || q a).filter (fun a => !p a) = rows.filter q := by
    rw [List.filter_filter]
    refine List.filter_congr fun a ha => ?_
    cases hp : p a
    · simp
    · simp [hpq a ha hp]
  rw [hleft, hright] at hsplit
  exact hsplit

/-- The rows with one of the keys `ks` in the column `c`, taken key by key. -/
theorem flatMap_filter_perm [DecidableEq β] {c : α → Option β} {ks : List β} (hks : ks.Nodup) :
    (ks.flatMap fun k => rows.filter (c · = some k)).Perm
      (rows.filter fun a => ks.any (c a = some ·)) := by
  induction ks with
  | nil => simp
  | cons k ks ih =>
    obtain ⟨hk, hks⟩ := List.nodup_cons.mp hks
    rw [List.flatMap_cons]
    have hdisjoint : ∀ a ∈ rows, decide (c a = some k) = true → ks.any (c a = some ·) = false := by
      intro a _ ha
      simp only [decide_eq_true_eq] at ha
      simp only [ha, List.any_eq_false, decide_eq_true_eq, Option.some.injEq]
      exact fun k' hk' heq => hk (heq ▸ hk')
    refine ((ih hks).append_left _).trans ?_
    simpa only [List.any_cons] using filter_append_disjoint hdisjoint

/-- In a table without duplicates in the column `c`, two rows with one value in `c` are one
row. -/
theorem eq_of_nodup {c : α → β} (h : (rows.map c).Nodup) (ha : a ∈ rows) (hb : b ∈ rows)
    (hab : c a = c b) : a = b :=
  List.inj_on_of_nodup_map h ha hb hab

/-- A column without repetitions finds each row by its value. -/
theorem find?_of_nodup [DecidableEq β] {c : α → β} (h : (rows.map c).Nodup) (ha : a ∈ rows) :
    rows.find? (c · = c a) = some a := by
  cases hfound : rows.find? (c · = c a) with
  | none => simpa using List.find?_eq_none.mp hfound a ha
  | some b =>
    have hb : c b = c a := by simpa using List.find?_some hfound
    rw [eq_of_nodup h (List.mem_of_find?_eq_some hfound) ha hb]

/-- What only the rows with `a`'s key make comes from `a`. -/
theorem count_flatMap [DecidableEq γ] {c : α → β} {f : α → List γ} {x : γ}
    (h : (rows.map c).Nodup) (ha : a ∈ rows) (hf : ∀ b, c b ≠ c a → x ∉ f b) :
    (rows.flatMap f).count x = (f a).count x := by
  induction rows with
  | nil => exact nomatch ha
  | cons b rows ih =>
    obtain ⟨hb, hrows⟩ := List.nodup_cons.mp h
    rw [List.flatMap_cons, List.count_append]
    rcases List.mem_cons.mp ha with rfl | ha
    · have hrest : (rows.flatMap f).count x = 0 := by
        rw [List.count_eq_zero, List.mem_flatMap]
        rintro ⟨b, hmem, hx⟩
        exact hf b (fun heq => hb (heq ▸ List.mem_map_of_mem hmem)) hx
      omega
    · have hfirst : (f b).count x = 0 := by
        rw [List.count_eq_zero]
        exact hf b fun heq => hb (heq ▸ List.mem_map_of_mem ha)
      have := ih hrows ha
      omega

theorem nodup_append_of_fresh {c : α → β} {new : List α} (h : (rows.map c).Nodup)
    (hnew : (new.map c).Nodup) (hfresh : ∀ a ∈ new, c a ∉ rows.map c) :
    ((rows ++ new).map c).Nodup := by
  rw [List.map_append, List.nodup_append]
  refine ⟨h, hnew, ?_⟩
  intro x hx y hy hxy
  obtain ⟨a, ha, rfl⟩ := List.mem_map.mp hy
  exact hfresh a ha (hxy ▸ hx)

/-! ### Lists of keys -/

theorem eraseDups_of_nodup [DecidableEq β] {ks : List β} (h : ks.Nodup) : ks.eraseDups = ks := by
  induction ks with
  | nil => rfl
  | cons k ks ih =>
    obtain ⟨hk, hks⟩ := List.nodup_cons.mp h
    have hkept : ks.filter (fun k' => !k' == k) = ks := by
      refine List.filter_eq_self.mpr fun k' hk' => ?_
      have hne : k' ≠ k := fun heq => hk (heq ▸ hk')
      simpa using hne
    rw [List.eraseDups_cons, hkept, ih hks]

theorem nodup_eraseDups [DecidableEq β] (ks : List β) : ks.eraseDups.Nodup := by
  induction hn : ks.length using Nat.strong_induction_on generalizing ks with
  | _ n ih =>
    cases ks with
    | nil => exact List.nodup_nil
    | cons k ks =>
      have hshorter : (ks.filter fun k' => !k' == k).length < n := by
        have := List.length_filter_le (fun k' => !k' == k) ks
        rw [List.length_cons] at hn
        omega
      rw [List.eraseDups_cons, List.nodup_cons]
      exact ⟨by simp [List.mem_eraseDups], ih _ hshorter _ rfl⟩

/-- A key that is there already is not added. -/
theorem eraseDups_append_mem [DecidableEq β] {ks : List β} {k : β} (h : ks.Nodup) (hk : k ∈ ks) :
    (ks ++ [k]).eraseDups = ks := by
  have hnil : [k].removeAll ks = [] := by simp [List.removeAll, hk]
  rw [List.eraseDups_append, hnil, eraseDups_of_nodup h, List.eraseDups_nil, List.append_nil]

end ProofKit.Rows
