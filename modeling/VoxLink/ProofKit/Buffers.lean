import Mathlib.Algebra.BigOperators.Group.List.Basic
import Mathlib.Tactic

/-! Buffers that are written over: pieces that are moved down to an earlier place one after another,
and so over each other. -/

namespace VoxLink

namespace Buffer

variable {β : Type}

/-- The items `xs` written from `dst` on. -/
def store (buffer : List β) (dst : Nat) (xs : List β) : List β :=
  buffer.take dst ++ (xs ++ buffer.drop (dst + xs.length))

/-- The `n` items from `src` on. -/
def piece (buffer : List β) (src n : Nat) : List β := (buffer.drop src).take n

/-- The pieces at the places, written one after another from `dst` on. -/
def moveAll : List β → Nat → List (Nat × Nat) → List β
  | buffer, _, [] => buffer
  | buffer, dst, (src, n) :: places =>
    moveAll (store buffer dst (piece buffer src n)) (dst + n) places

/-- The places of pieces of these lengths that follow each other from `src` on. -/
def placesFrom : Nat → List Nat → List (Nat × Nat)
  | _, [] => []
  | src, n :: ns => (src, n) :: placesFrom (src + n) ns

variable {buffer xs ys : List β} {dst src n : Nat} {ns : List Nat}

theorem map_snd_placesFrom : (placesFrom src ns).map Prod.snd = ns := by
  induction ns generalizing src with
  | nil => rfl
  | cons n ns ih => rw [placesFrom, List.map_cons, ih]

theorem length_piece (h : src + n ≤ buffer.length) : (piece buffer src n).length = n := by
  rw [piece, List.length_take, List.length_drop]
  omega

theorem length_store (h : dst + xs.length ≤ buffer.length) :
    (store buffer dst xs).length = buffer.length := by
  rw [store, List.length_append, List.length_append, List.length_take, List.length_drop]
  omega

/-- What stands before the items that are written. -/
theorem take_store (h : dst ≤ buffer.length) :
    (store buffer dst xs).take dst = buffer.take dst := by
  rw [store]
  exact List.take_left' (by rw [List.length_take, Nat.min_eq_left h])

/-- What stands from the items that are written on. -/
theorem drop_store (h : dst ≤ buffer.length) :
    (store buffer dst xs).drop dst = xs ++ buffer.drop (dst + xs.length) := by
  rw [store]
  exact List.drop_left' (by rw [List.length_take, Nat.min_eq_left h])

/-- What stands behind the items that are written stays. -/
theorem drop_store_of_le (h : dst ≤ buffer.length) (hsrc : dst + xs.length ≤ src) :
    (store buffer dst xs).drop src = buffer.drop src := by
  obtain ⟨n, rfl⟩ := Nat.exists_eq_add_of_le hsrc
  rw [Nat.add_assoc, ← List.drop_drop, drop_store h, List.drop_length_add_append, List.drop_drop,
    ← Nat.add_assoc]

theorem piece_store_of_le (h : dst ≤ buffer.length) (hsrc : dst + xs.length ≤ src) :
    piece (store buffer dst xs) src n = piece buffer src n := by
  rw [piece, drop_store_of_le h hsrc, piece]

theorem take_store_of_before (hn : n ≤ dst) (h : dst ≤ buffer.length) :
    (store buffer dst xs).take n = buffer.take n := by
  have htake : ∀ l : List β, l.take n = (l.take dst).take n := by
    intro l
    rw [List.take_take, Nat.min_eq_left hn]
  rw [htake, take_store h, ← htake]

/-- The items that have been written, with those before them. -/
theorem take_store_add (h : dst ≤ buffer.length) :
    (store buffer dst xs).take (dst + xs.length) = buffer.take dst ++ xs := by
  rw [store, ← List.append_assoc]
  exact List.take_left' (by rw [List.length_append, List.length_take, Nat.min_eq_left h])

theorem store_nil : store buffer dst [] = buffer := by
  rw [store, List.nil_append, List.length_nil, Nat.add_zero, List.take_append_drop]

/-- Items that are written behind those that have just been written. -/
theorem store_store (h : dst + xs.length ≤ buffer.length) :
    store (store buffer dst xs) (dst + xs.length) ys = store buffer dst (xs ++ ys) := by
  have hbefore : (store buffer dst xs).take (dst + xs.length) = buffer.take dst ++ xs :=
    take_store_add (by omega)
  have hbehind : (store buffer dst xs).drop (dst + xs.length + ys.length) =
      buffer.drop (dst + xs.length + ys.length) := drop_store_of_le (by omega) (by omega)
  rw [store, hbefore, hbehind, store, List.length_append, List.append_assoc, List.append_assoc,
    Nat.add_assoc]

/-- Pieces that follow each other and are moved down one by one are moved as a whole: none is
written over before it has been moved. -/
theorem moveAll_placesFrom (hdown : dst ≤ src) (h : src + ns.sum ≤ buffer.length) :
    moveAll buffer dst (placesFrom src ns) = store buffer dst (piece buffer src ns.sum) := by
  induction ns generalizing buffer dst src with
  | nil =>
    rw [List.sum_nil, piece, List.take_zero, store_nil]
    rfl
  | cons n ns ih =>
    rw [List.sum_cons] at h ⊢
    have hpiece : (piece buffer src n).length = n := length_piece (by omega)
    have hlength : (store buffer dst (piece buffer src n)).length = buffer.length :=
      length_store (by omega)
    have hrest : piece (store buffer dst (piece buffer src n)) (src + n) ns.sum =
        piece buffer (src + n) ns.sum := piece_store_of_le (by omega) (by omega)
    have hsplit : piece buffer src (n + ns.sum) =
        piece buffer src n ++ piece buffer (src + n) ns.sum := by
      rw [piece, List.take_add, List.drop_drop]
      rfl
    have hnext : store (store buffer dst (piece buffer src n)) (dst + n)
      (piece buffer (src + n) ns.sum) =
        store buffer dst (piece buffer src n ++ piece buffer (src + n) ns.sum) := by
      have hwritten : store (store buffer dst (piece buffer src n))
        (dst + (piece buffer src n).length)
          (piece buffer (src + n) ns.sum) =
            store buffer dst (piece buffer src n ++ piece buffer (src + n) ns.sum) :=
        store_store (by omega)
      rwa [hpiece] at hwritten
    rw [placesFrom, moveAll, ih (by omega) (by omega), hrest, hnext, hsplit]

end Buffer

end VoxLink
