import Mathlib.Tactic

/-! A store of keys whose entries may expire. Times are in milliseconds, lifetimes in seconds. -/

namespace ProofKit

/-- A stored value and the time from which it is gone, if there is one. -/
structure Entry (ν : Type) where
  value : ν
  deadline : Option Nat
deriving DecidableEq, Repr

/-- Whether the entry is still there at time `now`. -/
def Entry.live {ν : Type} (now : Nat) (e : Entry ν) : Bool :=
  match e.deadline with
  | none => true
  | some t => now < t

abbrev Keyspace (κ ν : Type) := List (κ × Entry ν)

namespace Keyspace

variable {κ ν : Type} [DecidableEq κ]

/-- The live entry of a key. -/
def entry (now : Nat) (key : κ) (m : Keyspace κ ν) : Option (Entry ν) :=
  (m.find? fun e => e.1 = key ∧ e.2.live now).map (·.2)

/-- The value of a key. -/
def get (now : Nat) (key : κ) (m : Keyspace κ ν) : Option ν := (entry now key m).map (·.value)

/-- The keys with a live entry. -/
def keys (now : Nat) (m : Keyspace κ ν) : List κ := (m.filter (·.2.live now)).map (·.1)

/-- Removes a key. -/
def del (key : κ) (m : Keyspace κ ν) : Keyspace κ ν := m.filter fun e => e.1 ≠ key

/-- Stores `v` under `key` in place of what was there. -/
def put (key : κ) (v : ν) (deadline : Option Nat) (m : Keyspace κ ν) : Keyspace κ ν :=
  (key, ⟨v, deadline⟩) :: del key m

/-- The remaining lifetime of a key in whole seconds, rounded to the nearest: -1 when it does not
expire, -2 when there is no such key. -/
def ttl (now : Nat) (key : κ) (m : Keyspace κ ν) : Int :=
  match entry now key m with
  | none => -2
  | some e =>
    match e.deadline with
    | none => -1
    | some t => ((t - now + 500) / 1000 : Nat)

/-! ### Reading after writing -/

variable {m : Keyspace κ ν} {key key' : κ} {v : ν} {now : Nat}

theorem entry_del_of_ne (h : key' ≠ key) : entry now key' (del key m) = entry now key' m := by
  unfold entry del
  rw [List.find?_filter]
  congr 1
  apply List.find?_congr
  intro e _
  by_cases hkey : e.1 = key'
  · simp [hkey, h]
  · simp [hkey]

theorem get_del_of_ne (h : key' ≠ key) : get now key' (del key m) = get now key' m := by
  rw [get, entry_del_of_ne h, get]

theorem get_del : get now key (del key m) = none := by
  unfold get entry del
  rw [List.find?_filter, List.find?_eq_none.mpr]
  · rfl
  · intro e _
    simp only [ne_eq, decide_not, Bool.not_eq_true']
    by_cases hkey : e.1 = key <;> simp [hkey]

theorem entry_put {deadline : Option Nat} (h : (⟨v, deadline⟩ : Entry ν).live now = true) :
    entry now key (put key v deadline m) = some ⟨v, deadline⟩ := by
  simp [entry, put, h]

theorem get_put (m : Keyspace κ ν) : get now key (put key v none m) = some v := by
  rw [get, entry_put rfl]
  rfl

theorem entry_put_of_ne {deadline : Option Nat} (h : key' ≠ key) :
    entry now key' (put key v deadline m) = entry now key' m := by
  rw [← entry_del_of_ne (m := m) h]
  unfold entry put
  rw [List.find?_cons_of_neg]
  simp [h.symm]

theorem get_put_of_ne {deadline : Option Nat} (h : key' ≠ key) :
    get now key' (put key v deadline m) = get now key' m := by
  rw [get, entry_put_of_ne h, get]

/-- What is stored under a key, live or not. -/
def slots (key : κ) (m : Keyspace κ ν) : Keyspace κ ν := m.filter (·.1 = key)

theorem slots_del_of_ne (h : key' ≠ key) : slots key' (del key m) = slots key' m := by
  rw [slots, del, List.filter_filter, slots]
  apply List.filter_congr
  intro e _
  by_cases hkey : e.1 = key'
  · simp [hkey, h]
  · simp [hkey]

theorem slots_put_of_ne {deadline : Option Nat} (h : key' ≠ key) :
    slots key' (put key v deadline m) = slots key' m := by
  rw [put, slots, List.filter_cons_of_neg (by simpa using h.symm)]
  exact slots_del_of_ne h

theorem slots_put {deadline : Option Nat} :
    slots key (put key v deadline m) = [(key, ⟨v, deadline⟩)] := by
  rw [put, slots, List.filter_cons_of_pos (by simp), del, List.filter_filter]
  simp

theorem entry_of_slots (now : Nat) {e : Entry ν} (h : slots key m = [(key, e)]) :
    entry now key m = if e.live now then some e else none := by
  have hentry : entry now key m = ((slots key m).find? (·.2.live now)).map (·.2) := by
    rw [entry, slots, List.find?_filter]
    congr 2
    funext e
    simp
  rw [hentry, h, List.find?_singleton]
  split <;> rfl

/-- A key with a value is among the keys. -/
theorem mem_keys (h : get now key m = some v) : key ∈ keys now m := by
  obtain ⟨entry, hentry, -⟩ := Option.map_eq_some_iff.mp h
  obtain ⟨e, he, rfl⟩ := Option.map_eq_some_iff.mp hentry
  have hlive : e.1 = key ∧ e.2.live now = true := by simpa using List.find?_some he
  exact List.mem_map.mpr ⟨e, List.mem_filter.mpr ⟨List.mem_of_find?_eq_some he, hlive.2⟩, hlive.1⟩

/-! ### The keys of all entries -/

/-- The keys with an entry, live or not. -/
def names (m : Keyspace κ ν) : List κ := m.map (·.1)

theorem names_del : names (del key m) = (names m).filter (· ≠ key) := by
  rw [names, names, del, List.filter_map]
  rfl

theorem names_put {deadline : Option Nat} :
    names (put key v deadline m) = key :: (names m).filter (· ≠ key) := by
  rw [← names_del]
  rfl

omit [DecidableEq κ] in
theorem keys_sublist_names : (keys now m).Sublist (names m) := List.filter_sublist.map _

theorem mem_names_of_get (h : get now key m = some v) : key ∈ names m :=
  keys_sublist_names.subset (mem_keys h)

end Keyspace

end ProofKit
