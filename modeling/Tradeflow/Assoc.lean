/-
  Finite maps that remember the order in which their keys were first set. `get?` is the one
  view of a map; `set` keeps the place of a key it already has and puts a new key last.
-/

namespace Tradeflow

/-- Key-value pairs in the order of first use of their keys. -/
abbrev Assoc (α : Type) := List (String × α)

namespace Assoc

/-- The value stored under `key`. -/
def get? {α : Type} (m : Assoc α) (key : String) : Option α :=
  match m with
  | [] => none
  | (k, v) :: rest => if k = key then some v else get? rest key

/-- Stores `value` under `key`: in its old place if the key is known, last otherwise. -/
def set {α : Type} (m : Assoc α) (key : String) (value : α) : Assoc α :=
  match m with
  | [] => [(key, value)]
  | (k, v) :: rest => if k = key then (k, value) :: rest else (k, v) :: set rest key value

/-- Applies `f` to the value under `key`, starting from `start` when there is none. -/
def update {α : Type} (m : Assoc α) (key : String) (start : α) (f : α → α) : Assoc α :=
  m.set key (f ((m.get? key).getD start))

/-- Stores the pairs one after the other, so a repeated key keeps its first place and last value. -/
def ofPairs {α : Type} (pairs : List (String × α)) : Assoc α :=
  pairs.foldl (fun m p => m.set p.1 p.2) []

def keys {α : Type} (m : Assoc α) : List String := m.map (·.1)

def has {α : Type} (m : Assoc α) (key : String) : Bool := (m.get? key).isSome

theorem get?_nil {α : Type} (key : String) : get? ([] : Assoc α) key = none := rfl

theorem get?_cons {α : Type} (k key : String) (v : α) (m : Assoc α) :
    get? ((k, v) :: m) key = if k = key then some v else get? m key := rfl

theorem mem_of_get? {α : Type} {m : Assoc α} {key : String} {x : α} (h : get? m key = some x) :
    (key, x) ∈ m := by
  induction m with
  | nil => cases h
  | cons p m ih =>
    rw [get?_cons] at h
    split at h
    case isTrue hkey =>
      cases h
      exact hkey ▸ List.mem_cons_self
    case isFalse => exact List.mem_cons_of_mem _ (ih h)

theorem get?_set {α : Type} (m : Assoc α) (k key : String) (v : α) :
    (m.set k v).get? key = if k = key then some v else m.get? key := by
  induction m with
  | nil => rfl
  | cons p m ih =>
    obtain ⟨k₀, v₀⟩ := p
    by_cases h : k₀ = k
    · subst h; by_cases hk : k₀ = key <;> simp [set, get?, hk]
    · by_cases hk : k = key
      · subst hk; simp [set, get?, h, ih]
      · simp [set, get?, h, ih, hk]

theorem keys_set_of_has {α : Type} (m : Assoc α) (k : String) (v : α) (h : has m k = true) :
    (m.set k v).keys = m.keys := by
  induction m with
  | nil => simp [has, get?] at h
  | cons p m ih =>
    obtain ⟨k₀, v₀⟩ := p
    by_cases hk : k₀ = k
    · simp [set, keys, hk]
    · have : has m k = true := by simpa [has, get?, hk] using h
      simpa [set, keys, hk] using ih this

theorem keys_set_of_not_has {α : Type} (m : Assoc α) (k : String) (v : α) (h : has m k = false) :
    (m.set k v).keys = m.keys ++ [k] := by
  induction m with
  | nil => rfl
  | cons p m ih =>
    obtain ⟨k₀, v₀⟩ := p
    by_cases hk : k₀ = k
    · simp [has, get?, hk] at h
    · have : has m k = false := by simpa [has, get?, hk] using h
      simpa [set, keys, hk] using ih this

end Assoc

end Tradeflow
