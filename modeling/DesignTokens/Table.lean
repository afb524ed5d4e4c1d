/-!
Tables from names to values that keep the order of first insertion. Writing to a name that is
present replaces its value in place.
-/
namespace DesignTokens

abbrev Table (α : Type) := List (String × α)

namespace Table

variable {α β : Type}

/-- The value under a name. -/
def get? (key : String) : Table α → Option α
  | [] => none
  | (k, v) :: t => if k == key then some v else get? key t

/-- Replaces the value in place, or appends the name. -/
def put (key : String) (v : α) : Table α → Table α
  | [] => [(key, v)]
  | (k, w) :: t => if k == key then (k, v) :: t else (k, w) :: put key v t

/-- Writes the pairs one after the other. -/
def ofPairs (pairs : List (String × α)) : Table α :=
  pairs.foldl (fun t p => put p.1 p.2 t) []

/-- The names in the order of first insertion. -/
def keys (t : Table α) : List String := t.map (·.1)

def values (t : Table α) : List α := t.map (·.2)

def has (key : String) (t : Table α) : Bool := (get? key t).isSome

def mapValues (f : α → β) (t : Table α) : Table β := t.map fun p => (p.1, f p.2)

/-- Removes a name. -/
def erase (key : String) (t : Table α) : Table α := t.filter (·.1 != key)

@[simp] theorem get?_nil (key : String) : get? key ([] : Table α) = none := rfl

theorem get?_cons (key k : String) (v : α) (t : Table α) :
    get? key ((k, v) :: t) = if k == key then some v else get? key t := rfl

@[simp] theorem get?_put_self (key : String) (v : α) (t : Table α) :
    get? key (put key v t) = some v := by
  induction t with
  | nil => simp [put, get?]
  | cons p t ih =>
    obtain ⟨k, w⟩ := p
    by_cases h : k = key <;> simp [put, get?, h, ih]

theorem get?_put_of_ne {key other : String} (h : other ≠ key) (v : α) (t : Table α) :
    get? other (put key v t) = get? other t := by
  induction t with
  | nil => simp [put, get?, Ne.symm h]
  | cons p t ih =>
    obtain ⟨k, w⟩ := p
    by_cases hk : k = key
    · subst hk; simp [put, get?, Ne.symm h]
    · rw [put, if_neg (by simpa using hk), get?_cons, get?_cons, ih]

theorem get?_mapValues (f : α → β) (key : String) (t : Table α) :
    get? key (mapValues f t) = (get? key t).map f := by
  induction t with
  | nil => rfl
  | cons p t ih =>
    obtain ⟨k, w⟩ := p
    simp only [mapValues, List.map_cons, get?] at ih ⊢
    split <;> simp [ih]

/-- A name that is written stands last, unless it was there. -/
theorem keys_put (key : String) (v : α) (t : Table α) :
    keys (put key v t) = if key ∈ keys t then keys t else keys t ++ [key] := by
  induction t with
  | nil => simp [put, keys]
  | cons p t ih =>
    obtain ⟨k, w⟩ := p
    by_cases h : k = key
    · simp [put, keys, h]
    · have h' : ¬key = k := fun e => h e.symm
      simp only [keys] at ih
      by_cases hm : key ∈ t.map (·.1) <;> simp_all [put, keys]

end Table

end DesignTokens
