/-!
# Tables

A table gives values to names and remembers the order in which the names arrived. Setting a name
that is already there changes its value and leaves it in its place.

## Main definitions

* `Table`: names with values, in order of arrival
* `Table.get?`, `Table.set`: reading and writing one name
* `Table.ofPairs`: the table written by a list of pairs, the last value of a name winning

## Main results

* `Table.get?_set`: a name has the value that was set last
* `Table.ofPairs_eq_self`: pairs with different names are a table as they stand
-/

namespace Propositional

/-- Names with values, in order of arrival. -/
abbrev Table (α : Type) := List (String × α)

namespace Table

variable {α : Type}

/-- The value of a name. -/
def get? (t : Table α) (name : String) : Option α :=
  t.lookup name

/-- Whether a name has a value. -/
def has (t : Table α) (name : String) : Bool :=
  (t.get? name).isSome

/-- The names in order. -/
def names (t : Table α) : List String :=
  t.map Prod.fst

/-- Gives a name a value, in its place if it has one and at the end if not. -/
def set : Table α → String → α → Table α
  | [], name, a => [(name, a)]
  | (n, b) :: t, name, a => if n = name then (n, a) :: t else (n, b) :: set t name a

/-- The table written by a list of pairs, one after the other. -/
def ofPairs (pairs : List (String × α)) : Table α :=
  pairs.foldl (fun t p => t.set p.1 p.2) []

@[simp] theorem get?_nil (name : String) : get? ([] : Table α) name = none := rfl

theorem get?_cons (n name : String) (a : α) (t : Table α) :
    get? ((n, a) :: t) name = if name = n then some a else get? t name := by
  by_cases h : name = n
  · simp [get?, h]
  · have hb : (name == n) = false := by simp [h]
    simp [get?, List.lookup_cons, hb, h]

/-- A name has the value that was set last. -/
theorem get?_set (t : Table α) (n name : String) (a : α) :
    (t.set n a).get? name = if name = n then some a else t.get? name := by
  induction t with
  | nil => simp [set, get?_cons]
  | cons p t ih =>
    obtain ⟨m, b⟩ := p
    by_cases hm : m = n
    · subst hm
      by_cases h : name = m <;> simp [set, get?_cons, h]
    · by_cases h : name = m
      · subst h
        simp [set, hm, get?_cons]
      · simp [set, hm, get?_cons, h, ih]

/-- A new name goes to the end. -/
theorem set_eq_append {t : Table α} {n : String} (h : n ∉ t.names) (a : α) :
    t.set n a = t ++ [(n, a)] := by
  induction t with
  | nil => rfl
  | cons p t ih =>
    obtain ⟨m, b⟩ := p
    simp only [names, List.map_cons, List.mem_cons, not_or] at h
    rw [set, if_neg (Ne.symm h.1), ih h.2, List.cons_append]

/-- Setting a name adds it if it is new and changes no other name. -/
theorem names_set (t : Table α) (n : String) (a : α) :
    (t.set n a).names = if n ∈ t.names then t.names else t.names ++ [n] := by
  induction t with
  | nil => simp [set, names]
  | cons p t ih =>
    obtain ⟨m, b⟩ := p
    by_cases hm : m = n
    · simp [set, names, hm]
    · have hn : n ≠ m := Ne.symm hm
      simp only [names] at ih
      by_cases h : n ∈ t.map Prod.fst <;> simp [set, names, hm, hn, ih, h]

theorem foldl_set_eq_append (t : Table α) (pairs : List (String × α))
    (h : (t.names ++ pairs.map Prod.fst).Nodup) :
    pairs.foldl (fun t p => t.set p.1 p.2) t = t ++ pairs := by
  induction pairs generalizing t with
  | nil => simp
  | cons p ps ih =>
    have hp : p.1 ∉ t.names := by
      intro hmem
      exact (List.nodup_append.1 h).2.2 _ hmem _ (by simp) rfl
    rw [List.foldl_cons, set_eq_append hp, ih]
    · simp
    · simpa [names, List.append_assoc] using h

/-- Pairs with different names are a table as they stand. -/
theorem ofPairs_eq_self {pairs : List (String × α)} (h : (pairs.map Prod.fst).Nodup) :
    ofPairs pairs = pairs := by
  simpa [ofPairs] using foldl_set_eq_append [] pairs (by simpa [names] using h)

end Table

end Propositional
