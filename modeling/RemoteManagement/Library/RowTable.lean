import Mathlib.Data.List.Nodup

/-!
# Tables of rows with an identifier

A table is a list of rows whose identifiers are positive and pairwise
distinct. Both facts are fields, so a table that breaks them cannot be built.
Inserting takes a fresh identifier, and updating may change anything but the
identifier.
-/

namespace RowTable

universe u

structure Table (Row : Type u) (key : Row → Int) where
  rows : List Row
  distinct : (rows.map key).Nodup
  positive : ∀ r ∈ rows, 0 < key r

namespace Table

variable {Row : Type u} {key : Row → Int}

def empty : Table Row key := ⟨[], List.nodup_nil, by simp⟩

def ids (t : Table Row key) : List Int := t.rows.map key

def insert (t : Table Row key) (r : Row) (fresh : key r ∉ t.ids) (positive : 0 < key r) :
    Table Row key where
  rows := t.rows ++ [r]
  distinct := by
    rw [List.map_append, List.nodup_append]
    refine ⟨t.distinct, by simp, ?_⟩
    intro a ha b hb he
    obtain rfl : b = key r := by simpa using hb
    exact fresh (he ▸ ha)
  positive := by
    intro x hx
    rcases List.mem_append.mp hx with hx | hx
    · exact t.positive x hx
    · obtain rfl := List.mem_singleton.mp hx
      exact positive

def update (t : Table Row key) (f : Row → Row) (keeps : ∀ r, key (f r) = key r) :
    Table Row key where
  rows := t.rows.map f
  distinct := by
    have hk : key ∘ f = key := funext keeps
    rw [List.map_map, hk]
    exact t.distinct
  positive := by
    intro x hx
    obtain ⟨r, hr, rfl⟩ := List.mem_map.mp hx
    exact keeps r ▸ t.positive r hr

@[simp] theorem rows_insert (t : Table Row key) (r : Row) (fresh : key r ∉ t.ids)
    (positive : 0 < key r) : (t.insert r fresh positive).rows = t.rows ++ [r] := rfl

@[simp] theorem rows_update (t : Table Row key) (f : Row → Row)
    (keeps : ∀ r, key (f r) = key r) : (t.update f keeps).rows = t.rows.map f := rfl

@[simp] theorem ids_insert (t : Table Row key) (r : Row) (fresh : key r ∉ t.ids)
    (positive : 0 < key r) : (t.insert r fresh positive).ids = t.ids ++ [key r] := by
  simp [ids]

@[simp] theorem ids_update (t : Table Row key) (f : Row → Row)
    (keeps : ∀ r, key (f r) = key r) : (t.update f keeps).ids = t.ids := by
  simp [ids, keeps]

end Table

end RowTable
