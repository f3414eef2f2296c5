import Mathlib.Data.List.Nodup

/-! A table with a primary key: the key column has no repetitions, as a field of
the structure, so that a lookup by key finds the only row there is. -/

structure Table {ρ κ : Type} (key : ρ → κ) where
  rows : List ρ
  unique : (rows.map key).Nodup

namespace Table

variable {ρ κ : Type} {key : ρ → κ} [DecidableEq κ]

def empty : Table key := ⟨[],List.nodup_nil⟩

def find (t : Table key) (k : κ) : Option ρ := t.rows.find? fun r => key r = k

/-- INSERT: refused when the key is taken. -/
def insert (t : Table key) (r : ρ) : Option (Table key) :=
  if h : key r ∈ t.rows.map key then none
  else some ⟨r :: t.rows,by simpa using ⟨by simpa using h,t.unique⟩⟩

/-- UPDATE of one row: `r` takes the place of the row with its key, if there is one. -/
def replace (t : Table key) (r : ρ) : Table key where
  rows := t.rows.map fun x => if key x = key r then r else x
  unique := by
    have same : (t.rows.map fun x => if key x = key r then r else x).map key = t.rows.map key := by
      rw [List.map_map]
      apply List.map_congr_left
      intro x _
      by_cases here : key x = key r <;> simp [here]
    exact same ▸ t.unique

theorem rows_insert {t t' : Table key} {r : ρ} (done : t.insert r = some t') : t'.rows = r :: t.rows := by
  unfold insert at done
  split at done
  · contradiction
  · exact (Option.some.inj done) ▸ rfl

/-- Nothing is refused whose key is not taken. -/
theorem insert_some {t : Table key} {r : ρ} (absent : t.find (key r) = none) : t.insert r ≠ none := by
  have free : key r ∉ t.rows.map key := by
    intro taken
    obtain ⟨x,member,same⟩ := List.mem_map.mp taken
    simpa [same] using List.find?_eq_none.mp absent x member
  simp [insert,free]

@[simp] theorem find_empty (k : κ) : (empty : Table key).find k = none := rfl

theorem find_key {t : Table key} {k : κ} {r : ρ} (found : t.find k = some r) : key r = k := by
  simpa using List.find?_some found

theorem find_mem {t : Table key} {k : κ} {r : ρ} (found : t.find k = some r) : r ∈ t.rows :=
  List.mem_of_find?_eq_some found

private theorem find_of_mem {rows : List ρ} (unique : (rows.map key).Nodup) {r : ρ}
    (member : r ∈ rows) : rows.find? (fun x => key x = key r) = some r := by
  induction rows with
  | nil => simp at member
  | cons head tail ih =>
    rw [List.map_cons,List.nodup_cons] at unique
    rcases List.mem_cons.mp member with rfl | inside
    · simp
    · have different : key head ≠ key r := by
        intro same
        exact unique.1 (same ▸ List.mem_map_of_mem inside)
      simpa [List.find?_cons,different] using ih unique.2 inside

theorem mem_iff_find {t : Table key} {r : ρ} : r ∈ t.rows ↔ t.find (key r) = some r :=
  ⟨fun member => find_of_mem t.unique member,find_mem⟩

theorem insert_fresh {t t' : Table key} {r : ρ} (done : t.insert r = some t') :
    t.find (key r) = none := by
  unfold insert at done
  split at done
  · simp at done
  · next absent =>
    simp only [List.mem_map,not_exists,not_and] at absent
    simpa [find] using absent

theorem find_insert {t t' : Table key} {r : ρ} (done : t.insert r = some t') (k : κ) :
    t'.find k = if k = key r then some r else t.find k := by
  unfold insert at done
  split at done
  · simp at done
  · obtain rfl := Option.some.inj done
    by_cases same : k = key r
    · simp [find,same]
    · simp [find,same,Ne.symm same]

theorem find_replace (t : Table key) (r : ρ) (k : κ) :
    (t.replace r).find k = if k = key r then (t.find k).map fun _ => r else t.find k := by
  simp only [find,replace]
  induction t.rows with
  | nil => simp
  | cons head tail ih =>
    by_cases here : key head = key r
    · by_cases wanted : key r = k
      · simp [here,wanted]
      · simpa [here,wanted,Ne.symm wanted] using ih
    · by_cases wanted : key head = k
      · have other : ¬k = key r := fun equal => here (wanted.trans equal)
        simp [wanted,other]
      · simpa [here,wanted] using ih

end Table
