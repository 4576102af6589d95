/-!
Finite tables. A table lists its entries, no key twice; replacing a value keeps the place of the
entry and a new key goes to the end.
-/

namespace EventSourcing

/-- The entries after `k` has been given the value `v`. -/
def assign {κ ν : Type} [DecidableEq κ] (k : κ) (v : ν) : List (κ × ν) → List (κ × ν)
  | [] => [(k, v)]
  | e :: rest => if e.1 = k then (k, v) :: rest else e :: assign k v rest

theorem mem_keys_assign {κ ν : Type} [DecidableEq κ] {k x : κ} {v : ν} {es : List (κ × ν)} :
    x ∈ (assign k v es).map Prod.fst ↔ x = k ∨ x ∈ es.map Prod.fst := by
  induction es with
  | nil => simp [assign]
  | cons e rest ih =>
    unfold assign
    split
    · next h => subst h; simp
    · simp only [List.map_cons, List.mem_cons, ih]
      constructor <;> rintro (h | h | h) <;> simp [h]

theorem nodup_keys_assign {κ ν : Type} [DecidableEq κ] {k : κ} {v : ν} {es : List (κ × ν)}
    (h : (es.map Prod.fst).Nodup) : ((assign k v es).map Prod.fst).Nodup := by
  induction es with
  | nil => simp [assign]
  | cons e rest ih =>
    rw [List.map_cons, List.nodup_cons] at h
    unfold assign
    split
    · next he => subst he; simpa using h
    · next he =>
      rw [List.map_cons, List.nodup_cons, mem_keys_assign]
      exact ⟨fun hm => hm.elim he h.1, ih h.2⟩

structure Table (κ ν : Type) where
  entries : List (κ × ν)
  distinct : (entries.map Prod.fst).Nodup

namespace Table

variable {κ ν : Type}

def empty : Table κ ν := ⟨[], by simp⟩

def keys (t : Table κ ν) : List κ := t.entries.map Prod.fst

def values (t : Table κ ν) : List ν := t.entries.map Prod.snd

variable [DecidableEq κ]

def get? (t : Table κ ν) (k : κ) : Option ν := (t.entries.find? (·.1 = k)).map Prod.snd

def contains (t : Table κ ν) (k : κ) : Bool := (t.get? k).isSome

def insert (t : Table κ ν) (k : κ) (v : ν) : Table κ ν :=
  ⟨assign k v t.entries, nodup_keys_assign t.distinct⟩

def erase (t : Table κ ν) (k : κ) : Table κ ν :=
  ⟨t.entries.filter (·.1 ≠ k),
    t.distinct.sublist (List.Sublist.map Prod.fst List.filter_sublist)⟩

def map {μ : Type} (f : ν → μ) (t : Table κ ν) : Table κ μ :=
  ⟨t.entries.map fun e => (e.1, f e.2), by simpa [Function.comp_def] using t.distinct⟩

/-- Later entries of the list win over earlier ones with the same key. -/
def ofList (es : List (κ × ν)) : Table κ ν := es.foldl (fun t e => t.insert e.1 e.2) empty

theorem find?_assign (k x : κ) (v : ν) (es : List (κ × ν)) :
    ((assign k v es).find? (·.1 = x)).map Prod.snd =
      if k = x then some v else (es.find? (·.1 = x)).map Prod.snd := by
  induction es with
  | nil => by_cases h : k = x <;> simp [assign, h]
  | cons e rest ih =>
    unfold assign
    by_cases he : e.1 = k
    · by_cases hx : k = x
      · simp [he, hx]
      · simp [he, hx]
    · rw [if_neg he]
      by_cases hx : e.1 = x
      · have hk : ¬ k = x := fun h => he (hx.trans h.symm)
        simp [hx, hk]
      · simpa [hx] using ih

@[simp] theorem get?_empty (x : κ) : (empty : Table κ ν).get? x = none := rfl

theorem get?_insert (t : Table κ ν) (k x : κ) (v : ν) :
    (t.insert k v).get? x = if k = x then some v else t.get? x :=
  find?_assign k x v t.entries

theorem get?_erase (t : Table κ ν) (k x : κ) :
    (t.erase k).get? x = if k = x then none else t.get? x := by
  unfold erase get?
  rw [List.find?_filter]
  by_cases h : k = x
  · subst h
    rw [List.find?_eq_none.2 (by simp)]
    simp
  · rw [if_neg h]
    congr 2
    funext e
    by_cases he : e.1 = x
    · simp [he, h, eq_comm]
    · simp [he]

theorem get?_map {μ : Type} (f : ν → μ) (t : Table κ ν) (k : κ) :
    (t.map f).get? k = (t.get? k).map f := by
  unfold map get?
  rw [List.find?_map, Option.map_map, Option.map_map]
  rfl

theorem contains_insert (t : Table κ ν) (k x : κ) (v : ν) :
    (t.insert k v).contains x = (decide (k = x) || t.contains x) := by
  unfold contains
  rw [get?_insert]
  by_cases h : k = x
  · simp [h]
  · simp [h]

theorem contains_erase (t : Table κ ν) (k x : κ) :
    (t.erase k).contains x = (!decide (k = x) && t.contains x) := by
  unfold contains
  rw [get?_erase]
  by_cases h : k = x
  · simp [h]
  · simp [h]

end Table
end EventSourcing
