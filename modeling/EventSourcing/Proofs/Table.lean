import EventSourcing.Table

/-! The entries of a table. Looking up a key finds the one entry with the key, a new key comes last, and
an entry that is replaced is not seen by a reading of other keys. -/

namespace EventSourcing

theorem filter_assign {κ ν : Type} [DecidableEq κ] {f : κ → Bool} {k : κ} (h : f k = false) (v : ν)
    (es : List (κ × ν)) :
    (assign k v es).filter (fun e => f e.1) = es.filter (fun e => f e.1) := by
  induction es with
  | nil => simp [assign, h]
  | cons e rest ih =>
    unfold assign
    split
    · next he => simp [he, h]
    · rw [List.filter_cons, List.filter_cons, ih]

theorem assign_of_not_mem {κ ν : Type} [DecidableEq κ] {k : κ} {es : List (κ × ν)}
    (h : k ∉ es.map Prod.fst) (v : ν) : assign k v es = es ++ [(k, v)] := by
  induction es with
  | nil => rfl
  | cons e rest ih =>
    rw [List.map_cons, List.mem_cons, not_or] at h
    rw [assign, if_neg (Ne.symm h.1), ih h.2]
    rfl

namespace Table

variable {κ ν : Type} [DecidableEq κ] {t : Table κ ν} {k : κ} {v : ν}

theorem get?_eq_some_iff : t.get? k = some v ↔ (k, v) ∈ t.entries := by
  refine ⟨?_, ?_⟩
  · intro h
    obtain ⟨e, he, rfl⟩ := Option.map_eq_some_iff.1 h
    have hk : e.1 = k := by simpa using List.find?_some he
    exact hk ▸ List.mem_of_find?_eq_some he
  · intro h
    obtain ⟨before, after, hentries⟩ := List.append_of_mem h
    have hdistinct := t.distinct
    rw [hentries, List.map_append, List.nodup_append] at hdistinct
    unfold get?
    rw [hentries, List.find?_append, List.find?_eq_none.2, Option.none_or,
      List.find?_cons_of_pos (by simp)]
    · rfl
    · intro x hx
      simpa using hdistinct.2.2 x.1 (List.mem_map_of_mem hx) k (by simp)

theorem contains_iff : t.contains k = true ↔ k ∈ t.entries.map Prod.fst := by
  unfold contains
  rw [Option.isSome_iff_exists, List.mem_map]
  refine ⟨?_, ?_⟩
  · rintro ⟨v, hv⟩
    exact ⟨(k, v), get?_eq_some_iff.1 hv, rfl⟩
  · rintro ⟨e, he, rfl⟩
    exact ⟨e.2, get?_eq_some_iff.2 he⟩

theorem entries_insert_of_new (h : k ∉ t.entries.map Prod.fst) (v : ν) :
    (t.insert k v).entries = t.entries ++ [(k, v)] :=
  assign_of_not_mem h v

end Table
end EventSourcing
