import EventSourcing.IdSet

/-! Sets are determined by their members: a set that is made from a list does not depend on the order
of the list. -/

namespace EventSourcing.IdSet

theorem nodup_members (s : IdSet) : s.members.Nodup := by
  apply s.ascending.imp
  intro x y hlt heq
  exact Int64.lt_irrefl (heq ▸ hlt)

theorem eq_of_forall_mem {s t : IdSet} (h : ∀ x, x ∈ s.members ↔ x ∈ t.members) : s = t := by
  have hperm : s.members.Perm t.members :=
    (List.perm_ext_iff_of_nodup s.nodup_members t.nodup_members).2 h
  have hmembers : s.members = t.members :=
    hperm.eq_of_pairwise (fun x y _ _ hxy hyx => absurd (Int64.lt_trans hxy hyx) Int64.lt_irrefl)
      s.ascending t.ascending
  cases s
  cases t
  cases hmembers
  rfl

theorem mem_foldl_insert {xs : List Int64} {s : IdSet} {x : Int64} :
    x ∈ (xs.foldl insert s).members ↔ x ∈ xs ∨ x ∈ s.members := by
  induction xs generalizing s with
  | nil => simp
  | cons y xs ih =>
    rw [List.foldl_cons, ih, List.mem_cons]
    show x ∈ xs ∨ x ∈ insertAscending y s.members ↔ _
    rw [mem_insertAscending, ← or_assoc, or_comm (a := x ∈ xs)]

theorem mem_ofList {xs : List Int64} {x : Int64} : x ∈ (ofList xs).members ↔ x ∈ xs := by
  rw [ofList, mem_foldl_insert]
  exact or_iff_left List.not_mem_nil

/-- The members of a set make the set again, in whatever order. -/
theorem ofList_eq_of_perm {xs : List Int64} {s : IdSet} (h : xs.Perm s.members) : ofList xs = s :=
  eq_of_forall_mem fun _ => mem_ofList.trans h.mem_iff

end EventSourcing.IdSet
