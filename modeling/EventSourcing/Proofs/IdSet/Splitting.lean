import Mathlib.Data.List.Dedup
import EventSourcing.Proofs.IdSet

/-! A set and a list compared. The first loop puts each value of the list where it belongs, among the
members of the set or among the others, and the second one finds the members that the first did not
meet. What a loop has collected is decided by what it has read, so in the end the three parts are given by
membership alone: neither the order nor repetitions in the list matter. -/

namespace EventSourcing.IdSet

variable {s t : IdSet} {xs ys : List Int64} {x y : Int64}

theorem contains_iff : s.contains x = true ↔ x ∈ s.members := decide_eq_true_iff

/-- Sets without a common member that have the members of a list between them make up the list, if it
has no repetitions. -/
theorem perm_of_partition (hxs : xs.Nodup) (hdisjoint : ∀ x ∈ s.members, x ∉ t.members)
    (hunion : ∀ x, x ∈ xs ↔ x ∈ s.members ∨ x ∈ t.members) : (s.members ++ t.members).Perm xs := by
  have happend : (s.members ++ t.members).Nodup := by
    refine List.nodup_append.2 ⟨s.nodup_members, t.nodup_members, ?_⟩
    intro x hs y ht hxy
    exact hdisjoint x hs (hxy ▸ ht)
  apply (List.perm_ext_iff_of_nodup happend hxs).2
  intro x
  rw [List.mem_append, hunion]

section Loops

theorem mem_insertIf {p : Int64 → Bool} :
    x ∈ (if p y then t.insert y else t).members ↔ x ∈ t.members ∨ x = y ∧ p x = true := by
  by_cases hxy : x = y
  · subst hxy
    cases hp : p x
    · simp
    · simp [insert, mem_insertAscending]
  · split
    · simp [insert, mem_insertAscending, hxy]
    · simp [hxy]

/-- A loop whose steps put a value into a set just if `p` holds of it puts in those values it reads that
`p` holds of. -/
theorem mem_foldl_of_step {β : Type} {step : β → Int64 → β} (part : β → IdSet) (p : Int64 → Bool)
    (hstep : ∀ b y, part (step b y) = if p y then (part b).insert y else part b) (b : β) :
    x ∈ (part (xs.foldl step b)).members ↔ x ∈ (part b).members ∨ x ∈ xs ∧ p x = true := by
  induction xs generalizing b with
  | nil => simp
  | cons y ys ih =>
    rw [List.foldl_cons, ih, hstep, mem_insertIf, List.mem_cons, or_and_right, or_assoc]

/-- Puts a value to those found in the set, or to those that are not. -/
def sortOnto (s : IdSet) (found : IdSet × IdSet) (x : Int64) : IdSet × IdSet :=
  if s.contains x then (found.1.insert x, found.2) else (found.1, found.2.insert x)

/-- Puts a value to those that were not met. -/
def missOnto (met left : IdSet) (x : Int64) : IdSet :=
  if met.contains x then left else left.insert x

theorem split_eq (s : IdSet) (xs : List Int64) :
    s.split xs =
      let found := xs.foldl s.sortOnto (empty, empty)
      ⟨s.members.foldl found.1.missOnto empty, found.1, found.2⟩ := rfl

theorem missOnto_eq (met left : IdSet) (y : Int64) :
    met.missOnto left y = if !met.contains y then left.insert y else left := by
  unfold missOnto
  cases met.contains y
  · rfl
  · rfl

theorem sortOnto_common (s : IdSet) (found : IdSet × IdSet) (y : Int64) :
    (s.sortOnto found y).1 = if s.contains y then found.1.insert y else found.1 := by
  unfold sortOnto
  cases s.contains y
  · rfl
  · rfl

/-- The values that are not in the set are those that it misses. -/
theorem sortOnto_right (s : IdSet) (found : IdSet × IdSet) (y : Int64) :
    (s.sortOnto found y).2 = if !s.contains y then found.2.insert y else found.2 := by
  unfold sortOnto
  cases s.contains y
  · rfl
  · rfl

theorem mem_common : x ∈ (s.split xs).common.members ↔ x ∈ s.members ∧ x ∈ xs := by
  rw [split_eq]
  apply (mem_foldl_of_step Prod.fst s.contains s.sortOnto_common (empty, empty)).trans
  simp [empty, contains_iff, and_comm]

theorem mem_right : x ∈ (s.split xs).right.members ↔ x ∈ xs ∧ x ∉ s.members := by
  rw [split_eq]
  apply (mem_foldl_of_step Prod.snd (!s.contains ·) s.sortOnto_right (empty, empty)).trans
  simp [empty, ← contains_iff]

theorem mem_left : x ∈ (s.split xs).left.members ↔ x ∈ s.members ∧ x ∉ xs := by
  have hmiss : x ∈ (s.split xs).left.members ↔
      x ∈ s.members ∧ ¬ x ∈ (s.split xs).common.members := by
    rw [split_eq]
    apply (mem_foldl_of_step id (!IdSet.contains _ ·) (missOnto_eq _) empty).trans
    simp [empty, ← contains_iff]
  rw [hmiss, mem_common]
  simp +contextual

end Loops

/-- The parts are determined by what they hold. -/
theorem eq_split {d : Split} (hleft : ∀ x, x ∈ d.left.members ↔ x ∈ s.members ∧ x ∉ xs)
    (hcommon : ∀ x, x ∈ d.common.members ↔ x ∈ s.members ∧ x ∈ xs)
    (hright : ∀ x, x ∈ d.right.members ↔ x ∈ xs ∧ x ∉ s.members) : d = s.split xs := by
  have hl : d.left = (s.split xs).left := eq_of_forall_mem fun x => (hleft x).trans mem_left.symm
  have hc : d.common = (s.split xs).common :=
    eq_of_forall_mem fun x => (hcommon x).trans mem_common.symm
  have hr : d.right = (s.split xs).right := eq_of_forall_mem fun x => (hright x).trans mem_right.symm
  cases d
  simp only at hl hc hr
  rw [hl, hc, hr]

theorem perm_left_common (s : IdSet) (xs : List Int64) :
    ((s.split xs).left.members ++ (s.split xs).common.members).Perm s.members := by
  apply perm_of_partition s.nodup_members
  · intro x hleft hcommon
    exact (mem_left.1 hleft).2 (mem_common.1 hcommon).2
  · intro x
    rw [mem_left, mem_common, ← and_or_left]
    simp [Classical.em, or_comm]

theorem perm_common_right (s : IdSet) (xs : List Int64) :
    ((s.split xs).common.members ++ (s.split xs).right.members).Perm xs.dedup := by
  apply perm_of_partition (List.nodup_dedup xs)
  · intro x hcommon hright
    exact (mem_right.1 hright).2 (mem_common.1 hcommon).1
  · intro x
    rw [List.mem_dedup, mem_right, mem_common, and_comm, ← and_or_left]
    simp [Classical.em]

theorem split_congr (h : ∀ x, x ∈ ys ↔ x ∈ xs) : s.split ys = s.split xs := by
  apply eq_split
  · intro x
    rw [mem_left, h]
  · intro x
    rw [mem_common, h]
  · intro x
    rw [mem_right, h]

theorem split_swap (h : ∀ x, x ∈ ys ↔ x ∈ s.members) :
    (ofList xs).split ys = ⟨(s.split xs).right, (s.split xs).common, (s.split xs).left⟩ := by
  symm
  apply eq_split
  · intro x
    rw [mem_right, mem_ofList, h]
  · intro x
    rw [mem_common, mem_ofList, h, and_comm]
  · intro x
    rw [mem_left, mem_ofList, h]

/-- What a set and a list have apart and in common is decided by membership. The members are those apart
and those in common, the values of the list are those in common and the others, each of them once, and
so the sizes add up. As lists the parts are the same and have no repetitions. The order and the repetitions
of the list do not matter, and the set of the list against the members has the two outer parts
exchanged. -/
theorem split_decided_by_membership (s : IdSet) (xs : List Int64) :
    (∀ x, (x ∈ (s.split xs).left.members ↔ x ∈ s.members ∧ x ∉ xs) ∧
        (x ∈ (s.split xs).common.members ↔ x ∈ s.members ∧ x ∈ xs) ∧
        (x ∈ (s.split xs).right.members ↔ x ∈ xs ∧ x ∉ s.members)) ∧
      ((s.split xs).left.members ++ (s.split xs).common.members).Perm s.members ∧
      ((s.split xs).common.members ++ (s.split xs).right.members).Perm xs.dedup ∧
      (s.split xs).left.size + (s.split xs).common.size = s.size ∧
      (s.split xs).common.size + (s.split xs).right.size = xs.dedup.length ∧
      (∃ left common right, s.diff xs = (left, common, right) ∧
        left.Nodup ∧ common.Nodup ∧ right.Nodup ∧
        s.split xs = ⟨ofList left, ofList common, ofList right⟩) ∧
      (∀ ys, (∀ x, x ∈ ys ↔ x ∈ xs) → s.split ys = s.split xs) ∧
      ∀ ys, (∀ x, x ∈ ys ↔ x ∈ s.members) →
        (ofList xs).split ys = ⟨(s.split xs).right, (s.split xs).common, (s.split xs).left⟩ := by
  have hleft := perm_left_common s xs
  have hright := perm_common_right s xs
  have hmembers (t : IdSet) : ofList t.members = t := ofList_eq_of_perm (List.Perm.refl _)
  refine ⟨fun x => ⟨mem_left, mem_common, mem_right⟩, hleft, hright, ?_, ?_, ?_, ?_, ?_⟩
  · exact List.length_append.symm.trans hleft.length_eq
  · exact List.length_append.symm.trans hright.length_eq
  · refine ⟨_, _, _, rfl, nodup_members _, nodup_members _, nodup_members _, ?_⟩
    rw [hmembers, hmembers, hmembers]
  · intro ys hys
    exact split_congr hys
  · intro ys hys
    exact split_swap hys

/-- A value that the list repeats, and the members in another order. -/
theorem split_decided_by_membership_repeated :
    let s := ofList [10, 20, 30]
    let xs : List Int64 := [40, 30, 40]
    let members : List Int64 := [30, 10, 20]
    (∀ x, x ∈ ([30, 40] : List Int64) ↔ x ∈ xs) ∧ (∀ x, x ∈ members ↔ x ∈ s.members) ∧
      s.split xs = ⟨ofList [10, 20], ofList [30], ofList [40]⟩ ∧ s.split [30, 40] = s.split xs ∧
      (ofList xs).split members = ⟨ofList [40], ofList [30], ofList [10, 20]⟩ := by
  intro s xs members
  have hrepeated : ∀ x, x ∈ ([30, 40] : List Int64) ↔ x ∈ xs := by
    intro x
    simp only [xs, List.mem_cons, List.not_mem_nil, or_false]
    grind
  have hmembers : ∀ x, x ∈ members ↔ x ∈ s.members := by
    intro x
    rw [mem_ofList]
    simp only [members, List.mem_cons, List.not_mem_nil, or_false]
    grind
  have hparts : s.split xs = ⟨ofList [10, 20], ofList [30], ofList [40]⟩ := by decide
  obtain ⟨-, -, -, -, -, -, hcongr, hswap⟩ := split_decided_by_membership s xs
  refine ⟨hrepeated, hmembers, hparts, hcongr _ hrepeated, ?_⟩
  rw [hswap _ hmembers, hparts]

end EventSourcing.IdSet
