/-!
Sets of 64-bit identifiers, kept as strictly ascending lists, so that equal sets are equal values.
-/

namespace EventSourcing

/-- Puts `x` in its place in an ascending list, unless it is there already. -/
def insertAscending (x : Int64) : List Int64 → List Int64
  | [] => [x]
  | y :: ys =>
    if x < y then x :: y :: ys else if x = y then y :: ys else y :: insertAscending x ys

theorem mem_insertAscending {x z : Int64} {ys : List Int64} :
    z ∈ insertAscending x ys ↔ z = x ∨ z ∈ ys := by
  induction ys with
  | nil => simp [insertAscending]
  | cons y ys ih =>
    unfold insertAscending
    split
    · simp
    · split
      · next h => subst h; simp
      · simp only [List.mem_cons, ih]
        constructor <;> rintro (h | h | h) <;> simp [h]

theorem pairwise_insertAscending {x : Int64} {ys : List Int64} (h : ys.Pairwise (· < ·)) :
    (insertAscending x ys).Pairwise (· < ·) := by
  induction ys with
  | nil => simp [insertAscending]
  | cons y ys ih =>
    rw [List.pairwise_cons] at h
    unfold insertAscending
    split
    · next hxy =>
      refine List.pairwise_cons.2 ⟨?_, List.pairwise_cons.2 h⟩
      intro z hz
      rcases List.mem_cons.1 hz with rfl | hz
      · exact hxy
      · exact Int64.lt_trans hxy (h.1 z hz)
    · split
      · exact List.pairwise_cons.2 h
      · next hxy hne =>
        refine List.pairwise_cons.2 ⟨?_, ih h.2⟩
        intro z hz
        rcases mem_insertAscending.1 hz with rfl | hz
        · rw [Int64.lt_iff_toInt_lt] at hxy ⊢
          have hne' : z.toInt ≠ y.toInt := fun h => hne (Int64.toInt_inj.1 h)
          omega
        · exact h.1 z hz

structure IdSet where
  members : List Int64
  ascending : members.Pairwise (· < ·)
  deriving DecidableEq, Repr

namespace IdSet

def empty : IdSet := ⟨[], List.Pairwise.nil⟩

def contains (s : IdSet) (x : Int64) : Bool := x ∈ s.members

def insert (s : IdSet) (x : Int64) : IdSet :=
  ⟨insertAscending x s.members, pairwise_insertAscending s.ascending⟩

def erase (s : IdSet) (x : Int64) : IdSet :=
  ⟨s.members.filter (· ≠ x), s.ascending.sublist List.filter_sublist⟩

def add (s : IdSet) (x : Int64) : Bool × IdSet := (!s.contains x, s.insert x)

def remove (s : IdSet) (x : Int64) : Bool × IdSet := (s.contains x, s.erase x)

def ofList (xs : List Int64) : IdSet := xs.foldl insert empty

def size (s : IdSet) : Nat := s.members.length

def isEmpty (s : IdSet) : Bool := s.members.isEmpty

/-- Whether each of `xs` is a member; there may be other members. -/
def containsAll (s : IdSet) (xs : List Int64) : Bool := xs.all s.contains

/-- What a set and a list have apart and in common. -/
structure Split where
  left : IdSet
  common : IdSet
  right : IdSet
  deriving DecidableEq, Repr

/-- First sorts `xs` into members and others, then looks for the members not met. -/
def split (s : IdSet) (xs : List Int64) : Split :=
  let (common, right) := xs.foldl
    (fun (common, right) x =>
      if s.contains x then (common.insert x, right) else (common, right.insert x))
    (empty, empty)
  let left := s.members.foldl
    (fun left x => if common.contains x then left else left.insert x) empty
  ⟨left, common, right⟩

/-- The members of the parts. -/
def diff (s : IdSet) (xs : List Int64) : List Int64 × List Int64 × List Int64 :=
  let parts := s.split xs
  (parts.left.members, parts.common.members, parts.right.members)

end IdSet
end EventSourcing
