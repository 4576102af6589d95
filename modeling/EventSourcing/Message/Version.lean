/-!
Versions of aggregates. They count the events of a stream from one on in 32 bits, so the last of
them has no successor, and the first number of 32 bits has no predecessor.
-/

namespace EventSourcing

def nextVersion? (v : Int32) : Option Int32 := if v = Int32.maxValue then none else some (v + 1)

def previousVersion? (v : Int32) : Option Int32 := if v = Int32.minValue then none else some (v - 1)

theorem nextVersion?_eq_some_iff {v u : Int32} :
    nextVersion? v = some u ↔ u.toInt = v.toInt + 1 := by
  have hv := v.toInt_lt
  have hl := v.le_toInt
  have hu := u.toInt_lt
  unfold nextVersion?
  split
  · next h =>
    subst h
    simp only [reduceCtorEq, false_iff]
    rw [Int32.toInt_maxValue]
    omega
  · next h =>
    have hne : v.toInt ≠ 2147483647 := fun e => h (Int32.toInt_inj.1 (by rw [e]; decide))
    have hs : (v + 1).toInt = v.toInt + 1 := by
      rw [Int32.toInt_add, Int32.toInt_one]
      exact Int.bmod_eq_of_le (by omega) (by omega)
    rw [Option.some.injEq, ← Int32.toInt_inj, hs, eq_comm]

theorem previousVersion?_eq_some_iff {v u : Int32} :
    previousVersion? v = some u ↔ u.toInt + 1 = v.toInt := by
  have hv := v.toInt_lt
  have hl := v.le_toInt
  have hu := u.le_toInt
  unfold previousVersion?
  split
  · next h =>
    subst h
    simp only [reduceCtorEq, false_iff]
    rw [Int32.toInt_minValue]
    omega
  · next h =>
    have hne : v.toInt ≠ -2147483648 := fun e => h (Int32.toInt_inj.1 (by rw [e]; decide))
    have hs : (v - 1).toInt = v.toInt - 1 := by
      rw [Int32.toInt_sub, Int32.toInt_one]
      exact Int.bmod_eq_of_le (by omega) (by omega)
    rw [Option.some.injEq, ← Int32.toInt_inj, hs]
    omega

end EventSourcing
