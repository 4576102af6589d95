import EventSourcing.Store.Basic

/-!
Editing a store: keeping snapshots, and removing single events or whole aggregates.
-/

namespace EventSourcing.Store

/-- Keeps a snapshot under the aggregate that its record names. -/
def storeSnapshot (s : Store) (record : Record) : Store :=
  { s with snapshots := s.snapshots.insert ⟨record.domain, record.id⟩ record }

theorem stream_storeSnapshot (s : Store) (record : Record) (x : AggregateKey) :
    (s.storeSnapshot record).stream x = s.stream x := rfl

/-- Removes the events of one version from a stream, and says whether there were any. The stream
stays, even if it is empty then. -/
def deleteEvent (s : Store) (k : AggregateKey) (version : Int32) : Bool × Store :=
  match s.streams.get? k with
  | none => (false, s)
  | some events =>
    let kept := events.filter (·.version ≠ version)
    (kept.length < events.length, { s with streams := s.streams.insert k kept })

theorem stream_deleteEvent (s : Store) (k x : AggregateKey) (version : Int32) :
    (s.deleteEvent k version).2.stream x =
      if k = x then (s.stream k).filter (·.version ≠ version) else s.stream x := by
  unfold deleteEvent stream
  cases h : s.streams.get? k with
  | none =>
    by_cases hk : k = x
    · subst hk
      simp [h]
    · simp [hk]
  | some events =>
    simp only [Table.get?_insert]
    by_cases hk : k = x
    · simp [hk]
    · simp [hk]

/-- Removes all that is known of an aggregate, and says how many events it had. -/
def deleteAggregate (s : Store) (k : AggregateKey) : Nat × Store :=
  ((s.stream k).length, ⟨s.streams.erase k, s.keys.erase k, s.snapshots.erase k⟩)

theorem stream_deleteAggregate (s : Store) (k x : AggregateKey) :
    (s.deleteAggregate k).2.stream x = if k = x then [] else s.stream x := by
  unfold deleteAggregate stream
  rw [Table.get?_erase]
  split <;> rfl

end EventSourcing.Store
