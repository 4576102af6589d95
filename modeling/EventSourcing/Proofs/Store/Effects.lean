import EventSourcing.Proofs.Store.Cells

/-! The answers to the calls of a run, and what they tell of the store after it. Each call does one of a
few things, and its answer says which (`Effect`). So what holds of a run and its answers is shown for
one call at a time. The events of an aggregate stand in its stream in the order in which the calls have
answered them; deletions only thin them out. -/

namespace EventSourcing

def appended? : Attempt StoreError Reply → Option Message
  | .ok (.appended m) => some m
  | _ => none

def appendedEvents (answers : List (Attempt StoreError Reply)) : List Message :=
  answers.filterMap appended?

theorem appendedEvents_append (as bs : List (Attempt StoreError Reply)) :
    appendedEvents (as ++ bs) = appendedEvents as ++ appendedEvents bs :=
  List.filterMap_append

variable {α σ : Type} [Content α]

namespace Store

/-- What a call answers and what it makes of the store. -/
inductive Effect (r : Registry α σ) (s : Store) : Attempt StoreError Reply → Store → Prop
  | failed (fault : Fault StoreError) : Effect r s (.error fault) s
  | appended {m : Message} {s' : Store} (h : s.Appends r m s') : Effect r s (.ok (.appended m)) s'
  | stored (record : Record) : Effect r s (.ok .stored) (s.storeSnapshot record)
  | deleted (k : AggregateKey) (v : Int32) :
    Effect r s (.ok (.deleted (s.deleteEvent k v).1)) (s.deleteEvent k v).2
  | removed (k : AggregateKey) :
    Effect r s (.ok (.removed (s.stream k).length)) (s.deleteAggregate k).2
  | cleared : Effect r s (.ok .cleared) .empty

variable {r : Registry α σ} {s s' : Store} {answer : Attempt StoreError Reply}

theorem effect_call (r : Registry α σ) (s : Store) (op : Operation α) :
    s.Effect r (s.call r op).1 (s.perform r op) := by
  rw [← call_snd]
  cases op with
  | append now id v origin p =>
    rcases s.append_cases r now id v origin p with ⟨m, s', h⟩ | ⟨fault, h⟩
    · rw [call, h]
      exact .appended (appends_of_append h)
    · rw [call, h]
      exact .failed fault
  | appendKeyed now key origin p =>
    rcases s.appendKeyed_cases r now key origin p with ⟨m, s', h⟩ | ⟨fault, h⟩
    · rw [call, h]
      exact .appended (appends_of_appendKeyed h)
    · rw [call, h]
      exact .failed fault
  | storeSnapshot record => exact .stored record
  | deleteEvent k v => exact .deleted k v
  | deleteAggregate k => exact .removed k
  | clear => exact .cleared

/-- What holds of a store before any answer, and is kept by each call with its answer, holds of the
store after a list of calls with all of their answers. -/
theorem answers_induction {P : Store → List (Attempt StoreError Reply) → Prop}
    (ops : List (Operation α)) (start : P s [])
    (step : ∀ s as op, P s as → P (s.perform r op) (as ++ [(s.call r op).1])) :
    P (ops.foldl (perform r) s) (s.answers r ops) := by
  -- The answers of the calls already made stand before those of the calls to come.
  suffices hall : ∀ as, P s as → P (ops.foldl (perform r) s) (as ++ s.answers r ops) from
    hall [] start
  clear start
  induction ops generalizing s with
  | nil =>
    intro as h
    simpa [answers] using h
  | cons op rest ih =>
    intro as h
    have hrest := ih (s := s.perform r op) _ (step s as op h)
    rw [List.append_assoc] at hrest
    exact hrest

theorem Effect.stream_sublist (h : s.Effect r answer s') (k : AggregateKey) :
    (s'.stream k).Sublist
      (s.stream k ++ (appendedEvents [answer]).filter (·.aggregateKey = k)) := by
  cases h with
  | failed fault => exact List.sublist_append_left _ _
  | @appended m _ ha =>
    rw [ha.stream_eq]
    split
    · next hk => simp [appendedEvents, appended?, hk]
    · exact List.sublist_append_left _ _
  | stored record => exact List.sublist_append_left _ _
  | deleted x v =>
    rw [stream_deleteEvent]
    split
    · next hk => exact hk ▸ List.filter_sublist.trans (List.sublist_append_left _ _)
    · exact List.sublist_append_left _ _
  | removed x =>
    rw [stream_deleteAggregate]
    split
    · exact List.nil_sublist _
    · exact List.sublist_append_left _ _
  | cleared => exact List.nil_sublist _

/-- The events of an aggregate were there before, or the calls have appended them, in their order. -/
theorem stream_sublist_appended (s : Store) (ops : List (Operation α)) (k : AggregateKey) :
    ((ops.foldl (perform r) s).stream k).Sublist
      (s.stream k ++ (appendedEvents (s.answers r ops)).filter (·.aggregateKey = k)) := by
  refine answers_induction
    (P := fun t as => (t.stream k).Sublist
      (s.stream k ++ (appendedEvents as).filter (·.aggregateKey = k))) ops ?_ ?_
  · exact List.sublist_append_left _ _
  · intro t as op h
    rw [appendedEvents_append, List.filter_append, ← List.append_assoc]
    exact ((t.effect_call r op).stream_sublist k).trans (h.append_right _)

end Store
end EventSourcing
