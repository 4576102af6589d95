import EventSourcing.Engine.Command
import EventSourcing.Proofs.Fault

/-! What the engine reads before a handler runs. A history is read twice at most, and every answer
that is not refused is the same: the events of the aggregate that the address stands for. A history
is replayed just when all of its events decode. Reading changes neither the store nor the publisher
(`OnlyReads`). -/

namespace EventSourcing

def Store.history (s : Store) (domain : Int32) : Address → Except StoreError (List Message)
  | .id id => .ok (s.events ⟨domain, id⟩ 0)
  | .key key => s.keyedEvents domain key 0

theorem Store.history_eq_ok {s : Store} {domain : Int32} {a : Address} {events : List Message}
    (h : s.history domain a = .ok events) : events = s.events ⟨domain, a.aggregateId⟩ 0 := by
  cases a with
  | id id =>
    cases h
    rfl
  | key key =>
    unfold history keyedEvents at h
    dsimp only at h
    split at h
    · cases h
    · obtain ⟨_, -, h⟩ := bind_eq_ok_iff.1 h
      cases h
      rfl

namespace World

theorem history_eq (w : World) (domain : Int32) (a : Address) :
    w.history domain a =
      (match w.outage.reads.head? with
        | some (some e) => .error e
        | _ => (w.store.history domain a).map w.outage.view,
      { w with outage := { w.outage with reads := w.outage.reads.tail } }) := by
  unfold history
  cases a with
  | id id =>
    rcases w.outage.reads.head? with _ | _ | e
    · rfl
    · rfl
    · rfl
  | key key =>
    rcases w.outage.reads.head? with _ | _ | e
    · rfl
    · rfl
    · rfl

def answers (w : World) (domain : Int32) (a : Address) : List (Except StoreError (List Message)) :=
  [(w.history domain a).1, ((w.history domain a).2.history domain a).1]

/-- The journal has no part in reading. -/
theorem answers_record (w : World) (entry : Entry) (domain : Int32) (a : Address) :
    (w.record entry).answers domain a = w.answers domain a := by
  unfold answers
  simp only [history_eq]
  rfl

theorem answers_enter (w : World) (s : Stage) (domain : Int32) (a : Address) :
    (w.enter s).answers domain a = w.answers domain a :=
  w.answers_record (.stage s) domain a

theorem answers_count (w : World) (m : Metric) (domain : Int32) (a : Address) :
    (w.count m).answers domain a = w.answers domain a :=
  w.answers_record (.metric m) domain a

theorem history_eq_ok {w : World} {domain : Int32} {a : Address} {events : List Message}
    (h : (w.history domain a).1 = .ok events) :
    (w.store.history domain a).map w.outage.view = .ok events := by
  rw [history_eq] at h
  dsimp only at h
  split at h
  · cases h
  · exact h

theorem mem_answers_of_outage_none {w : World} (h : w.outage = .none) (domain : Int32) (id : Int64) :
    .ok (w.store.events ⟨domain, id⟩ 0) ∈ w.answers domain (.id id) := by
  unfold answers
  rw [history_eq, h]
  exact List.mem_cons_self

/-- The reading that follows a refused one is answered from the store. -/
theorem mem_answers_of_refused {w : World} {error : StoreError}
    (hreads : w.outage.reads = [some error]) (hview : w.outage.view = id) (domain : Int32) (i : Int64) :
    .ok (w.store.events ⟨domain, i⟩ 0) ∈ w.answers domain (.id i) := by
  unfold answers
  rw [history_eq, hreads]
  dsimp only
  rw [history_eq, hview]
  exact List.mem_cons_of_mem _ List.mem_cons_self

/-- No answer depends on whether it is the first or the second one. -/
theorem map_view_of_mem_answers {w : World} {domain : Int32} {a : Address} {events : List Message}
    (h : .ok events ∈ w.answers domain a) :
    (w.store.history domain a).map w.outage.view = .ok events := by
  rcases List.mem_cons.1 h with h | h
  · exact history_eq_ok h.symm
  · have h := history_eq_ok (List.mem_singleton.1 h).symm
    rw [history_eq] at h
    exact h

theorem eq_view_of_mem_answers {w : World} {domain : Int32} {a : Address} {events : List Message}
    (h : .ok events ∈ w.answers domain a) :
    events = w.outage.view (w.store.events ⟨domain, a.aggregateId⟩ 0) := by
  have h := map_view_of_mem_answers h
  cases hs : w.store.history domain a with
  | error e =>
    rw [hs] at h
    cases h
  | ok stored =>
    rw [hs] at h
    cases h
    rw [Store.history_eq_ok hs]

theorem eq_of_mem_answers {w : World} {domain : Int32} {a : Address} {events events' : List Message}
    (h : .ok events ∈ w.answers domain a) (h' : .ok events' ∈ w.answers domain a) :
    events = events' := by
  rw [eq_view_of_mem_answers h, eq_view_of_mem_answers h']

def notes (w : World) : List String :=
  w.journal.filterMap fun
    | .note text => some text
    | _ => none

theorem notes_enter (w : World) (s : Stage) : (w.enter s).notes = w.notes := by
  simp [enter, record, notes]

theorem notes_count (w : World) (m : Metric) : (w.count m).notes = w.notes := by
  simp [count, record, notes]

theorem notes_note (w : World) (text : String) : (w.note text).notes = w.notes ++ [text] := by
  simp [note, record, notes]

/-- From `w` to `w'` the store was read at most. Readings use up the refusals that they meet. -/
structure OnlyReads (w w' : World) : Prop where
  store : w'.store = w.store
  publisher : w'.publisher = w.publisher
  reads : w'.outage.reads <:+ w.outage.reads
  appends : w'.outage.appends = w.outage.appends
  view : w'.outage.view = w.outage.view
  reports : w'.reports = w.reports
  notes : w'.notes = w.notes

theorem OnlyReads.refl (w : World) : w.OnlyReads w :=
  ⟨rfl, rfl, List.suffix_refl _, rfl, rfl, rfl, rfl⟩

theorem OnlyReads.trans {a b c : World} (h : a.OnlyReads b) (h' : b.OnlyReads c) : a.OnlyReads c :=
  ⟨h'.store.trans h.store, h'.publisher.trans h.publisher, h'.reads.trans h.reads,
    h'.appends.trans h.appends, h'.view.trans h.view, h'.reports.trans h.reports,
    h'.notes.trans h.notes⟩

theorem OnlyReads.enter {w w' : World} (h : w.OnlyReads w') (s : Stage) : w.OnlyReads (w'.enter s) :=
  h.trans ⟨rfl, rfl, List.suffix_refl _, rfl, rfl, rfl, w'.notes_enter s⟩

theorem OnlyReads.count {w w' : World} (h : w.OnlyReads w') (m : Metric) :
    w.OnlyReads (w'.count m) :=
  h.trans ⟨rfl, rfl, List.suffix_refl _, rfl, rfl, rfl, w'.notes_count m⟩

theorem OnlyReads.history {w w' : World} (h : w.OnlyReads w') (domain : Int32) (a : Address) :
    w.OnlyReads (w'.history domain a).2 := by
  rw [history_eq]
  exact h.trans ⟨rfl, rfl, List.tail_suffix _, rfl, rfl, rfl, rfl⟩

theorem OnlyReads.outage_none {w w' : World} (h : w.OnlyReads w') (hw : w.outage = .none) :
    w'.outage = .none := by
  have hreads := h.reads
  have happends := h.appends
  have hview := h.view
  rw [hw] at hreads happends hview
  rcases hw' : w'.outage with ⟨reads, appends, view⟩
  rw [hw'] at hreads happends hview
  obtain rfl : reads = [] := List.suffix_nil.1 hreads
  obtain rfl : appends = [] := happends
  obtain rfl : view = id := hview
  rfl

end World

namespace Engine

theorem onlyReads_load (domain : Int32) (a : Address) (w : World) :
    w.OnlyReads (load domain a w).2 := by
  have h := (World.OnlyReads.refl w).history domain a
  unfold load
  split
  · next he =>
    rw [he] at h
    exact h
  · next he =>
    rw [he] at h
    exact (h.count _).history _ _

theorem load_eq_ok_iff {domain : Int32} {a : Address} {w : World} {events : List Message} :
    (load domain a w).1 = .ok events ↔ .ok events ∈ w.answers domain a := by
  have hl : (load domain a w).1 ∈ w.answers domain a := by
    unfold load World.answers
    split
    · next h =>
      rw [h]
      exact List.mem_cons_self
    · next h =>
      rw [h, World.history_eq, World.history_eq]
      exact List.mem_cons_of_mem _ List.mem_cons_self
  refine ⟨?_, ?_⟩
  · intro h
    exact h ▸ hl
  · intro h
    cases hx : (load domain a w).1 with
    | ok events' =>
      rw [hx] at hl
      rw [World.eq_of_mem_answers h hl]
    | error e =>
      -- Both answers are refusals then, so none of them is `events`.
      unfold load at hx
      split at hx
      · cases hx
      · next h₁ =>
        rw [World.history_eq] at hx
        unfold World.answers at h
        rw [h₁, World.history_eq] at h
        rcases List.mem_cons.1 h with h | h
        · cases h
        · have h := (List.mem_singleton.1 h).trans hx
          cases h

end Engine

section

variable {α σ : Type}

/-- A history is replayed if all its events decode, and to the state that they lead to. -/
theorem Domain.replay_eq_ok_iff {d : Domain α σ} {history : List Message} {state : State σ} :
    d.replay history = .ok state ↔
      ∃ decoded, history.mapM d.decodeEvent = .ok decoded ∧ d.aggregate.replay decoded = state := by
  unfold replay AggregateType.replay
  generalize d.aggregate.initial = start
  generalize 0 = n
  induction history generalizing start n with
  | nil =>
    refine ⟨?_, ?_⟩
    · intro h
      cases h
      exact ⟨[], rfl, rfl⟩
    · rintro ⟨decoded, h, rfl⟩
      cases h
      rfl
  | cons event rest ih =>
    rw [List.zipIdx_cons, List.foldlM_cons, List.mapM_cons]
    dsimp only
    cases d.decodeEvent event with
    | error e =>
      refine ⟨?_, ?_⟩
      · intro h
        cases h
      · rintro ⟨decoded, h, -⟩
        cases h
    | ok p =>
      refine (ih (d.aggregate.apply start p) (n + 1)).trans ?_
      refine ⟨?_, ?_⟩
      · rintro ⟨decoded, h, hs⟩
        refine ⟨p :: decoded, ?_, hs⟩
        rw [h]
        rfl
      · rintro ⟨decoded, h, hs⟩
        obtain ⟨first, hf, h⟩ := bind_eq_ok_iff.1 h
        obtain ⟨tail, ht, h⟩ := bind_eq_ok_iff.1 h
        cases hf
        cases h
        exact ⟨tail, ht, hs⟩

end

end EventSourcing
