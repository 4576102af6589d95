import EventSourcing.Proofs.Engine.Reading
import EventSourcing.Proofs.Store.Append

/-! What it takes for a command to reach its handler. The command is accepted as a task, one reading
of its aggregate is answered, and all events read decode (`Hydrates`). There is one such hydration at
most, and it determines what the handler is invoked with. Without one the command has failed, unless
there is no version left after the history (`Overflows`). -/

namespace EventSourcing

variable {α σ : Type}

namespace Engine

structure Accepts (e : Engine α σ) (command : Message) (task : Task α σ) : Prop where
  domain : e.registry.domain command.domain = some task.domain
  payload : ∃ type, task.domain.catalog.commands.byId command.typeId = some type ∧
    type.extract command = .ok task.payload
  handler : e.wiring.handlers.get? task.domain.shortId = some task.handler

variable {e : Engine α σ} {command : Message}

theorem accept_eq_ok_iff {task : Task α σ} : e.accept command = .ok task ↔ e.Accepts command task := by
  unfold accept
  refine ⟨?_, ?_⟩
  · intro h
    split at h
    case h_2 => cases h
    next domain hd =>
    split at h
    case h_2 => cases h
    next type ht =>
    obtain ⟨payload, hp, h⟩ := bind_eq_ok_iff.1 h
    split at h
    case h_2 => cases h
    next handler hh =>
    cases h
    exact ⟨hd, ⟨type, ht, mapError_eq_ok_iff.1 hp⟩, hh⟩
  · rintro ⟨hd, ⟨type, ht, hp⟩, hh⟩
    simp only [hd, ht, hp, hh]
    rfl

theorem Accepts.unique {task task' : Task α σ} (h : e.Accepts command task)
    (h' : e.Accepts command task') : task = task' := by
  rw [← accept_eq_ok_iff] at h h'
  exact Except.ok.inj (h.symm.trans h')

end Engine

variable [Content α]

/-- The aggregate that a command is for. A payload with a key has its own aggregate. -/
def Task.target (task : Task α σ) (command : Message) : Int64 :=
  match task.payload.key with
  | some key => textHash key
  | none => command.id

def Task.aggregateKey (task : Task α σ) (command : Message) : AggregateKey :=
  ⟨task.domain.shortId, task.target command⟩

def Task.address (task : Task α σ) (command : Message) : Address := .of task.payload command.id

theorem Task.aggregateId_address (task : Task α σ) (command : Message) :
    (task.address command).aggregateId = task.target command := by
  unfold address target Address.of
  cases task.payload.key with
  | none => rfl
  | some key => rfl

namespace Domain

variable {d : Domain α σ}

def Decodes (d : Domain α σ) (event : Message) (p : Payload α) : Prop :=
  ∃ type, d.catalog.events.byId event.typeId = some type ∧ type.extract event = .ok p

omit [Content α] in
theorem decodeEvent_eq_ok_iff {event : Message} {p : Payload α} :
    d.decodeEvent event = .ok p ↔ d.Decodes event p := by
  unfold decodeEvent
  constructor
  · intro h
    split at h
    case h_2 => cases h
    next type ht => exact ⟨type, ht, mapError_eq_ok_iff.1 h⟩
  · intro ⟨type, ht, hp⟩
    rw [ht]
    exact mapError_eq_ok_iff.2 hp

omit [Content α] in
theorem mapM_decodeEvent_eq_ok_iff {events : List Message} {decoded : List (Payload α)} :
    events.mapM d.decodeEvent = .ok decoded ↔ List.Forall₂ d.Decodes events decoded := by
  simp only [mapM_eq_ok_iff_forall₂, decodeEvent_eq_ok_iff]

end Domain

/-- A task, the history of its aggregate, and what the events of the history decode to. -/
structure Hydration (α σ : Type) where
  task : Task α σ
  events : List Message
  decoded : List (Payload α)

namespace Hydration

def header (x : Hydration α σ) (e : Engine α σ) (command : Message) : Header where
  source := e.registry.sourceId
  domain := x.task.domain.shortId
  id := x.task.target command
  version := Int32.ofNat x.events.length

def invocation (x : Hydration α σ) (e : Engine α σ) (command : Message) : Invocation α σ where
  header := x.header e command
  state := x.task.domain.aggregate.replay x.decoded
  command
  payload := x.task.payload

end Hydration

namespace Engine

structure Hydrates (e : Engine α σ) (command : Message) (w : World) (x : Hydration α σ) : Prop where
  accepts : e.Accepts command x.task
  reads : .ok x.events ∈ w.answers x.task.domain.shortId (x.task.address command)
  decodes : List.Forall₂ x.task.domain.Decodes x.events x.decoded

/-- The history read ends with the last version there is. -/
def Overflows (e : Engine α σ) (command : Message) (w : World) : Prop :=
  ∃ task events, e.Accepts command task ∧
    .ok events ∈ w.answers task.domain.shortId (task.address command) ∧
    Int32.ofNat events.length = Int32.maxValue

variable {e : Engine α σ} {command : Message} {w : World}

theorem Hydrates.mapM_decodeEvent {x : Hydration α σ} (hx : e.Hydrates command w x) :
    x.events.mapM x.task.domain.decodeEvent = .ok x.decoded :=
  Domain.mapM_decodeEvent_eq_ok_iff.2 hx.decodes

theorem Hydrates.unique {x y : Hydration α σ} (hx : e.Hydrates command w x)
    (hy : e.Hydrates command w y) : x = y := by
  obtain ⟨task, events, decoded⟩ := x
  obtain ⟨task', events', decoded'⟩ := y
  obtain rfl : task = task' := hx.accepts.unique hy.accepts
  obtain rfl : events = events' := World.eq_of_mem_answers hx.reads hy.reads
  obtain rfl : decoded = decoded' := Except.ok.inj (hx.mapM_decodeEvent.symm.trans hy.mapM_decodeEvent)
  rfl

theorem overflows_iff {task : Task α σ} {events : List Message} (ha : e.Accepts command task)
    (hr : .ok events ∈ w.answers task.domain.shortId (task.address command)) :
    e.Overflows command w ↔ Int32.ofNat events.length = Int32.maxValue := by
  refine ⟨?_, ?_⟩
  · rintro ⟨task', events', ha', hr', hmax⟩
    obtain rfl := ha.unique ha'
    rw [World.eq_of_mem_answers hr hr']
    exact hmax
  · intro hmax
    exact ⟨task, events, ha, hr, hmax⟩

theorem Hydrates.events_eq {x : Hydration α σ} (h : e.Hydrates command w x) :
    x.events = w.outage.view (w.store.events (x.task.aggregateKey command) 0) := by
  rw [World.eq_view_of_mem_answers h.reads, Task.aggregateId_address]
  rfl

theorem onlyReads_hydrate (e : Engine α σ) (command : Message) (w : World) :
    w.OnlyReads (e.hydrate command w).2 := by
  unfold hydrate
  split
  · exact (World.OnlyReads.refl w).enter _
  next task ht =>
  dsimp only
  have hl := onlyReads_load task.domain.shortId (Address.of task.payload command.id) (w.enter .hydrating)
  have hw := ((World.OnlyReads.refl w).enter .hydrating).trans hl
  split
  · next h =>
    rw [h] at hw
    exact hw.enter _
  next h =>
  rw [h] at hw
  split
  · exact hw
  · split
    · exact hw.enter _
    · exact hw.enter _

theorem mem_answers_of_load {domain : Int32} {a : Address} {events : List Message} {w' : World}
    (h : load domain a (w.enter .hydrating) = (.ok events, w')) : .ok events ∈ w.answers domain a := by
  rw [← w.answers_enter .hydrating, ← load_eq_ok_iff, h]

theorem not_mem_answers_of_load {domain : Int32} {a : Address} {error : StoreError} {w' : World}
    (h : load domain a (w.enter .hydrating) = (.error error, w')) (events : List Message) :
    .ok events ∉ w.answers domain a := by
  rw [← w.answers_enter .hydrating, ← load_eq_ok_iff, h]
  intro hr
  cases hr

theorem hydrates_count (m : Metric) (x : Hydration α σ) :
    e.Hydrates command (w.count m) x ↔ e.Hydrates command w x := by
  refine ⟨?_, ?_⟩
  · rintro ⟨ha, hr, hd⟩
    rw [World.answers_count] at hr
    exact ⟨ha, hr, hd⟩
  · rintro ⟨ha, hr, hd⟩
    rw [← w.answers_count m] at hr
    exact ⟨ha, hr, hd⟩

theorem overflows_count (m : Metric) :
    e.Overflows command (w.count m) ↔ e.Overflows command w := by
  unfold Overflows
  simp only [World.answers_count]

theorem hydrate_cases (e : Engine α σ) (command : Message) (w : World) :
    (∃ x next, e.Hydrates command w x ∧ nextVersion? (Int32.ofNat x.events.length) = some next ∧
        (e.hydrate command w).1 = .ok (.ready x.task.handler (x.invocation e command) next)) ∨
      (¬ e.Overflows command w ∧ (∀ x, ¬ e.Hydrates command w x) ∧
        ∃ text, (e.hydrate command w).1 = .ok (.failed text)) ∨
      (e.Overflows command w ∧ (e.hydrate command w).1 = .error .addOverflow) := by
  unfold hydrate
  cases hacc : e.accept command with
  | error rejection =>
    have hnone : ∀ task, ¬ e.Accepts command task := by
      intro task h
      rw [← accept_eq_ok_iff, hacc] at h
      cases h
    refine .inr (.inl ⟨?_, ?_, _, rfl⟩)
    · rintro ⟨task, -, h, -⟩
      exact hnone task h
    · intro x h
      exact hnone x.task h.accepts
  | ok task =>
    rw [accept_eq_ok_iff] at hacc
    dsimp only
    rcases hl : load task.domain.shortId (.of task.payload command.id) (w.enter .hydrating) with
      ⟨error | events, w'⟩
    · have hnone := not_mem_answers_of_load hl
      refine .inr (.inl ⟨?_, ?_, _, rfl⟩)
      · rintro ⟨task', events, h, hr, -⟩
        obtain rfl := hacc.unique h
        exact hnone events hr
      · intro x h
        obtain rfl := hacc.unique h.accepts
        exact hnone x.events h.reads
    have hreads := mem_answers_of_load hl
    dsimp only
    have hover := overflows_iff hacc hreads
    rw [← nextVersion?_eq_none_iff] at hover
    cases hn : nextVersion? (Int32.ofNat events.length) with
    | none => exact .inr (.inr ⟨hover.2 hn, rfl⟩)
    | some next =>
      have hfits : ¬ e.Overflows command w := by
        rw [hover, hn]
        exact nofun
      dsimp only
      cases hs : task.domain.replay events with
      | error failure =>
        refine .inr (.inl ⟨hfits, ?_, _, rfl⟩)
        intro x h
        obtain rfl := hacc.unique h.accepts
        obtain rfl := World.eq_of_mem_answers hreads h.reads
        rw [Domain.replay_eq_ok_iff.2 ⟨x.decoded, h.mapM_decodeEvent, rfl⟩] at hs
        cases hs
      | ok state =>
        obtain ⟨decoded, hd, rfl⟩ := Domain.replay_eq_ok_iff.1 hs
        refine .inl ⟨⟨task, events, decoded⟩, next,
          ⟨hacc, hreads, Domain.mapM_decodeEvent_eq_ok_iff.1 hd⟩, hn, ?_⟩
        unfold Hydration.invocation Hydration.header
        rw [← Task.aggregateId_address]
        rfl

end Engine

end EventSourcing
