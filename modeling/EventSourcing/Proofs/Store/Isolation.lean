import EventSourcing.Proofs.Store.Contiguous
import EventSourcing.Proofs.Store.Reports
import EventSourcing.Proofs.Store.WellFormed
import EventSourcing.ValueChanger.Domain

/-! Keys that share a hash. The id of a keyed aggregate is the hash of its key, so two keys may lead to
the same aggregate. The first key that appends there is bound to it, and the binding lasts as long as
an event of that key is stored: appends by id, by other keys and failed ones leave it, as does the
deletion of other events. Any other key therefore neither reads such an event nor adds to its stream.
Nothing is assumed of the hash. -/

namespace EventSourcing

variable {α σ : Type}

def Operation.Removes (m : Message) : Operation α → Prop
  | .deleteEvent k v => k = m.aggregateKey ∧ v = m.version
  | .deleteAggregate k => k = m.aggregateKey
  | .clear => True
  | _ => False

namespace Store

theorem get?_keys_bind {s : Store} {k : AggregateKey} {key : String}
    (h : s.checkKey k key = .ok ()) : (s.bind k key).keys.get? k = some key := by
  unfold checkKey at h
  unfold bind Table.contains
  cases hk : s.keys.get? k with
  | none => simp [Table.get?_insert]
  | some existing =>
    by_cases he : existing = key
    · simp [hk, he]
    · simp [hk, he] at h

theorem checkKey_eq_error {s : Store} {k : AggregateKey} {key other : String}
    (h : s.keys.get? k = some key) (hne : other ≠ key) :
    s.checkKey k other = .error (.keyCollision other key) := by
  simp [checkKey, h, hne.symm]

variable [Content α] {r : Registry α σ} {s s' : Store} {key other : String}
  {m n : Message}

theorem mem_stream_perform_iff {op : Operation α} (hm : m ∈ s.stream m.aggregateKey) :
    m ∈ (s.perform r op).stream m.aggregateKey ↔ ¬ op.Removes m := by
  cases op with
  | append now id v origin p =>
    refine iff_of_true ?_ not_false
    rcases perform_append now id v origin p with hs | ⟨n, ha⟩
    · rwa [hs]
    · exact ha.mem_stream_iff.2 (.inl hm)
  | appendKeyed now key origin p =>
    refine iff_of_true ?_ not_false
    rcases perform_appendKeyed now key origin p with hs | ⟨n, ha⟩
    · rwa [hs]
    · exact ha.mem_stream_iff.2 (.inl hm)
  | storeSnapshot record => exact iff_of_true hm not_false
  | deleteEvent k v =>
    simp only [perform, stream_deleteEvent, Operation.Removes, not_and]
    split
    · next hk =>
      subst hk
      simp [hm, eq_comm (a := v)]
    · next hk => simp [hk, hm]
  | deleteAggregate k =>
    simp only [perform, stream_deleteAggregate, Operation.Removes]
    split
    · next hk => simp [hk]
    · next hk => simp [hk, hm]
  | clear => simp [perform, Operation.Removes, stream, empty]

structure Holds (s : Store) (key : String) (m : Message) : Prop where
  bound : s.keys.get? m.aggregateKey = some key
  stored : m ∈ s.stream m.aggregateKey

/-- An append by key binds the key, unless it was bound before. -/
theorem holds_of_appendKeyed {now : Int64} {origin : List Record} {p : Payload α}
    (h : s.appendKeyed r now key origin p = (.ok m, s')) : s'.Holds key m := by
  obtain ⟨-, v, -, hcheck, -, rfl⟩ := appendKeyed_eq_ok_iff.1 h
  refine ⟨get?_keys_bind hcheck, ?_⟩
  simp [stream_bind, stream_push]

/-- A further append binds a key only where none was bound. -/
theorem Adds.get?_keys (ha : s.Adds n s') {k : AggregateKey} (h : s.keys.get? k = some key) :
    s'.keys.get? k = some key := by
  rcases ha.keys with hs | ⟨added, hfree, hs⟩
  · rw [hs, h]
  · have hk : n.aggregateKey ≠ k := by
      rintro rfl
      simp [hfree] at h
    simp [hs, Table.get?_insert, hk, h]

theorem Holds.perform (h : s.Holds key m) {op : Operation α} (hop : ¬ op.Removes m) :
    (s.perform r op).Holds key m := by
  refine ⟨?_, (mem_stream_perform_iff h.stored).2 hop⟩
  cases op with
  | append now id v origin p =>
    rcases perform_append now id v origin p with hs | ⟨n, ha⟩
    · rw [hs, h.bound]
    · exact ha.adds.get?_keys h.bound
  | appendKeyed now other origin p =>
    rcases perform_appendKeyed now other origin p with hs | ⟨n, ha⟩
    · rw [hs, h.bound]
    · exact ha.adds.get?_keys h.bound
  | storeSnapshot record => exact h.bound
  | deleteEvent k v =>
    rw [Store.perform, (s.keys_deleteEvent k v).1]
    exact h.bound
  | deleteAggregate k =>
    have hk : k ≠ m.aggregateKey := hop
    simp [Store.perform, deleteAggregate, Table.get?_erase, hk, h.bound]
  | clear => exact absurd trivial hop

/-- The binding lasts over any calls that leave the event where it is. -/
theorem Holds.foldl_perform (h : s.Holds key m) {ops : List (Operation α)}
    (hops : ∀ op ∈ ops, ¬ op.Removes m) : (ops.foldl (Store.perform r) s).Holds key m := by
  induction ops generalizing s with
  | nil => exact h
  | cons op rest ih =>
    refine ih (h.perform (hops op List.mem_cons_self)) ?_
    intro x hx
    exact hops x (List.mem_cons_of_mem op hx)

/-- What the key `other` can learn and do where `key` is bound to the aggregate of `m`: its readings
fail or miss `m`, and its appends fail or go to another stream. With an id in common it is told of the
collision. -/
structure Withholds (r : Registry α σ) (s : Store) (key : String) (m : Message) (other : String) :
    Prop where
  read : ∀ first events, s.keyedEvents m.domain other first = .ok events →
    textHash other ≠ m.id ∧ events = s.events ⟨m.domain, textHash other⟩ first ∧ m ∉ events
  append : ∀ now origin (p : Payload α) n s', s.appendKeyed r now other origin p = (.ok n, s') →
    n.aggregateKey ≠ m.aggregateKey ∧ s'.stream m.aggregateKey = s.stream m.aggregateKey
  collides : other ≠ "" → textHash other = m.id →
    (∀ first, s.keyedEvents m.domain other first = .error (.keyCollision other key)) ∧
      ∀ now origin (p : Payload α), r.eventDomain p = .ok m.domain →
        s.appendKeyed r now other origin p = (refuse (.keyCollision other key), s)
  empty : other = "" →
    (∀ first, s.keyedEvents m.domain other first = .error (.invalidEventKey other)) ∧
      ∀ now origin (p : Payload α),
        s.appendKeyed r now other origin p = (refuse (.invalidEventKey other), s)

omit [Content α] in
theorem WellFormed.not_mem_events (hs : s.WellFormed r) {k : AggregateKey} (hk : k.id ≠ m.id)
    (first : Int32) : m ∉ s.events k first := by
  intro hm
  exact hk (hs.stored k m (List.mem_filter.1 hm).1).id.symm

theorem keyedEvents_eq_ok {domain first : Int32} {events : List Message}
    (h : s.keyedEvents domain key first = .ok events) :
    s.checkKey ⟨domain, textHash key⟩ key = .ok () ∧
      events = s.events ⟨domain, textHash key⟩ first := by
  unfold keyedEvents at h
  split at h
  · cases h
  · obtain ⟨⟨⟩, hcheck, h⟩ := bind_eq_ok_iff.1 h
    cases h
    exact ⟨hcheck, rfl⟩

theorem Holds.withholds (h : s.Holds key m) (hs : s.WellFormed r) (hne : other ≠ key) :
    s.Withholds r key m other := by
  have hcheck := checkKey_eq_error h.bound hne
  have hsame : textHash other = m.id → ⟨m.domain, textHash other⟩ = m.aggregateKey := by
    intro hhash
    rw [hhash]
    rfl
  constructor
  case read =>
    intro first events hread
    obtain ⟨hok, rfl⟩ := keyedEvents_eq_ok hread
    have hhash : textHash other ≠ m.id := by
      intro hhash
      rw [hsame hhash, hcheck] at hok
      cases hok
    exact ⟨hhash, rfl, hs.not_mem_events hhash first⟩
  case append =>
    intro now origin p n s' happend
    obtain ⟨-, v, -, hok, -, rfl⟩ := appendKeyed_eq_ok_iff.1 happend
    have hk : n.aggregateKey ≠ m.aggregateKey := by
      intro hk
      rw [hk, hcheck] at hok
      cases hok
    exact ⟨hk, by simp [stream_bind, stream_push, hk]⟩
  case collides =>
    intro hother hhash
    refine ⟨fun first => ?_, fun now origin p hp => ?_⟩
    · simp [keyedEvents, hother, hsame hhash, hcheck, Bind.bind, Except.bind]
    · simp [appendKeyed, hother, hp, hsame hhash, hcheck]
  case empty =>
    rintro rfl
    exact ⟨fun _ => rfl, fun _ _ _ => rfl⟩

/-- An event that was appended by a key, and that no call has removed since, is withheld from every
other key, whether or not the two keys have one hash. -/
theorem keyed_event_withheld (hr : r.Built) {before after : List (Operation α)} {now : Int64}
    {origin : List Record} {p : Payload α}
    (happend : (run r before).appendKeyed r now key origin p = (.ok m, s))
    (hkept : ∀ op ∈ after, ¬ op.Removes m) :
    ∀ other, other ≠ key →
      (run r (before ++ .appendKeyed now key origin p :: after)).Withholds r key m other := by
  intro other hne
  have hs := wellFormed_run hr.filed (before ++ .appendKeyed now key origin p :: after)
  have hrun : run r (before ++ .appendKeyed now key origin p :: after) =
      after.foldl (perform r) s := by
    rw [run_append, List.foldl_cons, perform, happend]
  rw [hrun] at hs ⊢
  exact ((holds_of_appendKeyed happend).foldl_perform hkept).withholds hs hne

/-- Two keys with one hash. The second one tries to append after the first, which has bound the
aggregate, and after an event that was appended there by id was deleted again. -/
theorem keyed_event_withheld_collision :
    let r : Registry ValueChanger.Change ValueChanger.Value := .minimal "test/source"
    let m := r.report (textHash "22d394539e605f01") 1 1 [] ⟨"disk full"⟩
    let after : List (Operation ValueChanger.Change) :=
      [.append 2 (textHash "22d394539e605f01") 2 [] (.errorRaised ⟨"disk full"⟩),
        .deleteEvent m.aggregateKey 2,
        .appendKeyed 3 "e5056d13bb9ef1db" [] (.errorRaised ⟨"disk full"⟩)]
    textHash "e5056d13bb9ef1db" = textHash "22d394539e605f01" ∧ (∀ op ∈ after, ¬ op.Removes m) ∧
      (run r ([] ++ .appendKeyed 1 "22d394539e605f01" [] (.errorRaised ⟨"disk full"⟩) ::
        after)).Withholds r "22d394539e605f01" m "e5056d13bb9ef1db" := by
  intro r m after
  have hr : r.Built := Registry.built_minimal "test/source"
  have happend : (run r []).appendKeyed r 1 "22d394539e605f01" [] (.errorRaised ⟨"disk full"⟩) =
      (.ok m, _) :=
    appendKeyed_report hr 1 [] ⟨"disk full"⟩ (by decide) rfl rfl
  have hkept : ∀ op ∈ after, ¬ op.Removes m := by
    intro op hop
    simp only [after, List.mem_cons, List.not_mem_nil, or_false] at hop
    rcases hop with rfl | rfl | rfl
    · exact not_false
    · rintro ⟨-, hv⟩
      cases hv
    · exact not_false
  exact ⟨by decide +kernel, hkept,
    keyed_event_withheld hr happend hkept _ (by decide)⟩

end Store
end EventSourcing
