import EventSourcing.Proofs.Domain.System
import EventSourcing.Proofs.Store.Run
import EventSourcing.Store.Query
import EventSourcing.ValueChanger.Domain

/-! Every run of a store leads to a well-formed one: the versions of each stream ascend from one on,
each event is an event of the domain that it is filed under and addressed to its aggregate, each key
bound hashes to the id of an aggregate that has a stream, and each snapshot is filed under its own
header. Deletions may leave holes in a stream or empty it. -/

namespace EventSourcing

variable {α σ : Type} {r : Registry α σ}

/-- The message may be stored under `k`. -/
structure Message.Stored (r : Registry α σ) (k : AggregateKey) (m : Message) : Prop where
  version_pos : 1 ≤ m.version
  source : m.header.source = r.sourceId
  domain : m.domain = k.domain
  id : m.id = k.id
  event : m.isCommand = false
  listed : ∃ d t, r.domain k.domain = some d ∧ d.shortId = k.domain ∧
    t ∈ d.catalog.entries ∧ t.kind = .event ∧ t.typeId = m.typeId

/-- The event of a payload may be stored, whatever its version above zero. -/
theorem Registry.Makes.stored [Content α] (hr : r.Filed) {id now : Int64} {v : Int32}
    {origin : List Record} {p : Payload α} {m : Message} (h : r.Makes id v now origin p m)
    (hv : 1 ≤ v) : m.Stored r m.aggregateKey := by
  obtain ⟨d, t, data, hl, -, rfl⟩ := h
  obtain ⟨hd, hc⟩ := hr.domain_shortId hl.domain
  have ht := Catalog.mem_entries_of_byInstance hl.entry
  refine ⟨hv, rfl, rfl, rfl, ?_, d, t, hd, rfl, ht, hl.event, rfl⟩
  have hk : t.typeId.kind ≠ .command := by
    rw [hc.kind_typeId ht, hl.event]
    decide
  exact Bool.eq_false_iff.2 fun h => hk (t.typeId.isCommand_iff_kind.1 h)

namespace Store

structure WellFormed (r : Registry α σ) (s : Store) : Prop where
  ascending : ∀ k, (s.stream k).Pairwise fun m n => m.version < n.version
  stored : ∀ k, ∀ m ∈ s.stream k, m.Stored r k
  bound : ∀ k key, s.keys.get? k = some key →
    key ≠ "" ∧ textHash key = k.id ∧ s.streams.contains k = true
  filed : ∀ k record, s.snapshots.get? k = some record → k = ⟨record.domain, record.id⟩

theorem wellFormed_empty : empty.WellFormed r where
  ascending _ := List.Pairwise.nil
  stored _ _ hm := nomatch hm
  bound _ _ h := nomatch h
  filed _ _ h := nomatch h

/-- In an ascending stream the last version is the greatest. -/
theorem version_le_currentVersion {s : Store} {k : AggregateKey}
    (h : (s.stream k).Pairwise fun m n => m.version < n.version) {m : Message}
    (hm : m ∈ s.stream k) : m.version ≤ s.currentVersion k := by
  unfold currentVersion
  rcases List.eq_nil_or_concat (s.stream k) with hn | ⟨front, last, hl⟩
  · rw [hn] at hm
    cases hm
  · rw [hl, List.concat_eq_append, List.pairwise_append] at h
    rw [hl, List.concat_eq_append, List.mem_append] at hm
    rw [hl, List.concat_eq_append, List.getLast?_concat]
    rcases hm with hm | hm
    · exact Int32.le_of_lt (h.2.2 m hm last (List.mem_singleton_self last))
    · rw [List.mem_singleton.1 hm]
      exact Int32.le_refl _

theorem WellFormed.currentVersion_nonneg {s : Store} (h : s.WellFormed r) (k : AggregateKey) :
    0 ≤ (s.currentVersion k).toInt := by
  rcases s.currentVersion_eq_or_mem k with h0 | ⟨m, hm, hv⟩
  · rw [h0]
    decide
  · have h1 := Int32.le_iff_toInt_le.1 (h.stored k m hm).version_pos
    rw [hv] at h1
    exact Int.le_trans (by decide) h1

/-- All versions are above zero. -/
theorem WellFormed.events_zero {s : Store} (h : s.WellFormed r) (k : AggregateKey) :
    s.events k 0 = s.stream k := by
  unfold events
  rw [List.filter_eq_self]
  intro m hm
  exact decide_eq_true (Int32.le_trans (by decide) (h.stored k m hm).version_pos)

section

variable {s s' : Store} {k : AggregateKey} {m : Message}

theorem WellFormed.of_sublist (h : s.WellFormed r) (hs : ∀ k, (s'.stream k).Sublist (s.stream k))
    (hb : ∀ k key, s'.keys.get? k = some key →
      s.keys.get? k = some key ∧ s'.streams.contains k = s.streams.contains k)
    (hf : ∀ k record, s'.snapshots.get? k = some record → k = ⟨record.domain, record.id⟩) :
    s'.WellFormed r where
  ascending k := (h.ascending k).sublist (hs k)
  stored k m hm := h.stored k m ((hs k).subset hm)
  bound k key hk := by
    obtain ⟨hkey, hc⟩ := hb k key hk
    rw [hc]
    exact h.bound k key hkey
  filed := hf

theorem WellFormed.bind {key : String} (h : s.WellFormed r) (hne : key ≠ "")
    (hhash : textHash key = k.id) (hs : s.streams.contains k = true) : (s.bind k key).WellFormed r := by
  unfold Store.bind
  split
  · exact h
  · refine ⟨h.ascending, h.stored, ?_, h.filed⟩
    intro x key' hx
    rw [Table.get?_insert] at hx
    split at hx
    · next hk =>
      cases hx
      exact hk ▸ ⟨hne, hhash, hs⟩
    · exact h.bound x key' hx

theorem WellFormed.push [Content α] (hr : r.Filed) (h : s.WellFormed r) (ha : s.Appends r m s') :
    (s.push m.aggregateKey m).WellFormed r := by
  have hnext := previousVersion?_eq_some_iff.1 ha.follows
  have hpos := h.currentVersion_nonneg m.aggregateKey
  obtain ⟨id, now, p, hmake⟩ := ha.makes
  have hstored : m.Stored r m.aggregateKey :=
    hmake.stored hr (Int32.le_iff_toInt_le.2 (by rw [Int32.toInt_one]; omega))
  constructor
  case ascending =>
    intro k
    rw [stream_push]
    split
    · next hk =>
      refine List.pairwise_append.2 ⟨h.ascending _, List.pairwise_singleton _ _, ?_⟩
      intro n hn x hx
      rw [List.mem_singleton.1 hx]
      have hle := Int32.le_iff_toInt_le.1 (version_le_currentVersion (h.ascending _) hn)
      exact Int32.lt_iff_toInt_lt.2 (by omega)
    · exact h.ascending k
  case stored =>
    intro k n hn
    rw [stream_push] at hn
    split at hn
    · next hk =>
      subst hk
      rcases List.mem_append.1 hn with hn | hn
      · exact h.stored _ n hn
      · rw [List.mem_singleton.1 hn]
        exact hstored
    · exact h.stored k n hn
  case bound =>
    intro k key hk
    obtain ⟨hne, hhash, hc⟩ := h.bound k key hk
    refine ⟨hne, hhash, ?_⟩
    show (s.streams.insert _ _).contains k = true
    rw [Table.contains_insert, hc, Bool.or_true]
  case filed => exact h.filed

theorem WellFormed.appends [Content α] (hr : r.Filed) (h : s.WellFormed r) (ha : s.Appends r m s') :
    s'.WellFormed r := by
  have hp := h.push hr ha
  rcases ha.result with rfl | ⟨key, hne, hhash, -, rfl⟩
  · exact hp
  · refine hp.bind hne hhash ?_
    show (s.streams.insert _ _).contains _ = true
    rw [Table.contains_insert, decide_eq_true rfl, Bool.true_or]

theorem WellFormed.storeSnapshot (h : s.WellFormed r) (record : Record) :
    (s.storeSnapshot record).WellFormed r := by
  refine h.of_sublist (fun k => List.Sublist.refl _) (fun k key hk => ⟨hk, rfl⟩) ?_
  intro k x hx
  unfold Store.storeSnapshot at hx
  rw [Table.get?_insert] at hx
  split at hx
  · next hk =>
    cases hx
    exact hk.symm
  · exact h.filed k x hx

theorem contains_deleteEvent (s : Store) (k x : AggregateKey) (v : Int32) :
    (s.deleteEvent k v).2.streams.contains x = s.streams.contains x := by
  unfold deleteEvent
  split
  · rfl
  · next events he =>
    rw [Table.contains_insert]
    by_cases hk : k = x
    · subst hk
      simp [Table.contains, he]
    · simp [hk]

theorem keys_deleteEvent (s : Store) (k : AggregateKey) (v : Int32) :
    (s.deleteEvent k v).2.keys = s.keys ∧ (s.deleteEvent k v).2.snapshots = s.snapshots := by
  unfold deleteEvent
  split
  · exact ⟨rfl, rfl⟩
  · exact ⟨rfl, rfl⟩

theorem WellFormed.deleteEvent (h : s.WellFormed r) (k : AggregateKey) (v : Int32) :
    (s.deleteEvent k v).2.WellFormed r := by
  obtain ⟨hk, hf⟩ := s.keys_deleteEvent k v
  refine h.of_sublist ?_ ?_ ?_
  · intro x
    rw [stream_deleteEvent]
    split
    · next hx =>
      subst hx
      exact List.filter_sublist
    · exact List.Sublist.refl _
  · intro x key hx
    rw [hk] at hx
    exact ⟨hx, s.contains_deleteEvent k x v⟩
  · rw [hf]
    exact h.filed

theorem WellFormed.deleteAggregate (h : s.WellFormed r) (k : AggregateKey) :
    (s.deleteAggregate k).2.WellFormed r := by
  refine h.of_sublist ?_ ?_ ?_
  · intro x
    rw [stream_deleteAggregate]
    split
    · exact List.nil_sublist _
    · exact List.Sublist.refl _
  · intro x key hx
    unfold Store.deleteAggregate at hx ⊢
    rw [Table.get?_erase] at hx
    split at hx
    · cases hx
    · next hk =>
      refine ⟨hx, ?_⟩
      rw [Table.contains_erase, decide_eq_false hk, Bool.not_false, Bool.true_and]
  · intro x record hx
    unfold Store.deleteAggregate at hx
    rw [Table.get?_erase] at hx
    split at hx
    · cases hx
    · exact h.filed x record hx

theorem WellFormed.perform [Content α] (hr : r.Filed) (h : s.WellFormed r) (op : Operation α) :
    (s.perform r op).WellFormed r := by
  cases op with
  | append now id v origin p =>
    rcases perform_append now id v origin p with hs | ⟨m, ha⟩
    · rw [hs]
      exact h
    · exact h.appends hr ha
  | appendKeyed now key origin p =>
    rcases perform_appendKeyed now key origin p with hs | ⟨m, ha⟩
    · rw [hs]
      exact h
    · exact h.appends hr ha
  | storeSnapshot record => exact h.storeSnapshot record
  | deleteEvent k v => exact h.deleteEvent k v
  | deleteAggregate k => exact h.deleteAggregate k
  | clear => exact wellFormed_empty

end

theorem wellFormed_run [Content α] (hr : r.Filed) (ops : List (Operation α)) :
    (run r ops).WellFormed r :=
  run_induction wellFormed_empty fun _ op _ h => h.perform hr op

/-- Whatever calls are made, and whether they succeed or fail, a store stays well-formed. -/
theorem run_wellFormed [Content α] (hr : r.Built) (ops : List (Operation α)) :
    (run r ops).WellFormed r := wellFormed_run hr.filed ops

/-- Two errors raised at one aggregate, an append refused in between, and a hole left by a deletion. -/
theorem run_wellFormed_minimal :
    (Registry.minimal "test/source" : Registry ValueChanger.Change ValueChanger.Value).Built ∧
      (run (.minimal "test/source" : Registry ValueChanger.Change ValueChanger.Value)
        [.append 1 7 1 [] (.errorRaised ⟨"disk full"⟩),
          .append 2 7 3 [] (.errorRaised ⟨"out of turn"⟩),
          .append 3 7 2 [] (.errorRaised ⟨"disk full"⟩),
          .deleteEvent ⟨textHash32 systemUri, 7⟩ 1]).WellFormed
        (.minimal "test/source" : Registry ValueChanger.Change ValueChanger.Value) :=
  ⟨Registry.built_minimal _, run_wellFormed (Registry.built_minimal _) _⟩

end Store
end EventSourcing
