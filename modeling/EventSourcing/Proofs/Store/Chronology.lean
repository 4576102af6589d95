import EventSourcing.Proofs.Store.Effects
import EventSourcing.Proofs.Store.Timeline

/-! Time and version. Where the clock never goes back from one append to a later one, the versions and
the times of a stream grow together. The events of an aggregate are then the same list whether they are
picked out of a reading of their domain, which is sorted by time, or read from their stream, which is
sorted by version. -/

namespace EventSourcing

variable {α σ : Type}

def Operation.clock? : Operation α → Option Int64
  | .append now _ _ _ _ => some now
  | .appendKeyed now _ _ _ => some now
  | _ => none

variable [Content α] {r : Registry α σ}

theorem Registry.Makes.timestamp_eq {id now : Int64} {v : Int32} {origin : List Record}
    {p : Payload α} {m : Message} (h : r.Makes id v now origin p m) : m.timestamp = now := by
  obtain ⟨d, t, data, -, -, rfl⟩ := h
  rfl

namespace Store

/-- The clock never goes back between the appends of a run: the later event has the later time, or the
same. Calls that append nothing may read what they like. -/
def ClockForward (r : Registry α σ) (ops : List (Operation α)) : Prop :=
  (appendedEvents (empty.answers r ops)).Pairwise fun m n => m.timestamp ≤ n.timestamp

variable {s : Store} {ops : List (Operation α)} {k : AggregateKey}

theorem clock_of_appended {op : Operation α} {m : Message}
    (h : appended? (s.call r op).1 = some m) : op.clock? = some m.timestamp := by
  cases op with
  | append now id v origin p =>
    rcases s.append_cases r now id v origin p with ⟨n, s', hok⟩ | ⟨fault, hfault⟩
    · rw [call, hok] at h
      obtain rfl : n = m := Option.some.inj h
      rw [(append_eq_ok_iff.1 hok).1.timestamp_eq]
      rfl
    · rw [call, hfault] at h
      cases h
  | appendKeyed now key origin p =>
    rcases s.appendKeyed_cases r now key origin p with ⟨n, s', hok⟩ | ⟨fault, hfault⟩
    · rw [call, hok] at h
      obtain rfl : n = m := Option.some.inj h
      obtain ⟨-, v, hmake, -⟩ := appendKeyed_eq_ok_iff.1 hok
      rw [hmake.timestamp_eq]
      rfl
    · rw [call, hfault] at h
      cases h
  | storeSnapshot record => cases h
  | deleteEvent x v => cases h
  | deleteAggregate x => cases h
  | clear => cases h

/-- Each event is stamped with what the clock has read at its append. -/
theorem timestamps_sublist_clock (s : Store) (ops : List (Operation α)) :
    ((appendedEvents (s.answers r ops)).map Message.timestamp).Sublist
      (ops.filterMap Operation.clock?) := by
  induction ops generalizing s with
  | nil => exact List.Sublist.refl _
  | cons op rest ih =>
    have hrest := ih (s.perform r op)
    unfold appendedEvents at hrest ⊢
    rw [answers]
    cases happended : appended? (s.call r op).1 with
    | none =>
      rw [List.filterMap_cons_none happended]
      exact hrest.trans ((List.sublist_cons_self op rest).filterMap _)
    | some m =>
      rw [List.filterMap_cons_some happended, List.map_cons,
        List.filterMap_cons_some (clock_of_appended happended)]
      exact hrest.cons_cons _

theorem clockForward_of_readings (h : (ops.filterMap Operation.clock?).Pairwise (· ≤ ·)) :
    ClockForward r ops := by
  have hstamps := h.sublist (timestamps_sublist_clock (r := r) .empty ops)
  exact List.pairwise_map.1 hstamps

/-- Under a clock that goes forward, a stream is in the order of time as well. -/
theorem ClockForward.pairwise_earlier (h : ClockForward r ops) (hs : (run r ops).WellFormed r)
    (k : AggregateKey) : ((run r ops).stream k).Pairwise Message.Earlier := by
  have hsub := (stream_sublist_appended (r := r) .empty ops k).trans List.filter_sublist
  have htime : ((run r ops).stream k).Pairwise fun m n => m.timestamp ≤ n.timestamp :=
    h.sublist hsub
  refine (htime.and (hs.ascending k)).imp_of_mem ?_
  rintro m n hm hn ⟨hle, hlt⟩
  have hid : m.id = n.id := (hs.stored k m hm).id.trans (hs.stored k n hn).id.symm
  rcases Int64.lt_or_eq_of_le hle with hearlier | hsame
  · exact .inl hearlier
  · exact .inr ⟨hsame, .inr ⟨hid, hlt⟩⟩

omit [Content α] in
/-- The events of one id in a reading of the domain are those of its stream. -/
theorem WellFormed.mem_domainEvents_filter_iff (hs : s.WellFormed r) {d : Int32} {id : Int64}
    {first last : Int64} {m : Message} :
    m ∈ (s.domainEvents d first last).filter (·.id = id) ↔
      m ∈ s.eventsInPeriod ⟨d, id⟩ first last := by
  unfold eventsInPeriod
  rw [List.mem_filter, List.mem_filter, mem_domainEvents_iff, decide_eq_true_eq]
  refine ⟨?_, ?_⟩
  · rintro ⟨⟨⟨id', hm⟩, hperiod⟩, hid⟩
    obtain rfl : id' = id := (hs.stored _ m hm).id.symm.trans hid
    exact ⟨hm, hperiod⟩
  · rintro ⟨hm, hperiod⟩
    exact ⟨⟨⟨id, hm⟩, hperiod⟩, (hs.stored _ m hm).id⟩

omit [Content α] in
theorem eventsInPeriod_widest (s : Store) (k : AggregateKey) :
    s.eventsInPeriod k Int64.minValue Int64.maxValue = s.stream k := by
  unfold eventsInPeriod
  rw [List.filter_eq_self]
  intro m _
  exact Message.inPeriod_iff.2 ⟨Int64.minValue_le _, Int64.le_maxValue _⟩

/-- Under a clock that goes forward all readings of an aggregate agree: the events of its id among
those of the domain are, in the same order, the events of its stream in the period, in the order of
their versions, and over the widest period they are all of its events. -/
theorem readings_agree (hr : r.Built) {ops : List (Operation α)} (hclock : ClockForward r ops)
    (d : Int32) (id first last : Int64) :
    let s := run r ops
    let k : AggregateKey := ⟨d, id⟩
    (s.domainEvents d first last).filter (·.id = id) = s.eventsInPeriod k first last ∧
      (s.eventsInPeriod k first last).Pairwise (fun m n => m.version < n.version) ∧
      s.eventsInPeriod k Int64.minValue Int64.maxValue = s.events k 0 ∧
      (s.domainEvents d Int64.minValue Int64.maxValue).filter (·.id = id) = s.events k 0 := by
  intro s k
  have hs : s.WellFormed r := wellFormed_run hr.filed ops
  have hagree : ∀ first last,
      (s.domainEvents d first last).filter (·.id = id) = s.eventsInPeriod k first last := by
    intro first last
    refine Message.eq_of_earlier ?_ ?_ fun m => hs.mem_domainEvents_filter_iff
    · exact (hs.pairwise_domainEvents d first last).sublist List.filter_sublist
    · exact (hclock.pairwise_earlier hs k).sublist List.filter_sublist
  have hwidest : s.eventsInPeriod k Int64.minValue Int64.maxValue = s.events k 0 :=
    (s.eventsInPeriod_widest k).trans (hs.events_zero k).symm
  exact ⟨hagree first last, (hs.ascending k).sublist List.filter_sublist, hwidest,
    (hagree _ _).trans hwidest⟩

/-- Two aggregates that are appended to in turn, at times that repeat, with an event deleted between. -/
theorem readings_agree_in_turn :
    let r : Registry ValueChanger.Change ValueChanger.Value := .minimal "test/source"
    let p : Payload ValueChanger.Change := .errorRaised ⟨"disk full"⟩
    let d := textHash32 systemUri
    let k : AggregateKey := ⟨d, 7⟩
    let ops := [.append 5 8 1 [] p, .append 5 7 1 [] p, .append 6 7 2 [] p, .deleteEvent k 1,
      .append 6 8 2 [] p, .append 6 7 3 [] p]
    let s := run r ops
    r.Built ∧ ClockForward r ops ∧
      (s.domainEvents d 6 9).filter (·.id = 7) = s.eventsInPeriod k 6 9 ∧
      (s.domainEvents d Int64.minValue Int64.maxValue).filter (·.id = 7) = s.events k 0 := by
  intro r p d k ops s
  have hr : r.Built := Registry.built_minimal "test/source"
  have hclock : ClockForward r ops := clockForward_of_readings (by decide)
  have h := readings_agree hr hclock d 7 6 9
  exact ⟨hr, hclock, h.1, h.2.2.2⟩

end Store
end EventSourcing
