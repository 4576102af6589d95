import EventSourcing.Proofs.Store.Frame

/-! The events of a domain in the order of time. A reading of a domain lists the events that are stored
of it and were stamped in the period, in the order by time, id and version. The events of one id stand
in one stream, where no version comes twice, so no two events of a domain have the same place in this
order. There is one way only to list them, whatever order the table has its streams in. -/

namespace EventSourcing

namespace Message

variable {m n : Message}

/-- The order by time, id and version, in which no event precedes itself. -/
def Earlier (m n : Message) : Prop :=
  m.timestamp < n.timestamp ∨ m.timestamp = n.timestamp ∧
    (m.id < n.id ∨ m.id = n.id ∧ m.version < n.version)

/-- The messages differ in id or version. -/
def Apart (m n : Message) : Prop := m.id ≠ n.id ∨ m.version ≠ n.version

theorem Apart.symm (h : m.Apart n) : n.Apart m := h.imp Ne.symm Ne.symm

theorem precedes_iff_toInt :
    m.precedes n = true ↔
      m.timestamp.toInt < n.timestamp.toInt ∨ m.timestamp.toInt = n.timestamp.toInt ∧
        (m.id.toInt < n.id.toInt ∨ m.id.toInt = n.id.toInt ∧ m.version.toInt ≤ n.version.toInt) := by
  simp only [precedes, decide_eq_true_eq, Int64.lt_iff_toInt_lt, Int64.toInt_inj,
    Int32.le_iff_toInt_le]

theorem earlier_iff_toInt :
    m.Earlier n ↔
      m.timestamp.toInt < n.timestamp.toInt ∨ m.timestamp.toInt = n.timestamp.toInt ∧
        (m.id.toInt < n.id.toInt ∨ m.id.toInt = n.id.toInt ∧ m.version.toInt < n.version.toInt) := by
  simp only [Earlier, Int64.lt_iff_toInt_lt, Int64.toInt_inj, Int32.lt_iff_toInt_lt]

theorem precedes_trans (l m n : Message) (h : l.precedes m = true) (h' : m.precedes n = true) :
    l.precedes n = true := by
  rw [precedes_iff_toInt] at h h' ⊢
  omega

theorem precedes_total (m n : Message) : (m.precedes n || n.precedes m) = true := by
  rw [Bool.or_eq_true, precedes_iff_toInt, precedes_iff_toInt]
  omega

theorem Earlier.asymm (h : m.Earlier n) : ¬ n.Earlier m := by
  rw [earlier_iff_toInt] at h ⊢
  omega

theorem earlier_of_precedes (h : m.precedes n = true) (hne : m.Apart n) : m.Earlier n := by
  rw [precedes_iff_toInt] at h
  rw [Apart, ne_eq, ne_eq, ← Int64.toInt_inj, ← Int32.toInt_inj] at hne
  rw [earlier_iff_toInt]
  omega

theorem nodup_of_earlier {l : List Message} (h : l.Pairwise Earlier) : l.Nodup := by
  refine h.imp ?_
  rintro m _ hm rfl
  exact hm.asymm hm

/-- There is one way only to list given events in strict order. -/
theorem eq_of_earlier {l l' : List Message} (h : l.Pairwise Earlier) (h' : l'.Pairwise Earlier)
    (hmem : ∀ m, m ∈ l ↔ m ∈ l') : l = l' := by
  refine List.Perm.eq_of_pairwise (fun m n _ _ hmn hnm => (hmn.asymm hnm).elim) h h' ?_
  exact (List.perm_ext_iff_of_nodup (nodup_of_earlier h) (nodup_of_earlier h')).2 hmem

/-- Messages that are apart are sorted strictly. -/
theorem pairwise_earlier_mergeSort {l : List Message} (h : l.Pairwise Apart) :
    (l.mergeSort precedes).Pairwise Earlier := by
  have happart := ((List.mergeSort_perm l precedes).pairwise_iff Apart.symm).2 h
  have hsorted := List.pairwise_mergeSort precedes_trans precedes_total l
  exact (hsorted.and happart).imp fun h => earlier_of_precedes h.1 h.2

theorem mergeSort_eq_of_perm {l l' : List Message} (h : l.Pairwise Apart) (hperm : l.Perm l') :
    l.mergeSort precedes = l'.mergeSort precedes := by
  have h' : l'.Pairwise Apart := (hperm.pairwise_iff Apart.symm).1 h
  refine eq_of_earlier (pairwise_earlier_mergeSort h) (pairwise_earlier_mergeSort h') ?_
  intro m
  rw [List.mem_mergeSort, List.mem_mergeSort, hperm.mem_iff]

theorem inPeriod_iff {first last : Int64} :
    m.inPeriod first last = true ↔ first ≤ m.timestamp ∧ m.timestamp ≤ last := by
  unfold inPeriod
  rw [decide_eq_true_eq]

end Message

namespace Store

section

variable {α σ : Type} {r : Registry α σ} {s : Store}

/-- The events of a domain that were stamped in the period, one stream after the other. -/
def gatheredEvents (s : Store) (d : Int32) (first last : Int64) : List Message :=
  ((s.streams.entries.filter (·.1.domain = d)).flatMap (·.2)).filter (Message.inPeriod first last)

omit r in
theorem domainEvents_eq (s : Store) (d : Int32) (first last : Int64) :
    s.domainEvents d first last = (s.gatheredEvents d first last).mergeSort Message.precedes := rfl

/-- No id has a version twice in a domain. -/
theorem WellFormed.pairwise_apart (hs : s.WellFormed r) (d : Int32) (first last : Int64) :
    (s.gatheredEvents d first last).Pairwise Message.Apart := by
  refine List.Pairwise.filter _ ?_
  rw [List.pairwise_flatMap]
  refine ⟨?_, ?_⟩
  · intro e he
    rw [← stream_eq_of_mem_entries (List.mem_filter.1 he).1]
    exact (hs.ascending e.1).imp fun hlt => .inr (Int32.ne_of_lt hlt)
  · have hkeys : (s.streams.entries.filter (·.1.domain = d)).Pairwise fun e e' => e.1 ≠ e'.1 :=
      (List.pairwise_map.1 s.streams.distinct).sublist List.filter_sublist
    refine hkeys.imp_of_mem ?_
    intro e e' he he' hne m hm n hn
    obtain ⟨he, hd⟩ := List.mem_filter.1 he
    obtain ⟨he', hd'⟩ := List.mem_filter.1 he'
    rw [← stream_eq_of_mem_entries he] at hm
    rw [← stream_eq_of_mem_entries he'] at hn
    -- The keys are of one domain, so it is their ids that differ.
    have hid : e.1.id ≠ e'.1.id := by
      intro hid
      have hdomain : e.1.domain = e'.1.domain :=
        (of_decide_eq_true hd).trans (of_decide_eq_true hd').symm
      exact hne (by rw [AggregateKey.mk.injEq]; exact ⟨hdomain, hid⟩)
    rw [← (hs.stored _ m hm).id, ← (hs.stored _ n hn).id] at hid
    exact .inl hid

theorem WellFormed.pairwise_domainEvents (hs : s.WellFormed r) (d : Int32) (first last : Int64) :
    (s.domainEvents d first last).Pairwise Message.Earlier := by
  rw [domainEvents_eq]
  exact Message.pairwise_earlier_mergeSort (hs.pairwise_apart d first last)

end

variable {α σ : Type} [Content α] {r : Registry α σ}

/-- The events of a domain are read in strict order, each event that is stored of the domain and was
stamped in the period, and no other. So the answer is the same in whatever order the table enumerates
its streams. -/
theorem domain_events_in_order (hr : r.Built) (ops : List (Operation α)) (d : Int32)
    (first last : Int64) :
    let s := run r ops
    (∀ m, m ∈ s.domainEvents d first last ↔
      (∃ id, m ∈ s.stream ⟨d, id⟩) ∧ first ≤ m.timestamp ∧ m.timestamp ≤ last) ∧
    (s.domainEvents d first last).Nodup ∧
    (s.domainEvents d first last).Pairwise Message.Earlier ∧
    ∀ t : Store, t.streams.entries.Perm s.streams.entries →
      t.domainEvents d first last = s.domainEvents d first last := by
  intro s
  have hs : s.WellFormed r := wellFormed_run hr.filed ops
  have horder := hs.pairwise_domainEvents d first last
  refine ⟨?_, Message.nodup_of_earlier horder, horder, ?_⟩
  · intro m
    rw [mem_domainEvents_iff, Message.inPeriod_iff]
  · intro t hperm
    have hgathered : (s.gatheredEvents d first last).Perm (t.gatheredEvents d first last) :=
      ((hperm.symm.filter _).flatMap_right _).filter _
    rw [domainEvents_eq, domainEvents_eq]
    exact (Message.mergeSort_eq_of_perm (hs.pairwise_apart d first last) hgathered).symm

/-- Two events of one time are read in the order of their ids, although the table has the other
aggregate first. What comes later is not read. -/
theorem domain_events_in_order_same_time :
    let r : Registry ValueChanger.Change ValueChanger.Value := .minimal "test/source"
    let p : Payload ValueChanger.Change := .errorRaised ⟨"disk full"⟩
    let d := textHash32 systemUri
    let s := run r [.append 5 8 1 [] p, .append 5 7 1 [] p, .append 6 7 2 [] p]
    r.Built ∧
      s.domainEvents d 0 5 = [r.report 7 1 5 [] ⟨"disk full"⟩, r.report 8 1 5 [] ⟨"disk full"⟩] ∧
      ∀ t : Store, t.streams.entries.Perm s.streams.entries →
        t.domainEvents d 0 5 = s.domainEvents d 0 5 := by
  intro r p d s
  have hr : r.Built := Registry.built_minimal "test/source"
  let m (id : Int64) (v : Int32) (now : Int64) : Message := r.report id v now [] ⟨"disk full"⟩
  have hne : (⟨d, 8⟩ : AggregateKey) ≠ ⟨d, 7⟩ := by simp
  have hrun : s =
      ((Store.empty.push ⟨d, 8⟩ (m 8 1 5)).push ⟨d, 7⟩ (m 7 1 5)).push ⟨d, 7⟩ (m 7 2 6) := by
    simp only [s, p, run, List.foldl_cons, List.foldl_nil]
    rw [perform_report hr 5 8 [] _ rfl,
      perform_report hr 5 7 [] _ (by rw [currentVersion_push_of_ne _ hne]; rfl),
      perform_report hr 6 7 [] _ (by rw [currentVersion_push]; rfl)]
  have hstream : ∀ id n, n ∈ s.stream ⟨d, id⟩ ↔
      id = 7 ∧ (n = m 7 1 5 ∨ n = m 7 2 6) ∨ id = 8 ∧ n = m 8 1 5 := by
    intro id n
    have hempty : ∀ k, Store.empty.stream k = [] := fun _ => rfl
    rw [hrun]
    by_cases h7 : id = 7
    · simp [stream_push, hempty, h7]
    · by_cases h8 : id = 8
      · simp [stream_push, hempty, h8]
      · simp [stream_push, hempty, h7, h8, Ne.symm h7, Ne.symm h8]
  obtain ⟨hmem, -, horder, henumerations⟩ := domain_events_in_order hr
    [.append 5 8 1 [] p, .append 5 7 1 [] p, .append 6 7 2 [] p] d 0 5
  refine ⟨hr, Message.eq_of_earlier horder ?_ ?_, henumerations⟩
  · have hearlier : (m 7 1 5).Earlier (m 8 1 5) := .inr ⟨rfl, .inl (by decide)⟩
    exact List.pairwise_pair.2 hearlier
  · intro n
    rw [hmem]
    show (∃ id, n ∈ s.stream ⟨d, id⟩) ∧ _ ↔ _
    simp only [hstream, List.mem_cons, List.not_mem_nil, or_false]
    refine ⟨?_, ?_⟩
    · rintro ⟨⟨id, ⟨-, rfl | rfl⟩ | ⟨-, rfl⟩⟩, -, hlast⟩
      · exact .inl rfl
      · exact absurd hlast (by decide)
      · exact .inr rfl
    · rintro (rfl | rfl)
      · exact ⟨⟨7, .inl ⟨rfl, .inl rfl⟩⟩, by decide, by decide⟩
      · exact ⟨⟨8, .inr ⟨rfl, rfl⟩⟩, by decide, by decide⟩

end Store
end EventSourcing
