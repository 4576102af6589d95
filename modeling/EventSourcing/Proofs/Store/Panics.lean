import EventSourcing.Proofs.Engine.Snapshots
import EventSourcing.Proofs.Store.Effects

/-! Where a store panics. It counts versions in 32 bits at three places: before the version that an append
is given, after the version of a snapshot, and after the last version of a keyed stream. The last of them
has room as long as there were fewer appends than versions, since no version is greater than the number of
appends. The other two count from a number that the caller gives, and they leave the 32 bits for one
number each: for the least version that can be tried, and for the greatest version that a snapshot can
have. -/

namespace EventSourcing

inductive Query
  | event (k : AggregateKey) (version : Int32)
  | events (k : AggregateKey) (first : Int32)
  | eventsInPeriod (k : AggregateKey) (first last : Int64)
  | domainEvents (domain : Int32) (first last : Int64)
  | keyedEvents (domain : Int32) (key : String) (first : Int32)
  | eventsWithSnapshot (k : AggregateKey)
  | snapshot (k : AggregateKey)
  | eventCount

inductive Finding
  | event (m : Option Message)
  | events (ms : List Message)
  | withSnapshot (ms : List Message) (record : Option Record)
  | snapshot (record : Option Record)
  | count (n : Nat)

namespace Store

def read (s : Store) : Query → Attempt StoreError Finding
  | .event k version => .ok (.event (s.event? k version))
  | .events k first => .ok (.events (s.events k first))
  | .eventsInPeriod k first last => .ok (.events (s.eventsInPeriod k first last))
  | .domainEvents domain first last => .ok (.events (s.domainEvents domain first last))
  | .keyedEvents domain key first => .ofExcept ((s.keyedEvents domain key first).map .events)
  | .eventsWithSnapshot k =>
    match s.eventsWithSnapshot k with
    | .ok found => .ok (.withSnapshot found.1 found.2)
    | .error q => .error (.panic q)
  | .snapshot k => .ok (.snapshot (s.snapshot? k))
  | .eventCount => .ok (.count s.eventCount)

/-- The reading starts after a snapshot of the greatest version of all. -/
def Overruns (s : Store) : Query → Prop
  | .eventsWithSnapshot k => ∃ record, s.snapshot? k = some record ∧ record.version = Int32.maxValue
  | _ => False

end Store

variable {α σ : Type}

/-- The call appends an event at the least version of all. -/
def Operation.Underflows [Content α] (r : Registry α σ) : Operation α → Prop
  | .append _ _ version _ p => version = Int32.minValue ∧ ∃ domain, r.eventDomain p = .ok domain
  | _ => False

namespace Store

section Readings

variable {s : Store} {k : AggregateKey} {q : Panic}

theorem eventsWithSnapshot_eq_error_iff :
    s.eventsWithSnapshot k = .error q ↔
      (∃ record, s.snapshot? k = some record ∧ record.version = Int32.maxValue) ∧ q = .addOverflow := by
  unfold eventsWithSnapshot
  cases hsnapshot : s.snapshot? k with
  | none => simp
  | some record =>
    simp only [Option.some.injEq, exists_eq_left', ← nextVersion?_eq_none_iff]
    cases nextVersion? record.version with
    | none => simp [eq_comm]
    | some first => simp

theorem snapshot?_storeSnapshot (s : Store) (header : Header) (state : Bytes) :
    (s.storeSnapshot (.snapshot header state)).snapshot? ⟨header.domain, header.id⟩ =
      some (.snapshot header state) := by
  obtain ⟨-, hdomain, hid, -⟩ := Record.fields_snapshot header state
  unfold storeSnapshot snapshot?
  rw [Table.get?_insert, hdomain, hid, if_pos rfl]

/-- Nothing comes after a snapshot that is as late as the last event. -/
theorem eventsWithSnapshot_of_le {r : Registry α σ} (hs : s.WellFormed r) {record : Record}
    (hsnapshot : s.snapshot? k = some record) (hv : record.version ≠ Int32.maxValue)
    (hlast : s.currentVersion k ≤ record.version) :
    s.eventsWithSnapshot k = .ok ([], some record) := by
  have hmax : record.version < Int32.maxValue := by
    have hle := record.version.toInt_le
    have hne : record.version.toInt ≠ Int32.maxValue.toInt := fun h => hv (Int32.toInt_inj.1 h)
    rw [Int32.lt_iff_toInt_lt]
    omega
  have hafter : (s.stream k).filter (record.version < ·.version) = [] := by
    rw [List.filter_eq_nil_iff]
    intro m hm
    rw [decide_eq_true_eq, Int32.not_lt]
    exact Int32.le_trans (version_le_currentVersion (hs.ascending k) hm) hlast
  rw [eventsWithSnapshot_of_some hsnapshot hmax, hafter]

theorem read_eq_panic_iff {query : Query} :
    s.read query = .error (.panic q) ↔ s.Overruns query ∧ q = .addOverflow := by
  cases query with
  | eventsWithSnapshot k =>
    unfold Overruns
    rw [← eventsWithSnapshot_eq_error_iff]
    unfold read
    dsimp only
    cases s.eventsWithSnapshot k with
    | ok found => simp
    | error q' => simp
  | keyedEvents domain key first => exact iff_of_false ofExcept_ne_panic And.left
  | _ => exact iff_of_false nofun And.left

end Readings

/-- No event has a version greater than `n`. -/
def VersionsUpTo (s : Store) (n : Nat) : Prop := ∀ k, ∀ m ∈ s.stream k, m.version.toInt ≤ n

section Calls

variable [Content α] {r : Registry α σ} {s s' : Store} {answer : Attempt StoreError Reply} {n : Nat}
  {now id : Int64} {v : Int32} {origin : List Record} {p : Payload α} {domain : Int32} {q : Panic}

theorem VersionsUpTo.currentVersion_le (h : s.VersionsUpTo n) (k : AggregateKey) :
    (s.currentVersion k).toInt ≤ n := by
  rcases s.currentVersion_eq_or_mem k with h0 | ⟨m, hm, hv⟩
  · rw [h0]
    exact Int.natCast_nonneg n
  · rw [← hv]
    exact h k m hm

/-- Each append makes room for one version more. -/
theorem Effect.versionsUpTo (h : s.Effect r answer s') (hs : s.VersionsUpTo n) :
    s'.VersionsUpTo (n + (appendedEvents [answer]).length) := by
  intro k m hm
  rcases List.mem_append.1 ((h.stream_sublist k).subset hm) with hold | hnew
  · have hle := hs k m hold
    omega
  · -- What is new in a stream was appended by this very call, behind a version up to `n`.
    have hnew := (List.mem_filter.1 hnew).1
    cases h with
    | @appended m' _ ha =>
      obtain rfl : m = m' := List.mem_singleton.1 hnew
      have hlast := hs.currentVersion_le m.aggregateKey
      have hnext := previousVersion?_eq_some_iff.1 ha.follows
      show m.version.toInt ≤ (n + 1 : Nat)
      omega
    | _ => cases hnew

/-- No version is greater than the number of appends that have succeeded. -/
theorem versionsUpTo_run (ops : List (Operation α)) :
    (run r ops).VersionsUpTo (appendedEvents (empty.answers r ops)).length := by
  refine answers_induction (P := fun s as => s.VersionsUpTo (appendedEvents as).length) ops ?_ ?_
  · intro k m hm
    cases hm
  · intro s as op hs
    rw [appendedEvents_append, List.length_append]
    exact (s.effect_call r op).versionsUpTo hs

/-- Each call appends one event at most. -/
theorem length_appendedEvents_le (ops : List (Operation α)) :
    (appendedEvents (s.answers r ops)).length ≤ ops.length := by
  induction ops generalizing s with
  | nil => exact Nat.le_refl 0
  | cons op rest ih =>
    have hrest := ih (s := s.perform r op)
    have hone : (appendedEvents [(s.call r op).1]).length ≤ 1 := List.length_filterMap_le _ _
    show (appendedEvents ([(s.call r op).1] ++ (s.perform r op).answers r rest)).length ≤ rest.length + 1
    rw [appendedEvents_append, List.length_append]
    omega

theorem append_eq_panic_iff :
    (s.append r now id v origin p).1 = .error (.panic q) ↔
      (v = Int32.minValue ∧ ∃ domain, r.eventDomain p = .ok domain) ∧ q = .subOverflow := by
  constructor
  · intro h
    have hv := append_panic h
    cases hd : r.eventDomain p with
    | error e =>
      unfold append at h
      rw [hd] at h
      cases h
    | ok domain =>
      rw [hv, append_least hd] at h
      cases h
      exact ⟨⟨hv, domain, rfl⟩, rfl⟩
  · intro ⟨⟨hv, domain, hd⟩, hq⟩
    rw [hv, hq, append_least hd]

/-- A keyed append panics behind the greatest version only, and an append by id at the least one only. -/
theorem call_eq_panic_iff (hmax : ∀ k, s.currentVersion k ≠ Int32.maxValue) {op : Operation α} :
    (s.call r op).1 = .error (.panic q) ↔ op.Underflows r ∧ q = .subOverflow := by
  cases op with
  | append now id v origin p => exact answered_eq_error_iff.trans append_eq_panic_iff
  | appendKeyed now key origin p =>
    refine iff_of_false ?_ And.left
    intro h
    obtain ⟨k, hk⟩ := appendKeyed_panic (answered_eq_error_iff.1 h)
    exact hmax k hk
  | _ => exact iff_of_false nofun And.left

end Calls

/-- Where fewer appends have succeeded than there are versions above zero, a call panics just if it
appends an event at the least version, and a reading just if it starts after a snapshot of the greatest
one. At any other version an append that does not follow the last event is refused with a conflict, and
after any other snapshot that is as late as the last event there are no events. -/
theorem panics_only_at_outermost_versions [Content α] {r : Registry α σ} (hr : r.Built)
    (ops : List (Operation α))
    (hfew : ((appendedEvents (empty.answers r ops)).length : Int) < Int32.maxValue.toInt) :
    let s := run r ops
    (∀ op q, (s.call r op).1 = .error (.panic q) ↔ op.Underflows r ∧ q = .subOverflow) ∧
    (∀ query q, s.read query = .error (.panic q) ↔ s.Overruns query ∧ q = .addOverflow) ∧
    (∀ now id v origin p domain, r.eventDomain p = .ok domain → v ≠ Int32.minValue →
      nextVersion? (s.currentVersion ⟨domain, id⟩) ≠ some v →
      s.append r now id v origin p =
        (refuse (.concurrencyConflict ⟨domain, id⟩ (v - 1) (s.currentVersion ⟨domain, id⟩)), s)) ∧
    ∀ k record, s.snapshot? k = some record → record.version ≠ Int32.maxValue →
      s.currentVersion k ≤ record.version → s.eventsWithSnapshot k = .ok ([], some record) := by
  intro s
  have hs : s.WellFormed r := run_wellFormed hr ops
  have hmax : ∀ k, s.currentVersion k ≠ Int32.maxValue := by
    intro k hk
    have hle : (s.currentVersion k).toInt ≤ (appendedEvents (empty.answers r ops)).length :=
      (versionsUpTo_run ops).currentVersion_le k
    rw [hk] at hle
    omega
  refine ⟨?_, ?_, ?_, ?_⟩
  · intro op q
    exact call_eq_panic_iff hmax
  · intro query q
    exact read_eq_panic_iff
  · intro now id v origin p domain hd hv hlast
    exact append_conflict hd hv hlast
  · intro k record hsnapshot hv hlast
    exact eventsWithSnapshot_of_le hs hsnapshot hv hlast

/-- A snapshot of the only event: nothing is read after it, and no version is appended again. -/
theorem panics_only_at_outermost_versions_snapshot :
    let r : Registry ValueChanger.Change ValueChanger.Value := .minimal "test/source"
    let p : Payload ValueChanger.Change := .errorRaised ⟨"disk full"⟩
    let k : AggregateKey := ⟨textHash32 systemUri, 7⟩
    let record : Record := .snapshot ⟨0, textHash32 systemUri, 7, 1⟩ []
    let ops := [.append 1 7 1 [] p, .storeSnapshot record]
    let s := run r ops
    r.Built ∧ ((appendedEvents (empty.answers r ops)).length : Int) < Int32.maxValue.toInt ∧
      s.append r 2 7 1 [] p = (refuse (.concurrencyConflict k 0 1), s) ∧
      s.eventsWithSnapshot k = .ok ([], some record) ∧
      (∀ now key origin q, (s.call r (.appendKeyed now key origin p)).1 ≠ .error (.panic q)) ∧
      ∀ domain key first q, s.read (.keyedEvents domain key first) ≠ .error (.panic q) := by
  intro r p k record ops s
  have hr : r.Built := Registry.built_minimal "test/source"
  have hfew : ((appendedEvents (empty.answers r ops)).length : Int) < Int32.maxValue.toInt := by
    have hle := length_appendedEvents_le (r := r) (s := empty) ops
    have htwo : ops.length = 2 := rfl
    rw [Int32.toInt_maxValue]
    omega
  have hrun : s = (Store.empty.push k (r.report 7 1 1 [] ⟨"disk full"⟩)).storeSnapshot record := by
    simp only [s, ops, p, run, List.foldl_cons, List.foldl_nil]
    rw [perform_report hr 1 7 [] _ rfl]
    rfl
  have hcurrent : (run r ops).currentVersion k = 1 :=
    (congrArg (currentVersion · k) hrun).trans (currentVersion_push _ _ _)
  have hsnapshot : s.snapshot? k = some record :=
    (congrArg (snapshot? · k) hrun).trans (snapshot?_storeSnapshot _ _ _)
  have hversion : record.version = 1 := (Record.fields_snapshot _ _).2.2.2
  obtain ⟨hcalls, hreads, hconflict, hnone⟩ := panics_only_at_outermost_versions hr ops hfew
  have hdomain : r.eventDomain p = .ok (textHash32 systemUri) :=
    (hr.makes_report 7 1 1 [] ⟨"disk full"⟩).eventDomain
  refine ⟨hr, hfew, ?_, ?_, ?_, ?_⟩
  · have hnext : nextVersion? ((run r ops).currentVersion k) ≠ some 1 := by
      rw [hcurrent]
      decide
    have hrefused := hconflict 2 7 1 [] p _ hdomain (by decide) hnext
    rwa [hcurrent] at hrefused
  · refine hnone k record hsnapshot ?_ ?_
    · rw [hversion]
      decide
    · rw [hversion, hcurrent]
      exact Int32.le_refl 1
  · intro now key origin q h
    exact ((hcalls _ _).1 h).1
  · intro domain key first q h
    exact ((hreads _ _).1 h).1

/-- Nothing was appended yet: the greatest version of a snapshot and the least version of an event. -/
theorem outermost_versions_panic :
    let r : Registry ValueChanger.Change ValueChanger.Value := .minimal "test/source"
    let p : Payload ValueChanger.Change := .errorRaised ⟨"disk full"⟩
    let k : AggregateKey := ⟨textHash32 systemUri, 7⟩
    let record : Record := .snapshot ⟨0, textHash32 systemUri, 7, Int32.maxValue⟩ []
    let ops := [.storeSnapshot record]
    let s := run r ops
    r.Built ∧ appendedEvents (empty.answers r ops) = [] ∧
      s.read (.eventsWithSnapshot k) = .error (.panic .addOverflow) ∧
      (s.call r (.append 1 7 Int32.minValue [] p)).1 = .error (.panic .subOverflow) := by
  intro r p k record ops s
  have hr : r.Built := Registry.built_minimal "test/source"
  have hversion : record.version = Int32.maxValue := (Record.fields_snapshot _ _).2.2.2
  have hdomain : r.eventDomain p = .ok (textHash32 systemUri) :=
    (hr.makes_report 7 1 1 [] ⟨"disk full"⟩).eventDomain
  refine ⟨hr, rfl, read_eq_panic_iff.2 ⟨?_, rfl⟩, ?_⟩
  · exact ⟨record, snapshot?_storeSnapshot _ _ _, hversion⟩
  · exact answered_eq_error_iff.2 (congrArg Prod.fst (append_least hdomain))

end Store
end EventSourcing
