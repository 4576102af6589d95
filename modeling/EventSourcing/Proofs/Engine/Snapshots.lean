import EventSourcing.Proofs.Engine.Readable
import EventSourcing.Proofs.Message.Header

/-! Replaying from a snapshot. A snapshot splits the stream of its aggregate at its version: as the
versions ascend, the events up to it come first and those after it last, whether or not an event has
this very version. Where the snapshot carries the state that the first part leads to, the second part
leads from there to the state that the whole stream leads to. -/

namespace EventSourcing

variable {α σ : Type}

namespace Domain

variable {d : Domain α σ} {state final : State σ} {events before after : List Message}

def resume (d : Domain α σ) (state : State σ) (events : List Message) :
    Except ReplayError (State σ) :=
  (events.mapM d.decodeEvent).map (·.foldl d.aggregate.apply state)

/-- A replay resumes from the initial state. -/
theorem replay_eq_ok_iff_resume :
    d.replay events = .ok state ↔ d.resume d.aggregate.initial events = .ok state := by
  rw [replay_eq_ok_iff, resume, map_eq_ok_iff]
  rfl

theorem resume_append_eq_ok_iff :
    d.resume state (before ++ after) = .ok final ↔
      ∃ mid, d.resume state before = .ok mid ∧ d.resume mid after = .ok final := by
  simp only [resume, map_eq_ok_iff, List.mapM_append, bind_eq_ok_iff]
  refine ⟨?_, ?_⟩
  · rintro ⟨payloads, ⟨first, hfirst, last, hlast, hall⟩, hfinal⟩
    cases hall
    rw [List.foldl_append] at hfinal
    exact ⟨_, ⟨first, hfirst, rfl⟩, last, hlast, hfinal⟩
  · rintro ⟨mid, ⟨first, hfirst, rfl⟩, last, hlast, hfinal⟩
    exact ⟨first ++ last, ⟨first, hfirst, last, hlast, rfl⟩, (List.foldl_append ..).trans hfinal⟩

theorem exists_resume (h : ∀ m ∈ events, ∃ p, d.decodeEvent m = .ok p) (state : State σ) :
    ∃ final, d.resume state events = .ok final := by
  obtain ⟨payloads, hpayloads⟩ := exists_mapM_eq_ok h
  exact ⟨_, map_eq_ok_iff.2 ⟨payloads, hpayloads, rfl⟩⟩

end Domain

/-- The record carries, in a form that `restore` reads, the state after the events up to its
version. -/
def Record.Sums (record : Record) (d : Domain α σ)
    (restore : Bytes → Except SerializationError (State σ)) (events : List Message) : Prop :=
  ∃ state, restore record.state = .ok state ∧
    d.replay (events.filter (·.version ≤ record.version)) = .ok state

theorem filter_le_append_filter_lt {l : List Message}
    (h : l.Pairwise fun m n => m.version < n.version) (v : Int32) :
    l.filter (·.version ≤ v) ++ l.filter (v < ·.version) = l := by
  have hdown : l.Pairwise fun m n => decide (n.version ≤ v) = true → decide (m.version ≤ v) = true := by
    refine h.imp ?_
    intro m n hlt hle
    exact decide_eq_true (Int32.le_trans (Int32.le_of_lt hlt) (of_decide_eq_true hle))
  have hsplit := take_countP hdown
  have hlate : l.filter (fun m => !decide (m.version ≤ v)) = l.filter (v < ·.version) := by
    refine List.filter_congr ?_
    intro m _
    rw [← decide_not, decide_eq_decide, Int32.not_le]
  rw [← hlate, ← hsplit.1, ← hsplit.2, List.take_append_drop]

namespace Store

section

variable {s : Store} {k : AggregateKey}

theorem eventsWithSnapshot_of_none {r : Registry α σ} (hs : s.WellFormed r)
    (h : s.snapshot? k = none) : s.eventsWithSnapshot k = .ok (s.stream k, none) := by
  unfold eventsWithSnapshot
  rw [h, ← hs.events_zero k]

theorem eventsWithSnapshot_of_some {record : Record} (h : s.snapshot? k = some record)
    (hv : record.version < Int32.maxValue) :
    s.eventsWithSnapshot k =
      .ok ((s.stream k).filter (record.version < ·.version), some record) := by
  unfold eventsWithSnapshot
  rw [h]
  cases hnext : nextVersion? record.version with
  | none => exact absurd (nextVersion?_eq_none_iff.1 hnext) (Int32.ne_of_lt hv)
  | some first =>
    have hfirst := nextVersion?_eq_some_iff.1 hnext
    have hevents : s.events k first = (s.stream k).filter (record.version < ·.version) := by
      refine List.filter_congr ?_
      intro m _
      rw [decide_eq_decide, Int32.le_iff_toInt_le, Int32.lt_iff_toInt_lt]
      omega
    rw [← hevents]
    simp only [hnext]

end

variable [Content α] {r : Registry α σ}

/-- Without a snapshot the whole stream is read. With one, which has a version after it, the events
after its version are read, in their order, and they are what its own events leave of the stream. If
the snapshot carries the state that its own events lead to, then resuming from it leads to the state of
a full replay. -/
theorem snapshot_replay (hr : r.Built) (ops : List (Operation α)) (k : AggregateKey) :
    let s := run r ops
    (s.snapshot? k = none → s.eventsWithSnapshot k = .ok (s.stream k, none)) ∧
    ∀ record, s.snapshot? k = some record → record.version < Int32.maxValue →
      let rest := (s.stream k).filter (record.version < ·.version)
      s.eventsWithSnapshot k = .ok (rest, some record) ∧
      rest.Pairwise (fun m n => m.version < n.version) ∧
      (s.stream k).filter (·.version ≤ record.version) ++ rest = s.stream k ∧
      ∀ (d : Domain α σ) restore, (∀ m ∈ s.stream k, ∃ p, d.decodeEvent m = .ok p) →
        record.Sums d restore (s.stream k) →
        ∃ state final, restore record.state = .ok state ∧ d.resume state rest = .ok final ∧
          d.replay (s.stream k) = .ok final := by
  intro s
  have hs : s.WellFormed r := wellFormed_run hr.filed ops
  refine ⟨eventsWithSnapshot_of_none hs, ?_⟩
  intro record hrecord hv rest
  have hsplit := filter_le_append_filter_lt (hs.ascending k) record.version
  refine ⟨eventsWithSnapshot_of_some hrecord hv, (hs.ascending k).sublist List.filter_sublist,
    hsplit, ?_⟩
  rintro d restore hdecodes ⟨state, hrestore, hcovered⟩
  obtain ⟨final, hfinal⟩ :=
    Domain.exists_resume (d := d) (fun m hm => hdecodes m (List.mem_filter.1 hm).1) state
  refine ⟨state, final, hrestore, hfinal, ?_⟩
  rw [Domain.replay_eq_ok_iff_resume] at hcovered ⊢
  rw [← hsplit]
  exact Domain.resume_append_eq_ok_iff.2 ⟨state, hcovered, hfinal⟩

/-- The second of three events is deleted. A snapshot of its version then stands for the first one. -/
theorem snapshot_replay_hole :
    let r : Registry ValueChanger.Change ValueChanger.Value := .minimal "test/source"
    let d : Domain ValueChanger.Change ValueChanger.Value := systemDomain
    let p : Payload ValueChanger.Change := .errorRaised ⟨"disk full"⟩
    let k : AggregateKey := ⟨textHash32 systemUri, 7⟩
    let log : ErrorLog := ⟨1, some "disk full"⟩
    let record : Record := .snapshot ⟨0, textHash32 systemUri, 7, 2⟩ (Json.encode log)
    let restore (b : Bytes) : Except SerializationError (State ValueChanger.Value) :=
      (Json.decode b).map State.errorLog
    let s := run r [.append 1 7 1 [] p, .append 2 7 2 [] p, .append 3 7 3 [] p, .deleteEvent k 2,
      .storeSnapshot record]
    r.Built ∧ s.snapshot? k = some record ∧ record.version < Int32.maxValue ∧
      (∀ m ∈ s.stream k, ∃ p, d.decodeEvent m = .ok p) ∧ record.Sums d restore (s.stream k) ∧
      ∃ state final, restore record.state = .ok state ∧
        d.resume state ((s.stream k).filter (record.version < ·.version)) = .ok final ∧
        d.replay (s.stream k) = .ok final := by
  intro r d p k log record restore s
  have hr : r.Built := Registry.built_minimal "test/source"
  let m (now : Int64) (v : Int32) : Message := r.report 7 v now [] ⟨"disk full"⟩
  have hstream : s.stream k = [m 1 1, m 3 3] := by
    have hrun : s = ((((Store.empty.push k (m 1 1)).push k (m 2 2)).push k (m 3 3)).deleteEvent
        k 2).2.storeSnapshot record := by
      simp only [s, p, run, List.foldl_cons, List.foldl_nil]
      rw [perform_report hr 1 7 [] _ rfl,
        perform_report hr 2 7 [] _ (by rw [currentVersion_push]; rfl),
        perform_report hr 3 7 [] _ (by rw [currentVersion_push]; rfl)]
      rfl
    rw [hrun, stream_storeSnapshot, stream_deleteEvent, if_pos rfl]
    simp only [stream_push, if_true]
    rfl
  have hdecode : ∀ now v, d.decodeEvent (m now v) = .ok p := by
    intro now v
    exact Domain.decodeEvent_eq_ok_iff.2 (decodes_errorRaised rfl rfl)
  obtain ⟨-, hdomain, hid, hversion⟩ := Record.fields_snapshot
    ⟨0, textHash32 systemUri, 7, 2⟩ (Json.encode log)
  have hsnapshot : s.snapshot? k = some record := by
    show (Table.insert _ (⟨record.domain, record.id⟩ : AggregateKey) record).get? k = some record
    rw [Table.get?_insert, hdomain, hid, if_pos rfl]
  have hv : record.version < Int32.maxValue := by
    rw [hversion]
    decide
  have hdecodes : ∀ m ∈ s.stream k, ∃ p, d.decodeEvent m = .ok p := by
    rw [hstream]
    simp [hdecode]
  have hsums : record.Sums d restore (s.stream k) := by
    have hstate : record.state = Json.encode log := Record.state_snapshot _ _
    have hrestore : (Json.decode (Json.encode log) : Except SerializationError ErrorLog) = .ok log :=
      toOption_eq_some_iff.1 (by decide +kernel)
    refine ⟨.errorLog log, ?_, ?_⟩
    · simp only [restore, hstate, hrestore, Except.map]
    · have hcovered : (s.stream k).filter (·.version ≤ record.version) = [m 1 1] := by
        rw [hstream, hversion]
        rfl
      rw [hcovered, Domain.replay_eq_ok_iff]
      exact ⟨[p], by rw [List.mapM_cons, hdecode]; rfl, rfl⟩
  obtain ⟨-, -, -, hresumes⟩ := (snapshot_replay hr _ k).2 record hsnapshot hv
  exact ⟨hr, hsnapshot, hv, hdecodes, hsums, hresumes d restore hdecodes hsums⟩

end Store
end EventSourcing
