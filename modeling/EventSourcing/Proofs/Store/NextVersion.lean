import EventSourcing.Proofs.Store.Contiguous
import EventSourcing.Proofs.Store.Reports
import EventSourcing.Proofs.Store.WellFormed
import EventSourcing.ValueChanger.Domain

/-! The version at which an event is taken. A store compares the version given with that of the last
event of the stream, and refuses every other one with a conflict. The number of events is the version
of the last one only in a stream without holes: a stream of `n` ascending versions ends with `n` or
later, and with `n` just if it is numbered from one to `n`. So to go on after the number of events is
right as long as no single event was deleted before others. -/

namespace EventSourcing

namespace Store

variable {s : Store} {k : AggregateKey} {m n : Message}

section

variable {α σ : Type} {r : Registry α σ}

/-- From one place of a stream to a later one the versions grow by the distance at least. -/
theorem WellFormed.version_add_le (hs : s.WellFormed r) {i d : Nat}
    (hm : (s.stream k)[i]? = some m) (hn : (s.stream k)[i + d]? = some n) :
    m.version.toInt + d ≤ n.version.toInt := by
  induction d generalizing n with
  | zero =>
    rw [Nat.add_zero, hm] at hn
    cases hn
    simp
  | succ d ih =>
    obtain ⟨hlt, hn⟩ := List.getElem?_eq_some_iff.1 hn
    have hbefore : (s.stream k)[i + d]? = some (s.stream k)[i + d] :=
      List.getElem?_eq_getElem (Nat.lt_of_succ_lt hlt)
    have hstep := ih hbefore
    have hnext := List.pairwise_iff_getElem.1 (hs.ascending k) (i + d) (i + (d + 1))
      (Nat.lt_of_succ_lt hlt) hlt (by omega)
    rw [hn, Int32.lt_iff_toInt_lt] at hnext
    omega

/-- No version is less than its place, counted from one. -/
theorem WellFormed.place_le_version (hs : s.WellFormed r) {i : Nat}
    (hm : (s.stream k)[i]? = some m) : (i + 1 : Int) ≤ m.version.toInt := by
  obtain ⟨hlt, -⟩ := List.getElem?_eq_some_iff.1 hm
  have hfirst : (s.stream k)[0]? = some (s.stream k)[0] := List.getElem?_eq_getElem (by omega)
  have hgrow := hs.version_add_le (i := 0) (d := i) hfirst (by rwa [Nat.zero_add])
  have hpos := Int32.le_iff_toInt_le.1 (hs.stored k _ (List.mem_of_getElem? hfirst)).version_pos
  rw [Int32.toInt_one] at hpos
  omega

theorem currentVersion_eq_of_last {i : Nat} (hlast : (s.stream k).length = i + 1)
    (hm : (s.stream k)[i]? = some m) : s.currentVersion k = m.version := by
  rw [currentVersion, List.getLast?_eq_getElem?, hlast, Nat.add_sub_cancel, hm]
  rfl

/-- The last version is the number of events just if there are no holes. -/
theorem WellFormed.contiguousAt_iff (hs : s.WellFormed r) :
    s.ContiguousAt k ↔ (s.currentVersion k).toInt = (s.stream k).length := by
  refine ⟨ContiguousAt.toInt_currentVersion, ?_⟩
  intro hcur i m hm
  obtain ⟨hi, -⟩ := List.getElem?_eq_some_iff.1 hm
  obtain ⟨d, hd⟩ : ∃ d, (s.stream k).length = i + d + 1 := ⟨(s.stream k).length - i - 1, by omega⟩
  have hlast : (s.stream k)[i + d]? = some (s.stream k)[i + d] :=
    List.getElem?_eq_getElem (by omega)
  have hgrow := hs.version_add_le hm hlast
  have hplace := hs.place_le_version hm
  rw [currentVersion_eq_of_last hd hlast] at hcur
  omega

theorem WellFormed.length_le_currentVersion (hs : s.WellFormed r) :
    ((s.stream k).length : Int) ≤ (s.currentVersion k).toInt := by
  cases hl : (s.stream k).length with
  | zero => exact hs.currentVersion_nonneg k
  | succ i =>
    have hlast : (s.stream k)[i]? = some (s.stream k)[i] := List.getElem?_eq_getElem (by omega)
    have hplace := hs.place_le_version hlast
    rw [currentVersion_eq_of_last hl hlast]
    omega

/-- The version after the number of events is the one after the last event, whatever version is tried,
just if there are no holes. -/
theorem WellFormed.follows_count_iff (hs : s.WellFormed r) :
    (∀ v : Int32, 1 ≤ v → (v.toInt = (s.currentVersion k).toInt + 1 ↔
      (s.stream k).length = v.toInt - 1)) ↔ s.ContiguousAt k := by
  rw [hs.contiguousAt_iff]
  have hle := hs.length_le_currentVersion (k := k)
  have hmax := (s.currentVersion k).toInt_le
  refine ⟨?_, ?_⟩
  · intro hcount
    rcases Int.lt_or_eq_of_le hle with hlt | heq
    · obtain ⟨v, hv⟩ := exists_version_after (n := (s.stream k).length) (by omega)
      have h1 : 1 ≤ v := by
        rw [Int32.le_iff_toInt_le, hv, Int32.toInt_one]
        omega
      have hnext := (hcount v h1).2 (by omega)
      omega
    · exact heq.symm
  · intro hcur v hv
    rw [hcur]
    omega

end

variable {α σ : Type} [Content α] {r : Registry α σ} {p : Payload α} {d : Domain α σ}
  {t : MessageType α} {data : Bytes}

/-- What becomes of an event that its domain lists and that can be encoded. -/
theorem append_eq_of_lists (hl : r.Lists p d t) (hp : p.encode = .ok data) {v : Int32} (hv : 1 ≤ v)
    (now id : Int64) (origin : List Record) :
    s.append r now id v origin p =
      if v.toInt = (s.currentVersion ⟨d.shortId, id⟩).toInt + 1 then
        let m : Message := ⟨⟨r.sourceId, d.shortId, id, v⟩, origin, now, t.typeId, data⟩
        (.ok m, s.push ⟨d.shortId, id⟩ m)
      else
        (refuse (.concurrencyConflict ⟨d.shortId, id⟩ (v - 1) (s.currentVersion ⟨d.shortId, id⟩)),
          s) := by
  split
  · next hnext =>
    exact append_eq_ok_iff.2
      ⟨⟨d, t, data, hl, hp, rfl⟩, previousVersion?_eq_some_iff_toInt.2 hnext, rfl⟩
  · next hnext =>
    have hd : r.eventDomain p = .ok d.shortId := Registry.eventDomain_eq_ok_iff.2 ⟨d, t, hl, rfl⟩
    have hleast : v ≠ Int32.minValue := by
      rintro rfl
      exact absurd hv (by decide)
    exact append_conflict hd hleast (mt nextVersion?_eq_some_iff.1 hnext)

theorem append_takes_iff (hl : r.Lists p d t) (hp : p.encode = .ok data) {v : Int32} (hv : 1 ≤ v)
    (now id : Int64) (origin : List Record) :
    (∃ m s', s.append r now id v origin p = (.ok m, s')) ↔
      v.toInt = (s.currentVersion ⟨d.shortId, id⟩).toInt + 1 := by
  rw [append_eq_of_lists hl hp hv]
  split
  · next hnext => simp [hnext]
  · next hnext => simp [hnext, refuse]

/-- The store takes an event at the version after the last one that it holds of the aggregate, and at
no other: there it reports a conflict. It thereby takes the event just at the version after the number
of events that it holds, whatever version is tried, if the stream has no holes, and only then. There
are none if no single event of the aggregate was deleted. -/
theorem append_follows_last_version (hr : r.Built) (ops : List (Operation α))
    (hl : r.Lists p d t) (hp : p.encode = .ok data) (now id : Int64) (origin : List Record) :
    let s := run r ops
    let k : AggregateKey := ⟨d.shortId, id⟩
    (∀ v, 1 ≤ v →
      ((∃ m s', s.append r now id v origin p = (.ok m, s')) ↔
          v.toInt = (s.currentVersion k).toInt + 1) ∧
        (v.toInt ≠ (s.currentVersion k).toInt + 1 →
          s.append r now id v origin p =
            (refuse (.concurrencyConflict k (v - 1) (s.currentVersion k)), s))) ∧
      ((∀ v, 1 ≤ v → ((∃ m s', s.append r now id v origin p = (.ok m, s')) ↔
          (s.stream k).length = v.toInt - 1)) ↔ s.ContiguousAt k) ∧
      ((∀ v, .deleteEvent k v ∉ ops) → s.ContiguousAt k) := by
  intro s k
  have hs : s.WellFormed r := wellFormed_run hr.filed ops
  refine ⟨?_, ?_, run_contiguousAt⟩
  · intro v hv
    refine ⟨append_takes_iff hl hp hv now id origin, ?_⟩
    intro hne
    rw [append_eq_of_lists hl hp hv, if_neg hne]
  · rw [← hs.follows_count_iff]
    refine forall_congr' fun v => forall_congr' fun hv => ?_
    rw [append_takes_iff hl hp hv now id origin]

/-- A stream of one event, next to one that has lost an event. -/
theorem append_follows_last_version_neighbour :
    let r : Registry ValueChanger.Change ValueChanger.Value := .minimal "test/source"
    let p : Payload ValueChanger.Change := .errorRaised ⟨"disk full"⟩
    let k : AggregateKey := ⟨textHash32 systemUri, 7⟩
    let ops := [.append 1 7 1 [] p, .append 2 8 1 [] p, .append 3 8 2 [] p,
      .deleteEvent ⟨textHash32 systemUri, 8⟩ 1]
    r.Built ∧ r.Lists p systemDomain errorRaisedEntry ∧
      p.encode = .ok (Json.encode (⟨"disk full"⟩ : ErrorRaised)) ∧ (∀ v, .deleteEvent k v ∉ ops) ∧
      (run r ops).ContiguousAt k ∧
      ∀ v, 1 ≤ v → ((∃ m s', (run r ops).append r 4 7 v [] p = (.ok m, s')) ↔
        ((run r ops).stream k).length = v.toInt - 1) := by
  intro r p k ops
  have hr : r.Built := Registry.built_minimal "test/source"
  have hl : r.Lists p systemDomain errorRaisedEntry := hr.lists_errorRaised ⟨"disk full"⟩
  have hkept : ∀ v, .deleteEvent k v ∉ ops := by
    intro v
    simp [ops, k]
  have h := append_follows_last_version hr ops hl rfl 4 7 []
  exact ⟨hr, hl, rfl, hkept, h.2.2 hkept, h.2.1.2 (h.2.2 hkept)⟩

/-- Where the first of two events was deleted, one event is left, and still none is taken at version
two. -/
theorem append_after_hole_refused :
    let r : Registry ValueChanger.Change ValueChanger.Value := .minimal "test/source"
    let p : Payload ValueChanger.Change := .errorRaised ⟨"disk full"⟩
    let k : AggregateKey := ⟨textHash32 systemUri, 7⟩
    let s := run r [.append 1 7 1 [] p, .append 2 7 2 [] p, .deleteEvent k 1]
    ((s.stream k).length : Int) = (2 : Int32).toInt - 1 ∧
      s.append r 3 7 2 [] p = (refuse (.concurrencyConflict k 1 2), s) := by
  intro r p k s
  have hr : r.Built := Registry.built_minimal "test/source"
  have h₁ := append_report (s := .empty) hr 1 7 [] ⟨"disk full"⟩ (v := 1) rfl
  have h₂ := append_report (s := Store.empty.push k (r.report 7 1 1 [] ⟨"disk full"⟩)) hr 2 7 []
    ⟨"disk full"⟩ (v := 2) (by rw [currentVersion_push]; rfl)
  have hstream : s.stream k = [r.report 7 2 2 [] ⟨"disk full"⟩] := by
    simp only [s, p, run, List.foldl_cons, List.foldl_nil, perform, h₁]
    rw [h₂, stream_deleteEvent, if_pos rfl, stream_push, if_pos rfl, stream_push, if_pos rfl]
    rfl
  have hcur : s.currentVersion k = 2 := by
    rw [currentVersion, hstream]
    rfl
  have hout : s.append r 3 7 2 [] p = if (2 : Int32).toInt = (s.currentVersion k).toInt + 1 then _
      else (refuse (.concurrencyConflict k (2 - 1) (s.currentVersion k)), s) :=
    append_eq_of_lists (hr.lists_errorRaised ⟨"disk full"⟩) rfl (by decide) 3 7 []
  refine ⟨by simp [hstream], ?_⟩
  rw [hout, hcur, if_neg (by decide)]
  rfl

end Store
end EventSourcing
