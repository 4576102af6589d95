import EventSourcing.Proofs.Domain.System
import EventSourcing.Proofs.Store.Run
import EventSourcing.Store.Query

/-! Error reports in a store. Every registry lists the report of an error as an event of the system
domain, and every report can be encoded. So a report is appended wherever its version is the next one,
and by any key that no other key has taken the place of. -/

namespace EventSourcing

variable {α σ : Type} [Content α] {r : Registry α σ}

namespace Registry

theorem Built.lists_errorRaised (hr : r.Built) (e : ErrorRaised) :
    r.Lists (.errorRaised e) systemDomain errorRaisedEntry :=
  ⟨hr.domainByUri_system, messageType_errorRaised e, rfl⟩

omit [Content α] in
def report (r : Registry α σ) (id : Int64) (v : Int32) (now : Int64) (origin : List Record)
    (e : ErrorRaised) : Message where
  header := ⟨r.sourceId, textHash32 systemUri, id, v⟩
  origin
  timestamp := now
  typeId := (errorRaisedEntry : MessageType α).typeId
  data := Json.encode e

theorem Built.makes_report (hr : r.Built) (id : Int64) (v : Int32) (now : Int64)
    (origin : List Record) (e : ErrorRaised) :
    r.Makes id v now origin (.errorRaised e) (r.report id v now origin e) :=
  ⟨systemDomain, errorRaisedEntry, Json.encode e, hr.lists_errorRaised e, rfl, rfl⟩

end Registry

namespace Store

theorem currentVersion_push (s : Store) (k : AggregateKey) (m : Message) :
    (s.push k m).currentVersion k = m.version := by
  simp [currentVersion, stream_push]

theorem currentVersion_bind (s : Store) (k x : AggregateKey) (key : String) :
    (s.bind k key).currentVersion x = s.currentVersion x := by
  rw [currentVersion, currentVersion, stream_bind]

theorem currentVersion_push_of_ne (s : Store) {k x : AggregateKey} (h : k ≠ x) (m : Message) :
    (s.push k m).currentVersion x = s.currentVersion x := by
  rw [currentVersion, currentVersion, stream_push, if_neg h]

variable {s : Store} {v : Int32}

theorem append_report (hr : r.Built) (now id : Int64) (origin : List Record) (e : ErrorRaised)
    (hv : previousVersion? v = some (s.currentVersion ⟨textHash32 systemUri, id⟩)) :
    s.append r now id v origin (.errorRaised e) =
      (.ok (r.report id v now origin e),
        s.push ⟨textHash32 systemUri, id⟩ (r.report id v now origin e)) :=
  append_eq_ok_iff.2 ⟨hr.makes_report id v now origin e, hv, rfl⟩

theorem perform_report (hr : r.Built) (now id : Int64) (origin : List Record) (e : ErrorRaised)
    (hv : previousVersion? v = some (s.currentVersion ⟨textHash32 systemUri, id⟩)) :
    s.perform r (.append now id v origin (.errorRaised e)) =
      s.push ⟨textHash32 systemUri, id⟩ (r.report id v now origin e) := by
  rw [perform, append_report hr now id origin e hv]

theorem appendKeyed_report (hr : r.Built) (now : Int64) {key : String} (origin : List Record)
    (e : ErrorRaised) (hkey : key ≠ "")
    (hcheck : s.checkKey ⟨textHash32 systemUri, textHash key⟩ key = .ok ())
    (hv : previousVersion? v = some (s.currentVersion ⟨textHash32 systemUri, textHash key⟩)) :
    s.appendKeyed r now key origin (.errorRaised e) =
      (.ok (r.report (textHash key) v now origin e),
        (s.push ⟨textHash32 systemUri, textHash key⟩ (r.report (textHash key) v now origin e)).bind
          ⟨textHash32 systemUri, textHash key⟩ key) :=
  appendKeyed_eq_ok_iff.2 ⟨hkey, v, hr.makes_report _ v now origin e, hcheck, hv, rfl⟩

/-- Two reports on one error log, the first one by key. -/
def twoReports (r : Registry α σ) : Store :=
  run r [.appendKeyed 1 "disk" [] (.errorRaised ⟨"no network"⟩),
    .append 2 (textHash "disk") 2 [] (.errorRaised ⟨"disk slow"⟩)]

theorem stream_twoReports (hr : r.Built) :
    (twoReports r).stream ⟨textHash32 systemUri, textHash "disk"⟩ =
      [r.report (textHash "disk") 1 1 [] ⟨"no network"⟩,
        r.report (textHash "disk") 2 2 [] ⟨"disk slow"⟩] := by
  let k : AggregateKey := ⟨textHash32 systemUri, textHash "disk"⟩
  let m := r.report (textHash "disk") 1 1 [] ⟨"no network"⟩
  have hfirst : empty.perform r (.appendKeyed 1 "disk" [] (.errorRaised ⟨"no network"⟩)) =
      (empty.push k m).bind k "disk" := by
    rw [perform, appendKeyed_report (v := 1) hr 1 [] ⟨"no network"⟩ (by decide) rfl rfl]
  have hversion : previousVersion? 2 = some (((empty.push k m).bind k "disk").currentVersion k) := by
    rw [currentVersion_bind, currentVersion_push]
    rfl
  unfold twoReports run
  rw [List.foldl_cons, List.foldl_cons, List.foldl_nil, hfirst, perform_report hr 2 _ [] _ hversion,
    stream_push, if_pos rfl, stream_bind, stream_push, if_pos rfl]
  rfl

theorem events_twoReports (hr : r.Built) :
    (twoReports r).events ⟨textHash32 systemUri, textHash "disk"⟩ 0 =
      (twoReports r).stream ⟨textHash32 systemUri, textHash "disk"⟩ := by
  unfold events
  rw [stream_twoReports hr]
  rfl

theorem checkKey_bind {k : AggregateKey} {key : String} (h : s.checkKey k key = .ok ()) :
    (s.bind k key).checkKey k key = .ok () := by
  unfold bind
  split
  · exact h
  · unfold checkKey
    rw [Table.get?_insert, if_pos rfl]
    exact if_pos rfl

/-- Reports by one key are taken as long as there is a version for them. -/
theorem run_replicate_report (hr : r.Built) (now : Int64) {key : String} (hkey : key ≠ "")
    (e : ErrorRaised) {n : Nat} (hn : (n : Int) ≤ Int32.maxValue.toInt) :
    let k : AggregateKey := ⟨textHash32 systemUri, textHash key⟩
    let s := run r (List.replicate n (.appendKeyed now key [] (.errorRaised e)))
    (s.stream k).length = n ∧ (s.currentVersion k).toInt = n ∧ s.checkKey k key = .ok () := by
  intro k s
  induction n with
  | zero => exact ⟨rfl, rfl, rfl⟩
  | succ n ih =>
    obtain ⟨hlength, hversion, hcheck⟩ := ih (by omega)
    obtain ⟨v, hv⟩ := exists_version_after (n := n) (by omega)
    have hfollows := previousVersion?_eq_some_iff_toInt.2 (hversion ▸ hv)
    have hs : s = ((run r (List.replicate n (.appendKeyed now key [] (.errorRaised e)))).push k
        (r.report (textHash key) v now [] e)).bind k key := by
      unfold s
      rw [List.replicate_succ', run_append, List.foldl_cons, List.foldl_nil, perform,
        appendKeyed_report hr now [] e hkey hcheck hfollows]
    rw [hs]
    refine ⟨?_, ?_, checkKey_bind hcheck⟩
    · rw [stream_bind, stream_push, if_pos rfl, List.length_append, hlength, List.length_singleton]
    · rw [currentVersion_bind, currentVersion_push]
      exact hv

end Store
end EventSourcing
