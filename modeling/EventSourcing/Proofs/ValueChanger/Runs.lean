import EventSourcing.Proofs.Engine.DeliveryOrder
import EventSourcing.Proofs.ValueChanger.Janitor

/-! Runs of the application. Whatever commands are submitted and however deliveries come between them,
each command to an aggregate of the value changer is handled at the value that its history has led to,
and goes the history on with a change of that value, or leaves it as it is. The commands of the janitor
are no exception. So every aggregate has a history at any moment of a run. -/

namespace EventSourcing.ValueChanger

/-- The store is served without outages, and every aggregate of the value changer has a history. -/
structure Sound (w : World) : Prop where
  outage : w.outage = .none
  history : ∀ id, ∃ cs v, History (w.store.stream ⟨textHash32 uri, id⟩) cs v

variable {reportIds : Nat → Int64} {e : Engine Change Value} {command event : Message} {w w' : World}

theorem aggregateKey_eq {m : Message} (hd : m.domain = textHash32 uri) :
    m.aggregateKey = ⟨textHash32 uri, m.id⟩ := by
  rw [← hd]
  rfl

namespace Sound

theorem world (time : Nat → Int64) : Sound (world time) where
  outage := rfl
  history _ := ⟨[], "", .nil⟩

theorem of_onlyReads (hw : Sound w) (hread : w.OnlyReads w') : Sound w' where
  outage := hread.outage_none hw.outage
  history := by
    rw [hread.store]
    exact hw.history

variable (h : Assembled reportIds e)

include h

theorem handle (hw : Sound w) (command : Message) : Sound (e.handle command w).2 where
  outage := Engine.outage_handle h.selfContained hw.outage
  history id := by
    obtain ⟨cs, v, hs⟩ := hw.history id
    rw [Engine.stream_handle h.selfContained]
    cases hm : (e.handle command w).1 with
    | error p =>
      rw [Engine.gained_eq_nil (by rw [hm]; exact nofun), List.append_nil]
      exact ⟨cs, v, hs⟩
    | ok m =>
      by_cases hkey : m.aggregateKey = ⟨textHash32 uri, id⟩
      · have hs' := hs
        rw [← hkey] at hs'
        obtain ⟨-, hversion, c, c', -, hc, hdecode⟩ :=
          h.change_of_handle hw.outage hm (congrArg AggregateKey.domain hkey) hs'
        obtain ⟨v', hlink⟩ := link_of_on hc
        rw [hkey] at hversion
        rw [Engine.gained_eq_singleton hm hkey]
        exact ⟨_, v', hs.snoc hversion hdecode hlink⟩
      · have hnil : e.gained ⟨textHash32 uri, id⟩ command w = [] := by
          refine Engine.gained_eq_nil ?_
          intro n hn
          rw [hm] at hn
          cases hn
          exact hkey
        rw [hnil, List.append_nil]
        exact ⟨cs, v, hs⟩

theorem dispatch (hw : Sound w) (event : Message) : Sound (e.dispatch event w).2 := by
  rcases h.dispatch_cases event w with hread | ⟨-, v, -, hread⟩
  · exact hw.of_onlyReads hread
  · exact ((hw.of_onlyReads (.now w)).handle h _).of_onlyReads hread

omit h in
theorem take (hw : Sound w) (ht : w.take = some (event, w')) : Sound w' := by
  unfold World.take at ht
  split at ht
  · cases ht
    exact ⟨hw.outage, hw.history⟩
  · cases ht

theorem run {submits : Message → Prop} {start : World} {log : List Effect}
    (hstart : Sound start) (hrun : e.Run submits start log w) : Sound w := by
  induction hrun with
  | start => exact hstart
  | handled _ _ ih => exact ih.handle h _
  | delivered _ ht ih => exact (ih.take ht).dispatch h _
  | dispatched _ _ ih => exact ih.dispatch h _

end Sound

theorem stream_eq (h : Assembled reportIds e) {submits : Message → Prop} {time : Nat → Int64}
    {log : List Effect} (hrun : e.Run submits (world time) log w) (k : AggregateKey) :
    w.store.stream k = w.appended.filter (·.aggregateKey = k) := by
  have haccounts := hrun.accounts h.confined rfl
  rw [haccounts.stream, haccounts.appended]
  rfl

/-! A run in which a reset is overtaken by another value. -/

def setting (id : Int64) (value : String) : Message where
  header := ⟨0, textHash32 uri, id, 1⟩
  origin := []
  timestamp := 0
  typeId := setValueEntry.typeId
  data := Json.encode (⟨value⟩ : SetValue)

def attended : Engine Change Value :=
  ⟨registry "test/source", wiring, .standard fun n => Int64.ofNat n + 1⟩

/-- A value is set to the reset value, and to another one before the first event is delivered. -/
def overtaken : World :=
  (attended.handle (setting 1 "b") (attended.handle (setting 1 reset) (world fun _ => 0)).2).2

theorem exists_run_overtaken {submits : Message → Prop} (h : ∀ value, submits (setting 1 value)) :
    ∃ log, attended.Run submits (world fun _ => 0) log overtaken :=
  ⟨_, (Engine.Run.start.handled (h reset)).handled (h "b")⟩

/-- A message as a reader of the value changer sees it: its header, its most recent cause and its
payload. -/
structure Reading where
  header : Header
  cause : Option Record
  payload : Option (Payload Change)
  deriving DecidableEq

def Reading.of (m : Message) : Reading :=
  ⟨m.header, m.origin.head?, (domain.decodeEvent m).toOption⟩

def header (version : Int32) : Header := ⟨textHash "test/source", textHash32 uri, 1, version⟩

theorem drain_overtaken :
    (attended.drain 3 overtaken).map (fun (result, w) =>
        (result.toOption, w.appended.map Reading.of)) =
      some (some 3,
        [⟨header 1, none, some (.custom (.valueSet ⟨reset, ""⟩))⟩,
          ⟨header 2, none, some (.custom (.valueSet ⟨"b", reset⟩))⟩,
          ⟨header 3, some (.ofHeader (header 1)), some (.custom (.valueCleared ⟨"b"⟩))⟩]) := by
  unfold Reading.of overtaken attended registry
  rw [systemDomain_eq, domain_eq]
  decide +kernel

/-- The late delivery of the first event clears the value that was set after it. -/
theorem exists_drain_overtaken :
    ∃ w r m c, attended.drain 3 overtaken = some (.ok 3, w) ∧ w.appended = [r, m, c] ∧
      Reading.of r = ⟨header 1, none, some (.custom (.valueSet ⟨reset, ""⟩))⟩ ∧
      Reading.of m = ⟨header 2, none, some (.custom (.valueSet ⟨"b", reset⟩))⟩ ∧
      Reading.of c =
        ⟨header 3, some (.ofHeader (header 1)), some (.custom (.valueCleared ⟨"b"⟩))⟩ := by
  obtain ⟨⟨result, w⟩, hdrain, hend⟩ := Option.map_eq_some_iff.1 drain_overtaken
  obtain ⟨hresult, happended⟩ := Prod.mk.inj hend
  rw [toOption_eq_some_iff] at hresult
  obtain ⟨r, rest, hw, hr, hrest⟩ := List.map_eq_cons_iff.1 happended
  obtain ⟨m, rest, rfl, hm, hrest⟩ := List.map_eq_cons_iff.1 hrest
  obtain ⟨c, rest, rfl, hc, hrest⟩ := List.map_eq_cons_iff.1 hrest
  obtain rfl := List.map_eq_nil_iff.1 hrest
  exact ⟨w, r, m, c, hresult ▸ hdrain, hw, hr, hm, hc⟩

theorem aggregateKey_of_reading {m : Message} {version : Int32} {cause : Option Record}
    {payload : Option (Payload Change)} (h : Reading.of m = ⟨header version, cause, payload⟩) :
    m.aggregateKey = ⟨textHash32 uri, 1⟩ := by
  have hheader : m.header = header version := congrArg Reading.header h
  unfold Message.aggregateKey Message.domain Message.id
  rw [hheader]
  rfl

/-- At any moment of a run every aggregate of the value changer has a history: its events are numbered
from one on, and each of them is a change of the value that the events before it have led to. Replaying
them gives the last value, the number of changes and the hashes of all texts ever set. The commands
submitted may be any messages, and a drain goes the run on, however it ends. -/
theorem histories_linked {sourceUri : String} {reportIds : Nat → Int64} {time : Nat → Int64}
    {e : Engine Change Value} (he : engine sourceUri reportIds = .ok e) {log : List Effect}
    {w : World} (hrun : e.Run (fun _ => True) (world time) log w) :
    e.registry.domain (textHash32 uri) = some domain ∧
      (∀ id, ∃ cs v, History (w.store.stream ⟨textHash32 uri, id⟩) cs v ∧
        (∀ (i : Nat) (m : Message), (w.store.stream ⟨textHash32 uri, id⟩)[i]? = some m →
          m.version.toInt = i + 1 ∧ ∃ front c u u',
            History ((w.store.stream ⟨textHash32 uri, id⟩).take i) front u ∧
            domain.decodeEvent m = .ok (.custom c) ∧ Link u c u' ∧
            History ((w.store.stream ⟨textHash32 uri, id⟩).take (i + 1)) (front ++ [c]) u') ∧
        ∃ s, domain.replay (w.store.stream ⟨textHash32 uri, id⟩) = .ok (.custom s) ∧
          s.value = v ∧ s.changes.toNat = (w.store.stream ⟨textHash32 uri, id⟩).length ∧
          ∀ hash, hash ∈ s.seen.members ↔
            ∃ x previous, .valueSet ⟨x, previous⟩ ∈ cs ∧ textHash x = hash) ∧
      ∀ fuel result w', e.drain fuel w = some (result, w') →
        ∃ later, e.Run (fun _ => True) (world time) (log ++ later) w' := by
  have h := assembled he
  refine ⟨h.byShortId, ?_, fun _ _ _ hdrain => Engine.exists_run_of_drain hrun hdrain⟩
  intro id
  obtain ⟨cs, v, hs⟩ := ((Sound.world time).run h hrun).history id
  refine ⟨cs, v, hs, ?_, .after cs v, hs.replay, rfl, hs.toNat_changes, fun _ =>
    Value.mem_seen_after⟩
  intro i m hm
  exact ⟨hs.version i m hm, hs.exists_at hm⟩

/-- A history of three events, the last of which a drain has appended. -/
theorem histories_linked_overtaken :
    ∃ log w cs v, engine "test/source" (fun n => Int64.ofNat n + 1) = .ok attended ∧
      attended.Run (fun _ => True) (world fun _ => 0) log w ∧
      (w.store.stream ⟨textHash32 uri, 1⟩).length = 3 ∧
      History (w.store.stream ⟨textHash32 uri, 1⟩) cs v := by
  have he := engine_eq "test/source" fun n => Int64.ofNat n + 1
  obtain ⟨w, r, m, c, hdrain, happended, hr, hm, hc⟩ := exists_drain_overtaken
  obtain ⟨log, hrun⟩ : ∃ log, attended.Run (fun _ => True) (world fun _ => 0) log overtaken :=
    exists_run_overtaken fun _ => trivial
  obtain ⟨later, hrun⟩ := Engine.exists_run_of_drain hrun hdrain
  obtain ⟨-, hhistory, -⟩ := histories_linked he hrun
  obtain ⟨cs, v, hs, -⟩ := hhistory 1
  refine ⟨log ++ later, w, cs, v, he, hrun, ?_, hs⟩
  rw [stream_eq (assembled he) hrun, happended]
  simp [aggregateKey_of_reading hr, aggregateKey_of_reading hm, aggregateKey_of_reading hc]

end EventSourcing.ValueChanger
