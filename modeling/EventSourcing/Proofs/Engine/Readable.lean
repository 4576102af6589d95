import EventSourcing.Engine.Delivery
import EventSourcing.Proofs.Engine.Minimal
import EventSourcing.Proofs.Engine.Wired
import EventSourcing.Proofs.Store.Appended
import EventSourcing.Proofs.Store.WellFormed

/-! The engine reads what the store has taken. Hydration gives up on a history, and a service panics,
where an event cannot be decoded. No event that was appended makes them do so, as long as its codec is
sound: the history of a command is replayed on the payloads that were appended, and each service gets
the payload of the event. -/

namespace EventSourcing

variable {α σ : Type}

theorem Registry.reads_iff {r : Registry α σ} {m : Message} {p : Payload α} {d : Domain α σ}
    (hd : r.domain m.domain = some d) : r.Reads m p ↔ d.decodeEvent m = .ok p := by
  rw [Domain.decodeEvent_eq_ok_iff]
  constructor
  · intro ⟨d', t, hd', ht, hp⟩
    obtain rfl : d = d' := Option.some.inj (hd.symm.trans hd')
    exact ⟨t, ht, hp⟩
  · intro ⟨t, ht, hp⟩
    exact ⟨d, t, hd, ht, hp⟩

theorem Registry.Reads.decodeEvent {r : Registry α σ} {m : Message} {p : Payload α} {d : Domain α σ}
    (h : r.Reads m p) (hd : r.domain m.domain = some d) : d.decodeEvent m = .ok p :=
  (reads_iff hd).1 h

theorem decodes_errorRaised {m : Message} {report : ErrorRaised}
    (ht : m.typeId = (errorRaisedEntry : MessageType α).typeId) (hdata : m.data = Json.encode report) :
    (systemDomain : Domain α σ).Decodes m (.errorRaised report) := by
  have hids := Registry.distinctEvents_minimal "" _ _ (Registry.domain_minimal (α := α) (σ := σ) "")
  have hlisted : (errorRaisedEntry : MessageType α) ∈ (systemDomain : Domain α σ).catalog.entries :=
    Catalog.mem_entries_of_byName byName_errorRaised
  have hcompiled : (systemDomain : Domain α σ).Compiled := ⟨systemDefinition, compile_systemDefinition⟩
  refine ⟨errorRaisedEntry, ht ▸ hcompiled.events_byId hids hlisted rfl, ?_⟩
  refine MessageType.extract_eq_ok ht (hdata ▸ Json.LawfulCodec.encode_ne_nil report) ?_
  rw [hdata]
  exact PayloadType.decode_encode "ErrorRaised" systemUri .errorRaised report

theorem Engine.reaction_eq_ok [Content α] {e : Engine α σ} {m : Message} {p : Payload α}
    (h : e.registry.Reads m p) {s : Service α}
    (hs : (e.registry.domainByUri s.uri).isSome = true) : e.reaction s m = .ok (s.react m p) := by
  obtain ⟨d, -, hd, -⟩ := id h
  obtain ⟨home, hhome⟩ := Option.isSome_iff_exists.1 hs
  unfold reaction
  rw [hd, bind_eq_ok_iff]
  refine ⟨p, mapError_eq_ok_iff.2 (h.decodeEvent hd), ?_⟩
  rw [if_neg (by simp [hhome])]
  rfl

section Wiring

variable {r : Registry α σ} {w w' : Wiring α σ}

def Wiring.Homed (r : Registry α σ) (w : Wiring α σ) : Prop :=
  ∀ s ∈ w.services, (r.domainByUri s.uri).isSome = true

theorem Wiring.Homed.add (hw : w.Homed r) {step : WiringStep α σ} (h : w.add r step = (.ok (), w')) :
    w'.Homed r := by
  cases step with
  | handler uri handler =>
    obtain ⟨d, -, rfl⟩ := exists_of_addHandler h
    exact hw
  | service s =>
    obtain ⟨hhome, _, -, rfl⟩ := exists_of_addService h
    intro x hx
    rcases List.mem_append.1 hx with hx | hx
    · exact hw x hx
    · rw [List.mem_singleton.1 hx]
      exact hhome

/-- Whatever steps a wiring is built from, it takes on services of registered domains only. -/
theorem Wiring.homed_of_build [Content α] {steps : List (WiringStep α σ)} (h : build r steps = .ok w) :
    w.Homed r :=
  build_induction h nofun fun _ _ _ _ hw hadd => hw.add hadd

end Wiring

variable [Content α] {e : Engine α σ} {ops : List (Operation α)}

namespace Store

theorem decodes_of_run {r : Registry α σ} (hr : r.Built) (hids : r.DistinctEvents)
    (hops : ∀ op ∈ ops, ∀ p, op.payload? = some p → r.Inverts p) {k : AggregateKey}
    {d : Domain α σ} (hd : r.domain k.domain = some d) (first : Int32) :
    ∃ decoded, ((run r ops).events k first).mapM d.decodeEvent = .ok decoded := by
  refine exists_mapM_eq_ok ?_
  intro m hm
  have hm : m ∈ (run r ops).stream k := (List.mem_filter.1 hm).1
  obtain ⟨p, hp⟩ := exists_appended_of_mem hm
  have hdomain : m.domain = k.domain := ((wellFormed_run hr.filed ops).stored k m hm).domain
  exact ⟨p, (hp.reads hr hids hops).decodeEvent (hdomain ▸ hd)⟩

end Store

namespace Engine

/-- No history that is read from a run keeps a command from its handler. -/
theorem hydrates_of_run (hr : e.registry.Built) (hids : e.registry.DistinctEvents)
    (hops : ∀ op ∈ ops, ∀ p, op.payload? = some p → e.registry.Inverts p) {command : Message}
    {w : World} (hstore : w.store = Store.run e.registry ops) (hview : w.outage.view = id)
    {task : Task α σ} {events : List Message} (ha : e.Accepts command task)
    (hread : .ok events ∈ w.answers task.domain.shortId (task.address command)) :
    ∃ decoded, e.Hydrates command w ⟨task, events, decoded⟩ := by
  have hd : e.registry.domain task.domain.shortId = some task.domain := by
    rw [(hr.filed _ _ ha.domain).1]
    exact ha.domain
  have hevents := World.eq_view_of_mem_answers hread
  rw [hstore, hview] at hevents
  obtain ⟨decoded, hdecoded⟩ := Store.decodes_of_run hr hids hops
    (k := ⟨task.domain.shortId, (task.address command).aggregateId⟩) hd 0
  refine ⟨decoded, ha, hread, Domain.mapM_decodeEvent_eq_ok_iff.1 ?_⟩
  rw [hevents]
  exact hdecoded

/-- Every event of a store was appended with a payload, and with its codec being sound it is read back
as this payload: its domain is registered and lists its type among the events, the type extracts the
payload, and the services of the engine react to it. A command whose history is read is hydrated: the
replay does not fail. Only the payloads appended need a sound codec. -/
theorem stored_events_read_back (hr : e.registry.Built) (hids : e.registry.DistinctEvents)
    (hops : ∀ op ∈ ops, ∀ p, op.payload? = some p → e.registry.Inverts p) :
    (∀ k, ∀ m ∈ (Store.run e.registry ops).stream k,
      (∃ p, Store.Appended e.registry ops p m) ∧
        ∀ p, Store.Appended e.registry ops p m →
          e.registry.Reads m p ∧
            (∀ s : Service α, (e.registry.domainByUri s.uri).isSome = true →
              e.reaction s m = .ok (s.react m p)) ∧
            ∀ steps, Wiring.build e.registry steps = .ok e.wiring →
              ∀ s ∈ e.wiring.services, e.reaction s m = .ok (s.react m p)) ∧
      ∀ command w task events, w.store = Store.run e.registry ops → w.outage.view = id →
        e.Accepts command task →
        .ok events ∈ w.answers task.domain.shortId (task.address command) →
        ∃ decoded, e.Hydrates command w ⟨task, events, decoded⟩ ∧
          task.domain.replay events = .ok (task.domain.aggregate.replay decoded) := by
  refine ⟨?_, ?_⟩
  · intro k m hm
    refine ⟨Store.exists_appended_of_mem hm, ?_⟩
    intro p hp
    have hreads := hp.reads hr hids hops
    refine ⟨hreads, fun s hs => reaction_eq_ok hreads hs, ?_⟩
    intro steps hsteps s hs
    exact reaction_eq_ok hreads (Wiring.homed_of_build hsteps s hs)
  · intro command w task events hstore hview ha hread
    obtain ⟨decoded, h⟩ := hydrates_of_run hr hids hops hstore hview ha hread
    exact ⟨decoded, h, Domain.replay_eq_ok_iff.2 ⟨decoded, h.mapM_decodeEvent, rfl⟩⟩

/-- A command on a history of reports, after an append out of turn and a deletion. -/
theorem stored_events_read_back_diskFull :
    let e : Engine ValueChanger.Change ValueChanger.Value := .minimal "test/source"
    let p : Payload ValueChanger.Change := .errorRaised ⟨"disk full"⟩
    let k : AggregateKey := ⟨textHash32 systemUri, 7⟩
    let ops := [.append 1 7 1 [] p, .append 2 7 5 [] p, .append 3 7 2 [] p, .deleteEvent k 1]
    let s := Store.run e.registry ops
    e.registry.Built ∧ e.registry.DistinctEvents ∧
      (∀ op ∈ ops, ∀ q, op.payload? = some q → e.registry.Inverts q) ∧
      (∀ m ∈ s.stream k, ∃ q, e.registry.Reads m q) ∧
      ∃ decoded, e.Hydrates diskFull (.serving s) ⟨diskFullHydration.task, s.events k 0, decoded⟩ := by
  intro e p k ops s
  have hr : e.registry.Built := Registry.built_minimal "test/source"
  have hids : e.registry.DistinctEvents := Registry.distinctEvents_minimal "test/source"
  have hp : e.registry.Inverts p := hr.inverts_errorRaised ⟨"disk full"⟩
  have hops : ∀ op ∈ ops, ∀ q, op.payload? = some q → e.registry.Inverts q := by
    intro op hop q hq
    simp only [ops, List.mem_cons, List.not_mem_nil, or_false] at hop
    rcases hop with rfl | rfl | rfl | rfl
    · cases hq
      exact hp
    · cases hq
      exact hp
    · cases hq
      exact hp
    · cases hq
  have h := stored_events_read_back hr hids hops
  have ha : e.Accepts diskFull diskFullHydration.task :=
    (hydrates_diskFull "test/source" .noop fun _ => 0).accepts
  refine ⟨hr, hids, hops, ?_, ?_⟩
  · intro m hm
    obtain ⟨⟨q, hq⟩, hread⟩ := h.1 k m hm
    exact ⟨q, (hread q hq).1⟩
  · obtain ⟨decoded, hx, -⟩ := h.2 diskFull (.serving s) diskFullHydration.task (s.events k 0)
      (World.store_serving s) rfl ha (World.mem_answers_serving s _ 7)
    exact ⟨decoded, hx⟩

def twoReportsHydration (r : Registry α σ) : Hydration α σ where
  task := diskFullHydration.task
  events := (Store.twoReports r).stream ⟨textHash32 systemUri, textHash "disk"⟩
  decoded := [.errorRaised ⟨"no network"⟩, .errorRaised ⟨"disk slow"⟩]

theorem hydrates_twoReports (sourceUri : String) {w : World}
    (hread : .ok ((Store.twoReports (.minimal sourceUri : Registry α σ)).events
      ⟨textHash32 systemUri, textHash "disk"⟩ 0) ∈
        w.answers (textHash32 systemUri) (.id (textHash "disk"))) :
    (minimal sourceUri : Engine α σ).Hydrates (diskFullAt (textHash "disk")) w
      (twoReportsHydration (.minimal sourceUri)) where
  accepts := accepts_diskFullAt sourceUri (textHash "disk")
  reads := by
    rw [Store.events_twoReports (Registry.built_minimal sourceUri)] at hread
    exact hread
  decodes := by
    unfold twoReportsHydration
    rw [Store.stream_twoReports (Registry.built_minimal sourceUri)]
    exact .cons (decodes_errorRaised rfl rfl) (.cons (decodes_errorRaised rfl rfl) .nil)

theorem length_twoReportsHydration (sourceUri : String) :
    (twoReportsHydration (.minimal sourceUri : Registry α σ)).events.length = 2 :=
  congrArg List.length (Store.stream_twoReports (Registry.built_minimal sourceUri))

end Engine
end EventSourcing
