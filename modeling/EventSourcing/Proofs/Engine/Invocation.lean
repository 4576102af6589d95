import EventSourcing.Proofs.Domain.CanonicalNames
import EventSourcing.Proofs.Domain.Directory
import EventSourcing.Proofs.Engine.Readable
import EventSourcing.Proofs.Store.Contiguous

/-! When a handler runs, and on what. To see this from outside, the handlers of an engine are made
to note each invocation before they do anything else (`announcing`). A command with a hydration leads
to one invocation, with the header, the state and the payload that the hydration determines; a
command without one leads to none, and an error is pending. There is no number for an event after the
last version, and events of two types with one id are all decoded by one of them. -/

namespace EventSourcing

variable {α σ : Type}

def Handler.announcing (mark : Invocation α σ → String) (h : Handler α σ) : Handler α σ where
  aggregate := h.aggregate
  run i := .meanwhile (·.note (mark i)) (h.run i)

def Engine.announcing (mark : Invocation α σ → String) (e : Engine α σ) : Engine α σ where
  registry := e.registry
  wiring := { e.wiring with handlers := e.wiring.handlers.map (Handler.announcing mark) }
  reporter := e.reporter

def World.readable (w : World) : World := { w with outage := { w.outage with reads := [] } }

def Hydration.announcing (mark : Invocation α σ → String) (x : Hydration α σ) : Hydration α σ where
  task := { x.task with handler := x.task.handler.announcing mark }
  events := x.events
  decoded := x.decoded

variable [Content α]

theorem World.mem_answers_readable {w : World} {domain : Int32} {a : Address} {events : List Message}
    (h : .ok events ∈ w.answers domain a) : .ok events ∈ w.readable.answers domain a := by
  have hs := map_view_of_mem_answers h
  refine List.mem_cons.2 (.inl ?_)
  rw [history_eq]
  exact hs.symm

theorem World.notes_append (w : World) (r : Registry α σ) (slot : Slot) (origin : List Record)
    (p : Payload α) : (w.append r slot origin p).2.notes = w.notes := by
  rw [append_eq]
  split
  · simp [record, notes, tried, now]
  split
  · simp [record, notes, tried, now]
  · simp [record, notes, tried, now]

namespace Engine

variable {e : Engine α σ} {command : Message} {w : World} {mark : Invocation α σ → String}

theorem Hydrates.readable {x : Hydration α σ} (h : e.Hydrates command w x) :
    e.Hydrates command w.readable x :=
  ⟨h.accepts, World.mem_answers_readable h.reads, h.decodes⟩

theorem hydrates_announcing {y : Hydration α σ} :
    (e.announcing mark).Hydrates command w y ↔
      ∃ x, e.Hydrates command w x ∧ y = x.announcing mark := by
  refine ⟨?_, ?_⟩
  · rintro ⟨⟨hd, hp, hh⟩, hr, hdec⟩
    unfold announcing at hh
    rw [Table.get?_map] at hh
    obtain ⟨h, hh, he⟩ := Option.map_eq_some_iff.1 hh
    refine ⟨⟨{ y.task with handler := h }, y.events, y.decoded⟩, ⟨⟨hd, hp, hh⟩, hr, hdec⟩, ?_⟩
    unfold Hydration.announcing
    rw [he]
  · rintro ⟨x, ⟨⟨hd, hp, hh⟩, hr, hdec⟩, rfl⟩
    refine ⟨⟨hd, hp, ?_⟩, hr, hdec⟩
    unfold announcing Hydration.announcing
    rw [Table.get?_map, hh]
    rfl

theorem overflows_announcing (mark : Invocation α σ → String) :
    (e.announcing mark).Overflows command w ↔ e.Overflows command w := by
  refine ⟨?_, ?_⟩
  · rintro ⟨task, events, ⟨hd, hp, hh⟩, hr, hmax⟩
    unfold announcing at hh
    rw [Table.get?_map] at hh
    obtain ⟨h, hh, -⟩ := Option.map_eq_some_iff.1 hh
    exact ⟨{ task with handler := h }, events, ⟨hd, hp, hh⟩, hr, hmax⟩
  · rintro ⟨task, events, ⟨hd, hp, hh⟩, hr, hmax⟩
    refine ⟨{ task with handler := task.handler.announcing mark }, events, ⟨hd, hp, ?_⟩, hr, hmax⟩
    unfold announcing
    rw [Table.get?_map, hh]
    rfl

theorem notes_appendPending (e : Engine α σ) (command : Message) (p : Payload α) (options : Options)
    (w : World) : (e.appendPending command p options w).2.notes = w.notes := by
  unfold appendPending
  exact w.notes_append e.registry _ command.origin p

theorem notes_firstAppend (e : Engine α σ) (command : Message) (c : Context α) (w : World) :
    (e.firstAppend command c w).2.notes = w.notes := by
  unfold firstAppend
  rw [notes_appendPending]
  exact (e.onlyReads_closing c w).notes

theorem notes_secondAppend (e : Engine α σ) (command : Message) (refusal : StoreError) (w : World) :
    (e.secondAppend command refusal w).2.notes = w.notes := by
  unfold secondAppend
  dsimp only
  rw [notes_appendPending]
  exact w.notes_count .appendRetries

theorem notes_finalize (e : Engine α σ) (command : Message) (c : Context α) (w : World) :
    (e.finalize command c w).2.notes = w.notes := by
  have h₁ := e.notes_firstAppend command c w
  rw [finalize_eq]
  split
  · next h => rw [h] at h₁; exact h₁
  · next h => rw [h] at h₁; exact h₁
  next refusal w' h =>
  rw [h] at h₁
  have h₂ := e.notes_secondAppend command refusal w'
  rw [← h₁]
  split
  · next h => rw [h] at h₂; exact h₂
  · next h => rw [h] at h₂; exact h₂
  · next h =>
    rw [h] at h₂
    exact (World.notes_enter _ _).trans h₂

/-- Finalizing a command notes nothing. -/
theorem notes_handle (e : Engine α σ) (command : Message) (w : World) :
    (e.handle command w).2.notes = (e.outcome command w).2.notes := by
  rw [handle_eq]
  split
  · next h => rw [h]
  next c w' h =>
  have hf := e.notes_finalize command c w'
  rw [h]
  split
  · next h => rw [h] at hf; exact hf
  · next m w'' h =>
    rw [h] at hf
    rw [World.notes_count]
    exact (World.notes_enter w'' .appended).trans hf

/-- Handling the command invokes the handler `h` once, on `i`, and no handler besides: one note is
made before `h` runs, and none but its own after that. -/
def Invokes (e : Engine α σ) (command : Message) (w : World) (h : Handler α σ)
    (i : Invocation α σ) : Prop :=
  ∀ mark, ∃ c w', w'.notes = w.notes ++ [mark i] ∧
    ((e.announcing mark).handle command w).2.notes = ((h.run i).run e.reporter c w').world.notes

def InvokesNone (e : Engine α σ) (command : Message) (w : World) : Prop :=
  ∀ mark, ((e.announcing mark).handle command w).2.notes = w.notes

theorem Invokes.notes_eq {h : Handler α σ} {i : Invocation α σ} (hi : e.Invokes command w h i)
    (hq : (h.run i).Quiet) : ((e.announcing mark).handle command w).2.notes = w.notes ++ [mark i] := by
  obtain ⟨c, w', hw', hn⟩ := hi mark
  rw [hn, hq.run_world, hw']

theorem invokes_of_hydrates {x : Hydration α σ} (hx : e.Hydrates command w x)
    (hw : ¬ e.Overflows command w) :
    e.Invokes command w x.task.handler (x.invocation e command) := by
  intro mark
  have hy : (e.announcing mark).Hydrates command w (x.announcing mark) :=
    hydrates_announcing.2 ⟨x, hx, rfl⟩
  rw [← overflows_announcing mark] at hw
  obtain ⟨w', hread, ⟨y, next, hy', -, h⟩ | ⟨-, hnone, -⟩ | ⟨ho, -⟩⟩ :=
    (e.announcing mark).outcome_cases command w
  · obtain rfl := hy'.unique hy
    refine ⟨.start (x.header e command).id next w'.reports,
      (w'.enter .executing).note (mark (x.invocation e command)), ?_, ?_⟩
    · rw [World.notes_note, World.notes_enter, hread.notes]
    · rw [notes_handle, h]
      dsimp only
      rw [execute_snd]
      rfl
  · exact absurd hy (hnone _)
  · exact absurd ho hw

/-- A command that is not hydrated has failed: an error is pending already. -/
theorem outcome_of_not_hydrates (hnone : ∀ x, ¬ e.Hydrates command w x)
    (hw : ¬ e.Overflows command w) :
    ∃ c w' text, e.outcome command w = (.ok c, w') ∧ w.OnlyReads w' ∧ c.isError = true ∧
      c.pending = some (e.reporter.event w.reports text).1 := by
  obtain ⟨w', hread, ⟨x, next, hx, -⟩ | ⟨-, -, text, h⟩ | ⟨ho, -⟩⟩ := e.outcome_cases command w
  · exact absurd hx (hnone x)
  · refine ⟨_, w', text, h, hread, rfl, ?_⟩
    rw [hread.reports]
    rfl
  · exact absurd ho hw

theorem outcome_of_overflows (hw : e.Overflows command w) :
    ∃ w', e.outcome command w = (.error .addOverflow, w') ∧ w.OnlyReads w' := by
  obtain ⟨w', hread, ⟨x, next, hx, hn, -⟩ | ⟨ho, -⟩ | ⟨-, h⟩⟩ := e.outcome_cases command w
  · rw [overflows_iff hx.accepts hx.reads, ← nextVersion?_eq_none_iff, hn] at hw
    cases hw
  · exact absurd hw ho
  · exact ⟨w', h, hread⟩

theorem handle_of_overflows (hw : e.Overflows command w) :
    (e.handle command w).1 = .error .addOverflow := by
  obtain ⟨w', h, -⟩ := outcome_of_overflows hw
  rw [handle_eq, h]

theorem invokesNone_of_not_hydrates (hnone : ∀ x, ¬ e.Hydrates command w x)
    (hw : ¬ e.Overflows command w) : e.InvokesNone command w := by
  intro mark
  have hnone' : ∀ y, ¬ (e.announcing mark).Hydrates command w y := by
    intro y hy
    obtain ⟨x, hx, -⟩ := hydrates_announcing.1 hy
    exact hnone x hx
  rw [← overflows_announcing mark] at hw
  obtain ⟨c, w', text, houtcome, hread, -⟩ := outcome_of_not_hydrates hnone' hw
  rw [notes_handle, houtcome]
  exact hread.notes

theorem invokesNone_of_overflows (hw : e.Overflows command w) : e.InvokesNone command w := by
  intro mark
  rw [← overflows_announcing mark] at hw
  obtain ⟨w', h, hread⟩ := outcome_of_overflows hw
  rw [notes_handle, h]
  exact hread.notes

/-- A handler is invoked just when its command is hydrated, and then once, on what the hydration
determines; else an error is pending. What is read is the history of the aggregate, and refused
readings do not change a hydration. Only after the last version there is, where no event could
follow, the engine panics instead. -/
theorem handler_invoked_once (e : Engine α σ) (command : Message) (w : World) :
    (∀ x, e.Hydrates command w x → ¬ e.Overflows command w →
        e.Invokes command w x.task.handler (x.invocation e command) ∧
        ((x.task.handler.run (x.invocation e command)).Quiet → ∀ mark,
          ((e.announcing mark).handle command w).2.notes =
            w.notes ++ [mark (x.invocation e command)]) ∧
        x.events = w.outage.view (w.store.events (x.task.aggregateKey command) 0) ∧
        e.Invokes command w.readable x.task.handler (x.invocation e command)) ∧
      ((∀ x, ¬ e.Hydrates command w x) → ¬ e.Overflows command w →
        e.InvokesNone command w ∧
        ∃ c w' text, e.outcome command w = (.ok c, w') ∧ c.isError = true ∧
          c.pending = some (e.reporter.event w.reports text).1) ∧
      (e.Overflows command w →
        e.InvokesNone command w ∧ (e.handle command w).1 = .error .addOverflow) := by
  refine ⟨?_, ?_, ?_⟩
  · intro x hx hw
    have hw' : ¬ e.Overflows command w.readable := by
      rw [overflows_iff hx.readable.accepts hx.readable.reads, ← overflows_iff hx.accepts hx.reads]
      exact hw
    have hinvokes := invokes_of_hydrates hx hw
    refine ⟨hinvokes, ?_, hx.events_eq, invokes_of_hydrates hx.readable hw'⟩
    intro hq mark
    exact hinvokes.notes_eq hq
  · intro hnone hw
    obtain ⟨c, w', text, houtcome, -, herror, hpending⟩ := outcome_of_not_hydrates hnone hw
    exact ⟨invokesNone_of_not_hydrates hnone hw, c, w', text, houtcome, herror, hpending⟩
  · intro hw
    exact ⟨invokesNone_of_overflows hw, handle_of_overflows hw⟩

/-- An error log with two reports, whose first reading is refused; and a command to a domain that
there is not. -/
theorem handler_invoked_once_diskFull :
    let e : Engine ValueChanger.Change ValueChanger.Value := minimal "test/source"
    let command := diskFullAt (textHash "disk")
    let w := World.refusing (Store.twoReports e.registry) (.unavailable "timeout")
    let x := twoReportsHydration e.registry
    let i : Invocation ValueChanger.Change ValueChanger.Value :=
      ⟨⟨textHash "test/source", textHash32 systemUri, textHash "disk", 2⟩,
        .errorLog ⟨2, some "disk slow"⟩, command, .raiseError ⟨"disk full"⟩⟩
    let astray : Message := { command with header := ⟨0, 5, 7, 0⟩ }
    (w.history (textHash32 systemUri) (.id (textHash "disk"))).1 = .error (.unavailable "timeout") ∧
      e.Hydrates command w x ∧ ¬ e.Overflows command w ∧
      (∀ mark, ((e.announcing mark).handle command w).2.notes = [mark i]) ∧
      e.Invokes command w.readable systemHandler i ∧
      (∀ y, ¬ e.Hydrates astray w y) ∧ e.InvokesNone astray w := by
  intro e command w x i astray
  have hx : e.Hydrates command w x :=
    hydrates_twoReports "test/source" (World.mem_answers_refusing _ _ _ _)
  have hlength : x.events.length = 2 := length_twoReportsHydration "test/source"
  have hw : ¬ e.Overflows command w := by
    rw [overflows_iff hx.accepts hx.reads, hlength]
    decide
  have hi : x.invocation e command = i := by
    unfold Hydration.invocation Hydration.header
    rw [hlength]
    rfl
  have hnone : ∀ task, ¬ e.Accepts astray task := by
    intro task h
    have hother : textHash32 systemUri ≠ 5 := by decide +kernel
    have hunknown : e.registry.domain 5 = none := (Table.get?_insert _ _ _ _).trans (if_neg hother)
    cases hunknown.symm.trans h.domain
  have hastray : ¬ e.Overflows astray w := fun ⟨task, _, h, _⟩ => hnone task h
  obtain ⟨h, -, -⟩ := handler_invoked_once e command w
  obtain ⟨-, hfailed, -⟩ := handler_invoked_once e astray w
  obtain ⟨-, hnotes, -, hreadable⟩ := h x hx hw
  rw [hi] at hnotes hreadable
  refine ⟨rfl, hx, hw, hnotes (quiet_systemHandler i), hreadable, fun y hy => hnone _ hy.accepts, ?_⟩
  exact (hfailed (fun y hy => hnone _ hy.accepts) hastray).1

section Overflow

variable {α σ : Type} [Content α]

/-- An error log with as many reports as there are versions is read, but goes no further. -/
theorem overflows_of_replicate_report (sourceUri : String) {n : Nat}
    (hn : (n : Int) = Int32.maxValue.toInt) :
    let e : Engine α σ := minimal sourceUri
    let w := World.serving (Store.run e.registry
      (List.replicate n (.appendKeyed 0 "disk" [] (.errorRaised ⟨"disk full"⟩))))
    ∃ x, e.Hydrates (diskFullAt (textHash "disk")) w x ∧ x.events.length = n ∧
      e.Overflows (diskFullAt (textHash "disk")) w := by
  intro e w
  have hr : e.registry.Built := Registry.built_minimal sourceUri
  let report : Operation α := .appendKeyed 0 "disk" [] (.errorRaised ⟨"disk full"⟩)
  have hinverts : ∀ op ∈ List.replicate n report, ∀ p, op.payload? = some p → e.registry.Inverts p := by
    intro op hop p hp
    obtain rfl := List.eq_of_mem_replicate hop
    cases hp
    exact hr.inverts_errorRaised _
  have hwhole : ∀ v, .deleteEvent ⟨textHash32 systemUri, textHash "disk"⟩ v ∉ List.replicate n report := by
    intro v hv
    have h := List.eq_of_mem_replicate hv
    unfold report at h
    cases h
  have hlength := (Store.run_replicate_report hr 0 (by decide : "disk" ≠ "") ⟨"disk full"⟩ hn.le).1
  have hread := World.mem_answers_serving (Store.run e.registry (List.replicate n report))
    (textHash32 systemUri) (textHash "disk")
  rw [(Store.run_contiguousAt hwhole).events_eq] at hread
  have ha := accepts_diskFullAt (α := α) (σ := σ) sourceUri (textHash "disk")
  obtain ⟨decoded, hx⟩ := hydrates_of_run hr (Registry.distinctEvents_minimal sourceUri) hinverts
    (World.store_serving _) rfl ha hread
  refine ⟨_, hx, hlength, (overflows_iff ha hread).2 ?_⟩
  rw [hlength, ← Int32.toInt_inj, ← hn]
  rw [Int32.toInt_maxValue] at hn
  exact Int32.toInt_ofNat_of_lt (by omega)

end Overflow

end Engine

namespace Turn

/-- The door with the id 7 was knocked at, opened or closed. -/
def message (t : Turn) (source : Int64) (v : Int32) : Message where
  header := ⟨source, textHash32 uri, 7, v⟩
  origin := []
  timestamp := 0
  typeId := t.entry.typeId
  data := [0]

theorem extract_message (t : Turn) (source : Int64) (v : Int32) :
    t.entry.extract (t.message source v) = .ok (.custom t) :=
  MessageType.extract_eq_ok rfl (List.cons_ne_nil 0 []) rfl

/-- A door that was closed is taken for an opened one. -/
theorem decodes_closed (source : Int64) (v : Int32) :
    domain.Decodes (closed.message source v) (.custom opened) :=
  ⟨opened.entry, events_byId_closed,
    MessageType.extract_eq_ok typeId_opened.symm (List.cons_ne_nil 0 []) rfl⟩

def handler : Handler Turn (List Turn) := ⟨"Door", fun _ => .done⟩

theorem shortId_ne_system : textHash32 systemUri ≠ textHash32 uri := by decide +kernel

theorem exists_registry : ∃ r, Registry.build "test/source" [domain] = .ok r ∧ r.Built ∧
    r.domainByUri uri = some domain ∧ r.sourceId = textHash "test/source" := by
  have hcompiled : ∀ d ∈ [domain], d.Compiled := List.forall_mem_singleton.2 compiled_domain
  have hnodup : ([systemDomain, domain].map Domain.shortId).Nodup :=
    List.nodup_cons.2 ⟨fun h => shortId_ne_system (List.mem_singleton.1 h), List.nodup_singleton _⟩
  obtain ⟨r, hbuild, hindexes, -, hsource⟩ := Registry.build_of_nodup "test/source" hcompiled hnodup
  have hlisted : domain ∈ [systemDomain, domain] := List.mem_cons_of_mem _ List.mem_cons_self
  exact ⟨r, hbuild, ⟨_, _, hcompiled, hbuild⟩,
    hindexes.domainByUri_eq_some_iff.2 ⟨hlisted, normalize_uri.symm⟩, hsource⟩

theorem append_closed {r : Registry Turn (List Turn)} (hd : r.domainByUri uri = some domain) :
    Store.empty.append r 0 7 1 [] (.custom closed) =
      (.ok (closed.message r.sourceId 1),
        Store.empty.push ⟨textHash32 uri, 7⟩ (closed.message r.sourceId 1)) :=
  Store.append_eq_ok_iff.2
    ⟨⟨domain, closed.entry, [0], ⟨hd, messageType_closed, rfl⟩, rfl, rfl⟩, rfl, rfl⟩

theorem hydrates_knock {e : Engine Turn (List Turn)} (hr : e.registry.Built)
    (hd : e.registry.domainByUri uri = some domain)
    (hh : e.wiring.handlers.get? (textHash32 uri) = some handler) (source : Int64) :
    e.Hydrates (knock.message 0 0)
      (World.serving (Store.empty.push ⟨textHash32 uri, 7⟩ (closed.message source 1)))
      ⟨⟨domain, handler, .custom knock⟩, [closed.message source 1], [.custom opened]⟩ where
  accepts := ⟨(hr.filed.domain_shortId hd).1,
    ⟨knock.entry, commands_byId_knock, extract_message knock 0 0⟩, hh⟩
  reads := by
    have hread := World.mem_answers_serving
      (Store.empty.push ⟨textHash32 uri, 7⟩ (closed.message source 1)) (textHash32 uri) 7
    unfold Store.events at hread
    rw [Store.stream_push, if_pos rfl] at hread
    exact hread
  decodes := .cons (decodes_closed source 1) .nil

end Turn

namespace Engine

/-- A history that is read is not always what the handler is invoked on. After as many events as there
are versions no handler is invoked, and no error is pending either. Of two events with one id the later
one in the catalog is replayed, whichever was appended. -/
theorem handler_misses_history :
    (let e : Engine ValueChanger.Change ValueChanger.Value := minimal "test/source"
      let command := diskFullAt (textHash "disk")
      let w := World.serving (Store.run e.registry
        (List.replicate 2147483647 (.appendKeyed 0 "disk" [] (.errorRaised ⟨"disk full"⟩))))
      ∃ x, e.Hydrates command w x ∧ x.events.length = 2147483647 ∧ e.InvokesNone command w ∧
        (e.handle command w).1 = .error .addOverflow) ∧
      ∃ r wiring s, Registry.build "test/source" [Turn.domain] = .ok r ∧
        Wiring.build r [.handler Turn.uri Turn.handler] = .ok wiring ∧
        Store.empty.append r 0 7 1 [] (.custom .closed) = (.ok (Turn.closed.message r.sourceId 1), s) ∧
        Turn.closed.entry.extract (Turn.closed.message r.sourceId 1) = .ok (.custom .closed) ∧
        Engine.Invokes ⟨r, wiring, .standard fun _ => 1⟩ (Turn.knock.message 0 0) (World.serving s)
          Turn.handler ⟨⟨textHash "test/source", textHash32 Turn.uri, 7, 1⟩, .custom [.opened],
            Turn.knock.message 0 0, .custom .knock⟩ := by
  refine ⟨?_, ?_⟩
  · intro e command w
    obtain ⟨x, hx, hlength, hover⟩ :=
      overflows_of_replicate_report (α := ValueChanger.Change) (σ := ValueChanger.Value) "test/source"
        (n := 2147483647) rfl
    exact ⟨x, hx, hlength, invokesNone_of_overflows hover, handle_of_overflows hover⟩
  · obtain ⟨r, hbuild, hr, hd, hsource⟩ := Turn.exists_registry
    obtain ⟨wiring, hwiring, hh⟩ : ∃ wiring,
        Wiring.build r [.handler Turn.uri Turn.handler] = .ok wiring ∧
          wiring.handlers.get? (textHash32 Turn.uri) = some Turn.handler :=
      ⟨_, Wiring.build_handler hr hd rfl Turn.shortId_ne_system,
        (Table.get?_insert _ _ _ _).trans (if_pos rfl)⟩
    refine ⟨r, wiring, _, hbuild, hwiring, Turn.append_closed hd, Turn.extract_message .closed _ _, ?_⟩
    let e : Engine Turn (List Turn) := ⟨r, wiring, .standard fun _ => 1⟩
    have hx := Turn.hydrates_knock (e := e) hr hd hh r.sourceId
    have hfits : Int32.ofNat 1 ≠ Int32.maxValue := by decide
    rw [← hsource]
    refine invokes_of_hydrates hx ?_
    rw [overflows_iff hx.accepts hx.reads]
    exact hfits

end Engine
end EventSourcing
