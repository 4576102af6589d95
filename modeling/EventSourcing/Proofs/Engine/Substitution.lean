import EventSourcing.Proofs.Engine.FirstAppend
import EventSourcing.Proofs.Engine.Journal
import EventSourcing.Proofs.Store.NextVersion

/-! The report that takes the place of a refused event. A store that is asked for it at the first
version of an aggregate without events cannot refuse it: every registry lists the report of an
error, and every such report can be encoded. So whatever a handler publishes, its command is
answered, as long as the reports go to new aggregates. -/

namespace EventSourcing

variable {α σ : Type}

/-- A report of an error that starts an aggregate of the system domain. -/
structure Store.Opens (s : Store) (report : Payload α × Options) : Prop where
  error : ∃ error, report.1 = .errorRaised error
  unused : s.stream ⟨textHash32 systemUri, report.2.resolvedId⟩ = []
  version : report.2.version = 1

theorem Store.opens_standard {s : Store} {ids : Nat → Int64} {n : Nat}
    (h : s.stream ⟨textHash32 systemUri, ids n⟩ = []) (text : String) :
    s.Opens ((Reporter.standard ids : Reporter α).event n text) where
  error := ⟨_, rfl⟩
  unused := by
    show s.stream ⟨_, (Options.new (ids n) 1 0).resolvedId⟩ = []
    rw [Options.resolvedId_new, h]
  version := rfl

variable [Content α]

omit [Content α] in
/-- A store that was run has room as long as the last version was not given away: there are no more
events than versions. -/
theorem Store.WellFormed.hasRoom {r : Registry α σ} {w : World} (h : w.store.WellFormed r)
    (hview : w.outage.view = id) (hmax : ∀ k, ∀ m ∈ w.store.stream k, m.version ≠ Int32.maxValue) :
    w.HasRoom where
  versions := hmax
  histories k := by
    intro hlast
    have hlength : (w.store.events k 0).length ≤ (w.store.stream k).length :=
      List.length_filter_le _ _
    have hcur := h.length_le_currentVersion (k := k)
    have hne : (w.store.currentVersion k).toInt ≠ Int32.maxValue.toInt :=
      fun heq => Store.currentVersion_ne_max (hmax k) (Int32.toInt_inj.1 heq)
    have hle := (w.store.currentVersion k).toInt_le
    rw [Int32.toInt_maxValue] at hne hle
    have hcount : (Int32.ofNat (w.store.events k 0).length).toInt = (w.store.events k 0).length :=
      Int32.toInt_ofNat_of_lt (by omega)
    rw [hview, id_eq] at hlast
    rw [hlast, Int32.toInt_maxValue] at hcount
    omega

/-- Every append uses up one of the refusals ahead. -/
theorem World.appends_append (w : World) (r : Registry α σ) (slot : Slot) (origin : List Record)
    (p : Payload α) :
    (w.append r slot origin p).2.outage.appends = w.outage.appends.tail := by
  rw [append_eq]
  split
  · rfl
  · split
    · rfl
    · rfl

/-- A report that opens an aggregate is appended there. -/
theorem Store.Opens.exists_append {r : Registry α σ} {w : World} {report : Payload α × Options}
    (h : w.store.Opens report) (hr : r.Built)
    (hserved : ∀ error, w.outage.appends.head? ≠ some (some error)) (origin : List Record) :
    ∃ m w', w.append r (report.1.slot report.2) origin report.1 = (.ok m, w') := by
  obtain ⟨p, options⟩ := report
  obtain ⟨⟨error, rfl : p = .errorRaised error⟩, hunused, hversion⟩ := h
  dsimp only at hunused hversion ⊢
  have hfirst : previousVersion? options.version =
      some (w.store.currentVersion ⟨textHash32 systemUri, options.resolvedId⟩) := by
    rw [hversion, currentVersion, hunused]
    rfl
  have happend := append_report hr w.now.1 options.resolvedId origin error hfirst
  rw [World.append_eq]
  split
  · next error h => exact absurd h (hserved error)
  · dsimp only [Payload.slot, Payload.key, appendTo]
    rw [happend]
    exact ⟨_, _, rfl⟩

namespace Engine

/-- The report that is to take the place of the event of a command, if the store refuses the event.
-/
def substitute (e : Engine α σ) (command : Message) (w : World) : Option (Payload α × Options) :=
  match e.outcome command w with
  | (.error _, _) => none
  | (.ok c, w) =>
    match e.firstAppend command c w with
    | (.error (.error refusal), w) =>
      some (e.reporter.event w.reports s!"Error appending event [ {refusal.message} ]")
    | _ => none

variable {e : Engine α σ} {command : Message} {w : World}

theorem exists_of_mem_substitute {report : Payload α × Options}
    (h : report ∈ e.substitute command w) : ∃ n text, report = e.reporter.event n text := by
  unfold substitute at h
  split at h
  · cases h
  · split at h
    · cases h
      exact ⟨_, _, rfl⟩
    · cases h

theorem appends_firstAppend (e : Engine α σ) (command : Message) (c : Context α) (w : World) :
    (e.firstAppend command c w).2.outage.appends = w.outage.appends.tail := by
  unfold firstAppend
  rw [appendPending_eq, World.appends_append, (e.onlyReads_closing c w).appends]

theorem exists_secondAppend (hr : e.registry.Built) (command : Message) {refusal : StoreError}
    (hserved : ∀ error, w.outage.appends.head? ≠ some (some error))
    (hopens : w.store.Opens
      (e.reporter.event w.reports s!"Error appending event [ {refusal.message} ]")) :
    ∃ m w', e.secondAppend command refusal w = (.ok m, w') := by
  unfold secondAppend
  dsimp only
  rw [appendPending_eq]
  have hopens' : { w.count .appendRetries with reports := w.reports + 1 }.store.Opens
    (e.reporter.event w.reports s!"Error appending event [ {refusal.message} ]") := hopens
  exact hopens'.exists_append hr hserved command.origin

omit [Content α] in
theorem Closes.fatal_notMem {room : Prop} {m : Message} {entries : List Entry}
    (h : Closes room (.ok m) entries) : .stage .appendFatal ∉ entries := by
  cases h with
  | appended => simp
  | reported => simp

theorem exists_handle_eq_ok (hr : e.registry.Built) (hq : e.wiring.Quiet) (hw : w.HasRoom)
    (hserved : ∀ error, some error ∉ w.outage.appends)
    (hopens : ∀ report ∈ e.substitute command w, w.store.Opens report) :
    ∃ m w', e.handle command w = (.ok m, w') := by
  have hread := onlyReads_outcome hq command w
  have hfits : ¬ e.Overflows command w := not_overflows hw
  obtain ⟨c, hc⟩ := exists_outcome hfits
  unfold substitute at hopens
  rcases ho : e.outcome command w with ⟨_, w₁⟩
  rw [ho] at hc hread hopens
  obtain rfl := hc
  rw [handle_eq, ho]
  dsimp only at hopens ⊢
  rw [finalize_eq]
  have happends := e.appends_firstAppend command c w₁
  rcases e.firstAppend_cases command c w₁ with ⟨m, w₂, h, -⟩ | ⟨refusal | q, w₂, h, hs, -⟩
  · rw [h]
    exact ⟨m, _, rfl⟩
  · -- The refused append has left the store as it was, so the report still opens its aggregate.
    rw [h] at happends hopens ⊢
    have hserved₂ : ∀ error, w₂.outage.appends.head? ≠ some (some error) := by
      intro error hhead
      rw [happends, hread.appends] at hhead
      exact hserved error (List.mem_of_mem_tail (List.mem_of_head? hhead))
    have hopens₂ := hopens _ rfl
    rw [← hread.store, ← hs] at hopens₂
    obtain ⟨m, w₃, h₂⟩ := exists_secondAppend hr command hserved₂ hopens₂
    dsimp only
    rw [h₂]
    exact ⟨m, _, rfl⟩
  · exact absurd (congrArg Prod.fst h)
      (e.firstAppend_ne_panic command (hw.of_eq hread.store hread.view) c q)

/-- A command that reaches a store with room is answered, whatever its handler publishes, and no
append is fatal: if the event is refused, the report that takes its place is appended. Of the
reports made on the way only this one has to go to a new aggregate. A store that was run has room as
long as the last version was not given away. -/
theorem handle_never_panics (e : Engine α σ) (hr : e.registry.Built) (hq : e.wiring.Quiet) :
    (∀ (w : World) ops, w.store = Store.run e.registry ops → w.outage.view = id →
        (∀ k, ∀ m ∈ w.store.stream k, m.version ≠ Int32.maxValue) → w.HasRoom) ∧
      ∀ command (w : World), w.HasRoom → (∀ error, some error ∉ w.outage.appends) →
        (∀ report ∈ e.substitute command w, w.store.Opens report) →
        ∃ m w', e.handle command w = (.ok m, w') ∧
          ∃ added, w'.journal = w.journal ++ added ∧ .stage .appendFatal ∉ added := by
  refine ⟨?_, ?_⟩
  · intro w ops hs hview hmax
    have hwell : w.store.WellFormed e.registry := hs ▸ Store.wellFormed_run hr.filed ops
    exact hwell.hasRoom hview hmax
  · intro command w hw hserved hopens
    obtain ⟨m, w', h⟩ := exists_handle_eq_ok hr hq hw hserved hopens
    refine ⟨m, w', h, ?_⟩
    obtain ⟨entries, hcloses, added, hjournal, rfl⟩ := logs_handle hq command w
    rw [h] at hcloses hjournal
    refine ⟨added, hjournal, ?_⟩
    intro hfatal
    exact hcloses.fatal_notMem (List.mem_filter.2 ⟨hfatal, rfl⟩)

/-- The handler publishes its command as if it were an event, which the store refuses. The aggregate
of the command holds an event already; the one that reports go to does not. -/
theorem handle_never_panics_diskFull :
    let handler : Handler ValueChanger.Change ValueChanger.Value :=
      ⟨"ErrorLog", fun i => .call (.publish i.payload []) .done⟩
    let e : Engine ValueChanger.Change ValueChanger.Value := { minimal "test/source" with
      wiring := ⟨Table.empty.insert (textHash32 systemUri) handler, [], .empty⟩ }
    let ops := [.append 5 7 1 [] (.errorRaised ⟨"disk full"⟩)]
    let w := World.serving (Store.run e.registry ops)
    e.registry.Built ∧ e.wiring.Quiet ∧ w.HasRoom ∧
      (∀ report ∈ e.substitute diskFull w, w.store.Opens report) ∧
      ∃ m w', e.handle diskFull w = (.ok m, w') ∧
        ∃ added, w'.journal = w.journal ++ added ∧ .stage .appendFatal ∉ added := by
  intro handler e ops w
  have hr : e.registry.Built := Registry.built_minimal _
  have hq : e.wiring.Quiet := by
    intro domain h hh i
    rw [Table.get?_insert] at hh
    split at hh
    · cases hh
      exact .call _ .done
    · cases hh
  have hs : w.store = Store.run e.registry ops := World.store_serving _
  have hstream : ∀ k, (Store.run e.registry ops).stream k =
      if (⟨textHash32 systemUri, 7⟩ : AggregateKey) = k then
        [e.registry.report 7 1 5 [] ⟨"disk full"⟩] else [] := by
    intro k
    have happend := Store.append_report (s := .empty) hr 5 7 [] ⟨"disk full"⟩ (v := 1) rfl
    simp only [ops, Store.run, List.foldl_cons, List.foldl_nil, Store.perform, happend]
    exact Store.stream_push _ _ k _
  have hw : w.HasRoom := by
    refine (handle_never_panics e hr hq).1 w ops hs rfl ?_
    intro k m hm
    rw [hs, hstream] at hm
    split at hm
    · rw [List.mem_singleton.1 hm]
      decide
    · cases hm
  have hopens : ∀ report ∈ e.substitute diskFull w, w.store.Opens report := by
    intro report hreport
    obtain ⟨n, text, rfl⟩ := exists_of_mem_substitute hreport
    refine Store.opens_standard ?_ text
    rw [hs, hstream]
    exact if_neg (by simp)
  have hserved : ∀ error, some error ∉ w.outage.appends := fun _ => List.not_mem_nil
  exact ⟨hr, hq, hw, hopens, (handle_never_panics e hr hq).2 diskFull w hw hserved hopens⟩

end Engine
end EventSourcing
