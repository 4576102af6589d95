import EventSourcing.Proofs.Engine.Hydration

/-! What becomes of a command. Its context is settled first: the store is only read for it if the
handler is quiet. Then the proposal of the context is appended, and if that is refused, a report of
the refusal. -/

namespace EventSourcing

theorem Options.version_pos (o : Options) : 1 ≤ o.version.toInt := by
  unfold version
  split
  · decide
  · next h =>
    rw [Int32.lt_iff_toInt_lt, Int32.toInt_one] at h
    omega

variable {α σ : Type}

theorem Script.Quiet.run_world {s : Script α} (h : s.Quiet) (r : Reporter α) (c : Context α)
    (w : World) : (s.run r c w).world = w := by
  induction h generalizing c with
  | done => rfl
  | panic p => rfl
  | call k _ ih => exact ih (c.call r k)
  | look _ ih => exact ih c c

def Wiring.Quiet (w : Wiring α σ) : Prop :=
  ∀ domain h, w.handlers.get? domain = some h → ∀ i, (h.run i).Quiet

variable [Content α]

def Payload.slot (p : Payload α) (options : Options) : Slot :=
  match p.key with
  | some key => .key key
  | none => .version options.resolvedId options.version

def Store.appendTo (s : Store) (r : Registry α σ) (now : Int64) (origin : List Record)
    (p : Payload α) : Slot → Attempt StoreError Message × Store
  | .version id version => s.append r now id version origin p
  | .key key => s.appendKeyed r now key origin p

theorem Store.appends_of_appendTo {s s' : Store} {r : Registry α σ} {now : Int64}
    {origin : List Record} {p : Payload α} {slot : Slot} {m : Message}
    (h : s.appendTo r now origin p slot = (.ok m, s')) : s.Appends r m s' ∧ m.origin = origin := by
  cases slot with
  | version id v =>
    obtain ⟨hmake, -, -⟩ := append_eq_ok_iff.1 h
    exact ⟨appends_of_append h, hmake.origin_eq⟩
  | key key =>
    obtain ⟨-, v, hmake, -⟩ := appendKeyed_eq_ok_iff.1 h
    exact ⟨appends_of_appendKeyed h, hmake.origin_eq⟩

theorem Store.appendTo_cases (s : Store) (r : Registry α σ) (now : Int64) (origin : List Record)
    (p : Payload α) (slot : Slot) :
    (∃ m s', s.appendTo r now origin p slot = (.ok m, s')) ∨
      ∃ fault, s.appendTo r now origin p slot = (.error fault, s) := by
  cases slot with
  | version id v => exact s.append_cases r now id v origin p
  | key key => exact s.appendKeyed_cases r now key origin p

namespace World

/-- The last version there is was given to no event, and no history is that long. -/
structure HasRoom (w : World) : Prop where
  versions : ∀ k, ∀ m ∈ w.store.stream k, m.version ≠ Int32.maxValue
  histories : ∀ k, Int32.ofNat (w.outage.view (w.store.events k 0)).length ≠ Int32.maxValue

theorem HasRoom.currentVersion_ne {w : World} (h : w.HasRoom) (k : AggregateKey) :
    w.store.currentVersion k ≠ Int32.maxValue := Store.currentVersion_ne_max (h.versions k)

theorem HasRoom.of_eq {w w' : World} (h : w.HasRoom) (hs : w'.store = w.store)
    (hv : w'.outage.view = w.outage.view) : w'.HasRoom := by
  refine ⟨?_, ?_⟩
  · rw [hs]
    exact h.versions
  · rw [hs, hv]
    exact h.histories

/-- The world in which the store is asked for an append: the clock was read, and one refusal less is
ahead. -/
def tried (w : World) : World :=
  { w.now.2 with outage := { w.outage with appends := w.outage.appends.tail } }

theorem append_eq (w : World) (r : Registry α σ) (slot : Slot) (origin : List Record)
    (p : Payload α) :
    w.append r slot origin p =
      match w.outage.appends.head? with
      | some (some e) => (refuse e, w.tried.record (.refused (.error e)))
      | _ =>
        match w.store.appendTo r w.now.1 origin p slot with
        | (.ok m, store) => (.ok m, { w.tried with store }.record (.appended m))
        | (.error fault, store) => (.error fault, { w.tried with store }.record (.refused fault)) := by
  unfold append now
  dsimp only
  cases slot with
  | version id v =>
    rcases w.outage.appends.head? with _ | _ | e
    · rfl
    · rfl
    · rfl
  | key key =>
    rcases w.outage.appends.head? with _ | _ | e
    · rfl
    · rfl
    · rfl

/-- An append puts one event at the end of a stream, or it fails and the store stays as it is. -/
theorem append_cases (w : World) (r : Registry α σ) (slot : Slot) (origin : List Record)
    (p : Payload α) :
    (∃ m w', w.append r slot origin p = (.ok m, w') ∧ w.store.Appends r m w'.store ∧
        w'.publisher = w.publisher ∧ m.origin = origin) ∨
      ∃ fault, w.append r slot origin p = (.error fault, w.tried.record (.refused fault)) := by
  rw [append_eq]
  split
  · next e _ => exact .inr ⟨.error e, rfl⟩
  rcases w.store.appendTo_cases r w.now.1 origin p slot with ⟨m, s', h⟩ | ⟨fault, h⟩
  · obtain ⟨happends, horigin⟩ := Store.appends_of_appendTo h
    rw [h]
    exact .inl ⟨m, _, rfl, happends, rfl, horigin⟩
  · rw [h]
    exact .inr ⟨fault, rfl⟩

/-- With room an append fails only by being refused. -/
theorem append_ne_panic {w : World} (hw : w.HasRoom) (r : Registry α σ) {slot : Slot}
    (hslot : ∀ id v, slot = .version id v → v ≠ Int32.minValue) (origin : List Record)
    (p : Payload α) (q : Panic) : (w.append r slot origin p).1 ≠ .error (.panic q) := by
  intro h
  rw [append_eq] at h
  split at h
  · cases h
  split at h
  · cases h
  · next ha =>
    cases h
    cases slot with
    | version id v => exact hslot id v rfl (Store.append_panic (congrArg Prod.fst ha))
    | key key =>
      obtain ⟨k, hk⟩ := Store.appendKeyed_panic (congrArg Prod.fst ha)
      exact hw.currentVersion_ne k hk

end World

namespace Engine

/-- The event that a context leads to, with its options: what is pending, or else an error. -/
def proposal (e : Engine α σ) (c : Context α) : Payload α × Options :=
  match c.pending with
  | some p => (p, c.options)
  | none => e.reporter.event c.reports "Error event not published in handler"

/-- The world in which the proposal of a context is appended. -/
def closing (e : Engine α σ) (c : Context α) (w : World) : World :=
  let c := c.error e.reporter "Error event not published in handler"
  let w := { w with reports := c.reports }
  if c.isError then (w.count .commandErrors).enter .errorPublished else w.enter .published

def firstAppend (e : Engine α σ) (command : Message) (c : Context α) (w : World) :
    Attempt StoreError Message × World :=
  e.appendPending command (e.proposal c).1 (e.proposal c).2 (e.closing c w)

def secondAppend (e : Engine α σ) (command : Message) (refusal : StoreError) (w : World) :
    Attempt StoreError Message × World :=
  let (p, options) := e.reporter.event w.reports s!"Error appending event [ {refusal.message} ]"
  e.appendPending command p options { w.count .appendRetries with reports := w.reports + 1 }

theorem finalize_eq (e : Engine α σ) (command : Message) (c : Context α) (w : World) :
    e.finalize command c w =
      match e.firstAppend command c w with
      | (.ok event, w) => (.ok event, w)
      | (.error (.panic p), w) => (.error p, w)
      | (.error (.error refusal), w) =>
        match e.secondAppend command refusal w with
        | (.ok event, w) => (.ok event, w)
        | (.error (.panic p), w) => (.error p, w)
        | (.error (.error error), w) =>
          (.error (.of s!"event append failed twice for command {command.text}: {error.message}"),
            w.enter .appendFatal) := by
  unfold finalize firstAppend proposal closing Context.error Context.hasPublished Context.forceError
  cases hc : c.pending with
  | none => rfl
  | some p =>
    simp only [Option.isSome_some, if_true, hc]
    rfl

omit [Content α] in
theorem onlyReads_closing (e : Engine α σ) (c : Context α) (w : World) :
    { w with
      reports := (c.error e.reporter "Error event not published in handler").reports }.OnlyReads
        (e.closing c w) := by
  unfold closing
  dsimp only
  split
  · exact ((World.OnlyReads.refl _).count .commandErrors).enter .errorPublished
  · exact (World.OnlyReads.refl _).enter .published

theorem appendPending_eq (e : Engine α σ) (command : Message) (p : Payload α) (options : Options)
    (w : World) :
    e.appendPending command p options w = w.append e.registry (p.slot options) command.origin p := by
  unfold appendPending Payload.slot
  cases p.key with
  | none => rfl
  | some key => rfl

theorem appendPending_cases (e : Engine α σ) (command : Message) (p : Payload α)
    (options : Options) (w : World) :
    (∃ m w', e.appendPending command p options w = (.ok m, w') ∧
        w.store.Appends e.registry m w'.store ∧ w'.publisher = w.publisher ∧
        m.origin = command.origin) ∨
      ∃ fault, e.appendPending command p options w =
        (.error fault, w.tried.record (.refused fault)) := by
  rw [appendPending_eq]
  exact w.append_cases e.registry _ command.origin p

theorem appendPending_ne_panic {w : World} (hw : w.HasRoom) (e : Engine α σ) (command : Message)
    (p : Payload α) (options : Options) (q : Panic) :
    (e.appendPending command p options w).1 ≠ .error (.panic q) := by
  rw [appendPending_eq]
  refine World.append_ne_panic hw e.registry ?_ command.origin p q
  intro id v h hmin
  unfold Payload.slot at h
  split at h
  · cases h
  · cases h
    have hpos := options.version_pos
    rw [hmin, Int32.toInt_minValue] at hpos
    omega

/-- The context that a command is finalized with. -/
def outcome (e : Engine α σ) (command : Message) (w : World) : Except Panic (Context α) × World :=
  match e.hydrate command (w.count .commandsHandled) with
  | (.error p, w) => (.error p, w)
  | (.ok readiness, w) => ((.ok (e.execute readiness w).1), (e.execute readiness w).2)

theorem handle_eq (e : Engine α σ) (command : Message) (w : World) :
    e.handle command w =
      match e.outcome command w with
      | (.error p, w) => (.error p, w)
      | (.ok c, w) =>
        match e.finalize command c w with
        | (.error p, w) => (.error p, w)
        | (.ok event, w) => (.ok event, ((w.enter .appended).publish event).count .commandsTimed) := by
  unfold handle outcome
  rcases e.hydrate command (w.count .commandsHandled) with ⟨p | readiness, w'⟩
  · rfl
  · rfl

theorem handle_of_firstAppend {e : Engine α σ} {command m : Message} {w w₁ : World} {c : Context α}
    (ho : e.outcome command w = (.ok c, w₁)) (h : (e.firstAppend command c w₁).1 = .ok m) :
    e.handle command w =
      (.ok m, (((e.firstAppend command c w₁).2.enter .appended).publish m).count .commandsTimed) := by
  rw [handle_eq, ho]
  dsimp only
  rw [finalize_eq]
  rcases hfirst : e.firstAppend command c w₁ with ⟨fault | m', w₂⟩
  · rw [hfirst] at h
    cases h
  · rw [hfirst] at h
    cases h
    rfl

omit [Content α] in
theorem execute_snd (e : Engine α σ) (h : Handler α σ) (i : Invocation α σ) (next : Int32)
    (w : World) :
    (e.execute (.ready h i next) w).2 =
      ((h.run i).run e.reporter (.start i.header.id next w.reports) (w.enter .executing)).world := by
  unfold execute
  dsimp only
  split
  · rfl
  · rfl

omit [Content α] in
/-- A quiet handler leaves the world as it finds it. -/
theorem onlyReads_execute {e : Engine α σ} {h : Handler α σ} {i : Invocation α σ}
    (hq : (h.run i).Quiet) (next : Int32) (w : World) :
    w.OnlyReads (e.execute (.ready h i next) w).2 := by
  rw [execute_snd, hq.run_world]
  exact (World.OnlyReads.refl w).enter .executing

/-- With a hydration the handler is executed; without one an error is pending. -/
theorem outcome_cases (e : Engine α σ) (command : Message) (w : World) :
    ∃ w', w.OnlyReads w' ∧
      ((∃ x next, e.Hydrates command w x ∧
          nextVersion? (Int32.ofNat x.events.length) = some next ∧
          e.outcome command w =
            (.ok (e.execute (.ready x.task.handler (x.invocation e command) next) w').1,
              (e.execute (.ready x.task.handler (x.invocation e command) next) w').2)) ∨
        (¬ e.Overflows command w ∧ (∀ x, ¬ e.Hydrates command w x) ∧
          ∃ text, e.outcome command w =
            (.ok ((Context.start 0 1 w'.reports).error e.reporter text), w')) ∨
        (e.Overflows command w ∧ e.outcome command w = (.error .addOverflow, w'))) := by
  have hread := ((World.OnlyReads.refl w).count .commandsHandled).trans
    (e.onlyReads_hydrate command _)
  have hcases := e.hydrate_cases command (w.count .commandsHandled)
  simp only [hydrates_count, overflows_count] at hcases
  refine ⟨_, hread, ?_⟩
  unfold outcome
  generalize e.hydrate command (w.count .commandsHandled) = run at hcases ⊢
  obtain ⟨result, w'⟩ := run
  dsimp only at hcases
  rcases hcases with ⟨x, next, hx, hn, rfl⟩ | ⟨ho, hnone, text, rfl⟩ | ⟨ho, rfl⟩
  · exact .inl ⟨x, next, hx, hn, rfl⟩
  · exact .inr (.inl ⟨ho, hnone, text, rfl⟩)
  · exact .inr (.inr ⟨ho, rfl⟩)

theorem onlyReads_outcome {e : Engine α σ} (hq : e.wiring.Quiet) (command : Message) (w : World) :
    w.OnlyReads (e.outcome command w).2 := by
  obtain ⟨w', hread, ⟨x, next, hx, -, h⟩ | ⟨-, -, text, h⟩ | ⟨-, h⟩⟩ := e.outcome_cases command w
  · rw [h]
    exact hread.trans (onlyReads_execute (hq _ _ hx.accepts.handler _) next w')
  · rw [h]
    exact hread
  · rw [h]
    exact hread

theorem exists_outcome {e : Engine α σ} {command : Message} {w : World}
    (hw : ¬ e.Overflows command w) : ∃ c, (e.outcome command w).1 = .ok c := by
  obtain ⟨w', -, ⟨x, next, -, -, h⟩ | ⟨-, -, text, h⟩ | ⟨ho, -⟩⟩ := e.outcome_cases command w
  · exact ⟨_, congrArg Prod.fst h⟩
  · exact ⟨_, congrArg Prod.fst h⟩
  · exact absurd ho hw

theorem not_overflows {e : Engine α σ} {command : Message} {w : World} (hw : w.HasRoom) :
    ¬ e.Overflows command w := by
  rintro ⟨task, events, -, hr, hmax⟩
  rw [World.eq_view_of_mem_answers hr] at hmax
  exact hw.histories _ hmax

variable {w : World}

theorem firstAppend_cases (e : Engine α σ) (command : Message) (c : Context α) (w : World) :
    (∃ m w', e.firstAppend command c w = (.ok m, w') ∧ w.store.Appends e.registry m w'.store ∧
        w'.publisher = w.publisher ∧ m.origin = command.origin) ∨
      ∃ fault w', e.firstAppend command c w = (.error fault, w') ∧ w'.store = w.store ∧
        w'.publisher = w.publisher ∧ w'.outage.view = w.outage.view := by
  have hread := e.onlyReads_closing c w
  have hs : (e.closing c w).store = w.store := hread.store
  unfold firstAppend
  rcases e.appendPending_cases command (e.proposal c).1 (e.proposal c).2 (e.closing c w) with
    ⟨m, w', h, happends, hpub, horigin⟩ | ⟨fault, h⟩
  · rw [hs] at happends
    exact .inl ⟨m, w', h, happends, hpub.trans hread.publisher, horigin⟩
  · exact .inr ⟨fault, _, h, hs, hread.publisher, hread.view⟩

theorem firstAppend_ne_panic (e : Engine α σ) (command : Message) (hw : w.HasRoom) (c : Context α)
    (q : Panic) :
    (e.firstAppend command c w).1 ≠ .error (.panic q) := by
  have hr := e.onlyReads_closing c w
  exact appendPending_ne_panic (hw.of_eq hr.store hr.view) e command _ _ q

theorem secondAppend_cases (e : Engine α σ) (command : Message) (refusal : StoreError) (w : World) :
    (∃ m w', e.secondAppend command refusal w = (.ok m, w') ∧
        w.store.Appends e.registry m w'.store ∧ w'.publisher = w.publisher ∧
        m.origin = command.origin) ∨
      ∃ fault w', e.secondAppend command refusal w = (.error fault, w') ∧ w'.store = w.store ∧
        w'.publisher = w.publisher := by
  unfold secondAppend
  rcases e.appendPending_cases command _ _ { w.count .appendRetries with reports := w.reports + 1 } with
    ⟨m, w', h, happends, hpub, horigin⟩ | ⟨fault, h⟩
  · exact .inl ⟨m, w', h, happends, hpub, horigin⟩
  · exact .inr ⟨fault, _, h, rfl, rfl⟩

theorem secondAppend_ne_panic (e : Engine α σ) (command : Message) (hw : w.HasRoom)
    (refusal : StoreError) (q : Panic) :
    (e.secondAppend command refusal w).1 ≠ .error (.panic q) := by
  have hroom : { w.count .appendRetries with reports := w.reports + 1 }.HasRoom := hw.of_eq rfl rfl
  exact appendPending_ne_panic hroom e command _ _ q

end Engine
end EventSourcing
