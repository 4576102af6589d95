import EventSourcing.Proofs.Engine.Gains
import EventSourcing.Proofs.Engine.Plain
import EventSourcing.Proofs.Engine.Wired

/-! What a command does outside the system domain. If handlers are plain and the command has no key,
the command either adds nothing there or what its handler has published, to the aggregate that it
addresses (`Contributes`). Which of the two, and which event, follows from the events of that
aggregate alone, their times left out. -/

namespace EventSourcing

def Message.untimed (m : Message) : Message := { m with timestamp := 0 }

variable {α σ : Type}

namespace Engine

/-- If the engine takes the command on, its payload has no key. -/
def Unkeyed [Content α] (e : Engine α σ) (command : Message) : Prop :=
  ∀ task, e.Accepts command task → task.payload.key = none

/-- Handlers keep to their domains, and reports go to the system domain. -/
structure SelfContained [Content α] (e : Engine α σ) : Prop where
  registry : e.registry.Built
  reports : ∀ n text, e.registry.Assigns (e.reporter.event n text).1 (textHash32 systemUri)
  handlers : ∀ domain h, e.wiring.handlers.get? domain = some h →
    ∀ i, (h.run i).Plain e.registry domain

end Engine

namespace Store

variable {s t : Store} {k : AggregateKey}

/-- Up to their times, the events of an aggregate are the same in both stores. -/
def AgreeAt (k : AggregateKey) (s t : Store) : Prop :=
  (s.stream k).map Message.untimed = (t.stream k).map Message.untimed

theorem AgreeAt.symm (h : s.AgreeAt k t) : t.AgreeAt k s := Eq.symm h

theorem AgreeAt.currentVersion_eq (h : s.AgreeAt k t) :
    s.currentVersion k = t.currentVersion k := by
  have hlast : ∀ u : Store, u.currentVersion k =
      (((u.stream k).map Message.untimed).getLast?.map Message.version).getD 0 := by
    intro u
    rw [List.getLast?_map, Option.map_map]
    rfl
  rw [hlast s, hlast t, h]

theorem AgreeAt.events (h : s.AgreeAt k t) (first : Int32) :
    (s.events k first).map Message.untimed = (t.events k first).map Message.untimed := by
  have hfilter : ∀ u : Store, (u.events k first).map Message.untimed =
      ((u.stream k).map Message.untimed).filter (first ≤ ·.version) := by
    intro u
    rw [List.filter_map]
    rfl
  rw [hfilter s, hfilter t, h]

variable [Content α]

theorem assigns_of_appendTo {s' : Store} {r : Registry α σ} {now : Int64} {origin : List Record}
    {p : Payload α} {slot : Slot} {m : Message} (h : s.appendTo r now origin p slot = (.ok m, s')) :
    r.Assigns p m.domain := by
  cases slot with
  | version id v => exact (append_eq_ok_iff.1 h).1.assigns
  | key key =>
    obtain ⟨-, v, hmake, -⟩ := appendKeyed_eq_ok_iff.1 h
    exact hmake.assigns

end Store

theorem Domain.mapM_decodeEvent_untimed (d : Domain α σ) (events : List Message) :
    (events.map Message.untimed).mapM d.decodeEvent = events.mapM d.decodeEvent := by
  rw [List.mapM_map]
  rfl

variable [Content α]

theorem Registry.Makes.restamp {r : Registry α σ} {id now : Int64} {v : Int32}
    {origin : List Record} {p : Payload α} {m : Message} (h : r.Makes id v now origin p m)
    (now' : Int64) : r.Makes id v now' origin p { m with timestamp := now' } := by
  obtain ⟨d, t, data, hl, hp, rfl⟩ := h
  exact ⟨d, t, data, hl, hp, rfl⟩

namespace World

variable {w w' : World} {r : Registry α σ} {origin : List Record} {p : Payload α} {m : Message}

theorem exists_appendTo_of_append {slot : Slot} (h : (w.append r slot origin p).1 = .ok m) :
    ∃ s, w.store.appendTo r w.now.1 origin p slot = (.ok m, s) := by
  rw [append_eq] at h
  split at h
  · cases h
  · split at h
    · next m' s ha =>
      cases h
      exact ⟨s, ha⟩
    · cases h

theorem append_of_outage_none (hw : w.outage = .none) {slot : Slot} {s : Store}
    (h : w.store.appendTo r w.now.1 origin p slot = (.ok m, s)) :
    (w.append r slot origin p).1 = .ok m := by
  rw [append_eq, hw]
  dsimp only [Outage.none, List.head?_nil]
  rw [h]

end World

namespace Engine

variable {e : Engine α σ} {command m : Message} {w v : World}

theorem SelfContained.quiet (he : e.SelfContained) : e.wiring.Quiet :=
  fun domain h hh i => (he.handlers domain h hh i).quiet

/-- It is enough that the handlers wired are plain. -/
theorem SelfContained.of_build {steps : List (WiringStep α σ)} {ids : Nat → Int64}
    (hr : e.registry.Built) (hw : Wiring.build e.registry steps = .ok e.wiring)
    (hreporter : e.reporter = .standard ids)
    (hsteps : ∀ uri h d, .handler uri h ∈ steps → e.registry.domainByUri uri = some d →
      ∀ i, (h.run i).Plain e.registry d.shortId) : e.SelfContained where
  registry := hr
  reports n text := by
    rw [hreporter]
    exact hr.assigns_system rfl
  handlers domain h hh i := by
    obtain ⟨uri, d, hstep, hd, rfl⟩ := Wiring.wiredBy_of_build hw domain h hh
    rcases List.mem_cons.1 hstep with hsystem | hstep
    · cases hsystem
      exact plain_systemHandler hd i
    · exact hsteps uri h d hstep hd i

section Appends

theorem assigns_of_appendPending {p : Payload α} {options : Options}
    (h : (e.appendPending command p options w).1 = .ok m) : e.registry.Assigns p m.domain := by
  rw [appendPending_eq] at h
  obtain ⟨s, hs⟩ := World.exists_appendTo_of_append h
  exact Store.assigns_of_appendTo hs

theorem domain_of_secondAppend (he : e.SelfContained) {refusal : StoreError}
    (h : (e.secondAppend command refusal w).1 = .ok m) : m.domain = textHash32 systemUri :=
  (assigns_of_appendPending h).unique (he.reports _ _)

theorem domain_of_firstAppend (he : e.SelfContained) {c : Context α}
    (hc : c.pending = none ∨ c.Failed e.registry) (h : (e.firstAppend command c w).1 = .ok m) :
    m.domain = textHash32 systemUri := by
  have hp := assigns_of_appendPending h
  unfold proposal at hp
  rcases hc with hc | ⟨p, hc, hsystem⟩
  · rw [hc] at hp
    exact hp.unique (he.reports _ _)
  · rw [hc] at hp
    exact hp.unique hsystem

/-- An event outside the system domain is one that was taken at the first attempt. -/
theorem exists_firstAppend_of_handle (he : e.SelfContained) (h : (e.handle command w).1 = .ok m)
    (hm : m.domain ≠ textHash32 systemUri) :
    ∃ c w₁, e.outcome command w = (.ok c, w₁) ∧ (e.firstAppend command c w₁).1 = .ok m := by
  rw [handle_eq] at h
  rcases ho : e.outcome command w with ⟨q | c, w₁⟩
  · rw [ho] at h
    cases h
  rw [ho] at h
  dsimp only at h
  rw [finalize_eq] at h
  refine ⟨c, w₁, rfl, ?_⟩
  rcases hfirst : e.firstAppend command c w₁ with ⟨(refusal | q) | m', w₂⟩
  · rw [hfirst] at h
    dsimp only at h
    rcases hsecond : e.secondAppend command refusal w₂ with ⟨(refusal' | q) | m', w₃⟩
    · rw [hsecond] at h
      cases h
    · rw [hsecond] at h
      cases h
    · rw [hsecond] at h
      cases h
      exact absurd (domain_of_secondAppend he (congrArg Prod.fst hsecond)) hm
  · rw [hfirst] at h
    cases h
  · rw [hfirst] at h
    cases h
    rfl

end Appends

/-- The context that the handler of a hydrated command ends with, if `n` reports were made before. -/
def settled (e : Engine α σ) (command : Message) (x : Hydration α σ) (next : Int32) (n : Nat)
    (w : World) : Context α :=
  (x.task.handler.run (x.invocation e command)).settle e.reporter
    (.start (x.task.target command) next n) w

/-- The handler of the command publishes the event `m` for the aggregate that the command addresses,
and `m` follows the events there. -/
inductive Contributes (e : Engine α σ) (command : Message) (w : World) (m : Message) : Prop
  | intro {x : Hydration α σ} {next : Int32} {p : Payload α} {now : Int64} (n : Nat) (w' : World)
      (hydrates : e.Hydrates command w x)
      (next_eq : nextVersion? (Int32.ofNat x.events.length) = some next)
      (pending : (e.settled command x next n w').pending = some p)
      (makes : e.registry.Makes command.id (Options.new command.id next 0).version now
        command.origin p m)
      (key : m.aggregateKey = command.aggregateKey)
      (outside : m.domain ≠ textHash32 systemUri)
      (follows : previousVersion? (Options.new command.id next 0).version =
        some (w.store.currentVersion command.aggregateKey))

section Outcome

variable {x : Hydration α σ}

theorem Hydrates.aggregateKey_eq (he : e.SelfContained) (hkey : e.Unkeyed command)
    (hx : e.Hydrates command w x) :
    x.task.target command = command.id ∧ x.task.aggregateKey command = command.aggregateKey := by
  have htarget : x.task.target command = command.id := by
    unfold Task.target
    rw [hkey x.task hx.accepts]
  refine ⟨htarget, ?_⟩
  unfold Task.aggregateKey Message.aggregateKey
  rw [htarget, (he.registry.filed _ _ hx.accepts.domain).1]

theorem Hydrates.plain (he : e.SelfContained) (hx : e.Hydrates command w x) :
    (x.task.handler.run (x.invocation e command)).Plain e.registry command.domain := by
  have hh := hx.accepts.handler
  rw [(he.registry.filed _ _ hx.accepts.domain).1] at hh
  exact he.handlers _ _ hh _

theorem Hydrates.confined (he : e.SelfContained) (hkey : e.Unkeyed command)
    (hx : e.Hydrates command w x) (next : Int32) (n : Nat) (w' : World) :
    (e.settled command x next n w').Confined e.registry command.domain
      (.new command.id next 0) := by
  rw [← (hx.aggregateKey_eq he hkey).1]
  exact (hx.plain he).confined_settle he.reports _ _ n w'

theorem Hydrates.alike (he : e.SelfContained) (hx : e.Hydrates command w x) (next : Int32)
    (n n' : Nat) (w₁ w₂ : World) :
    (e.settled command x next n w₁).Alike e.registry (e.settled command x next n' w₂) :=
  (hx.plain he).alike_settle he.reports (.inl rfl) w₁ w₂

/-- A command is settled by its handler, or a report is pending. -/
theorem outcome_settled (e : Engine α σ) (command : Message) (w : World) :
    (∃ x next n w', e.Hydrates command w x ∧
        nextVersion? (Int32.ofNat x.events.length) = some next ∧
        (e.outcome command w).1 = .ok (e.settled command x next n w')) ∨
      ∀ c, (e.outcome command w).1 = .ok c →
        ∃ n text, c.pending = some (e.reporter.event n text).1 := by
  obtain ⟨w', -, ⟨x, next, hx, hn, h⟩ | ⟨-, -, text, h⟩ | ⟨-, h⟩⟩ := e.outcome_cases command w
  · rw [h, execute_ready]
    exact .inl ⟨x, next, w'.reports, _, hx, hn, rfl⟩
  · rw [h]
    refine .inr ?_
    intro c hc
    cases hc
    exact ⟨w'.reports, text, rfl⟩
  · rw [h]
    exact .inr nofun

theorem outcome_of_hydrates {next : Int32} (hx : e.Hydrates command w x)
    (hn : nextVersion? (Int32.ofNat x.events.length) = some next) :
    ∃ w', (e.outcome command w).1 = .ok (e.settled command x next w.reports w') := by
  obtain ⟨w', hread, ⟨y, next', hy, hn', h⟩ | ⟨-, hnone, -⟩ | ⟨ho, -⟩⟩ := e.outcome_cases command w
  · obtain rfl := hx.unique hy
    obtain rfl := Option.some.inj (hn.symm.trans hn')
    rw [h, execute_ready, hread.reports]
    exact ⟨_, rfl⟩
  · exact absurd hx (hnone x)
  · rw [overflows_iff hx.accepts hx.reads, ← nextVersion?_eq_none_iff, hn] at ho
    cases ho

end Outcome

/-- Where an event goes whose options name an aggregate without a key. -/
theorem firstAppend_eq_append {c : Context α} {p : Payload α} (hc : c.pending = some p)
    (hkey : p.key = none) {next : Int32} (hoptions : c.options = .new command.id next 0)
    (w : World) :
    e.firstAppend command c w =
      (e.closing c w).append e.registry
        (.version command.id (Options.new command.id next 0).version) command.origin p := by
  have hproposal : e.proposal c = (p, .new command.id next 0) := by
    unfold proposal
    rw [hc, hoptions]
  unfold firstAppend
  rw [hproposal, appendPending_eq]
  unfold Payload.slot
  rw [hkey]
  dsimp only
  rw [Options.resolvedId_new]

/-- Outside the system domain an event answered is the handler's. -/
theorem contributes_of_handle (he : e.SelfContained) (hkey : e.Unkeyed command)
    (h : (e.handle command w).1 = .ok m) (hm : m.domain ≠ textHash32 systemUri) :
    e.Contributes command w m := by
  obtain ⟨c, w₁, ho, hfirst⟩ := exists_firstAppend_of_handle he h hm
  have hread := onlyReads_outcome he.quiet command w
  rw [ho] at hread
  have hwhole : ¬ (c.pending = none ∨ c.Failed e.registry) :=
    fun hc => hm (domain_of_firstAppend he hc hfirst)
  rcases e.outcome_settled command w with ⟨x, next, n, w', hx, hn, hsettled⟩ | hfailed
  · rw [ho] at hsettled
    obtain rfl := Except.ok.inj hsettled
    have hconfined := hx.confined he hkey next n w'
    cases hp : (e.settled command x next n w').pending with
    | none => exact absurd (.inl hp) hwhole
    | some p =>
      rcases hconfined.pending p hp with ⟨hpkey, hassigns, hoptions⟩ | hsystem
      · rw [firstAppend_eq_append hp hpkey hoptions] at hfirst
        obtain ⟨s, hs⟩ := World.exists_appendTo_of_append hfirst
        obtain ⟨hmake, hfollows, -⟩ := Store.append_eq_ok_iff.1 hs
        have hkeys : m.aggregateKey = command.aggregateKey := by
          show (⟨m.domain, m.aggregateKey.id⟩ : AggregateKey) = ⟨command.domain, command.id⟩
          rw [hmake.assigns.unique hassigns, hmake.id_eq]
        rw [hkeys, (e.onlyReads_closing _ w₁).store] at hfollows
        rw [show w₁.store = w.store from hread.store] at hfollows
        exact ⟨n, w', hx, hn, hp, hmake, hkeys, hm, hfollows⟩
      · exact absurd (.inr ⟨p, hp, hsystem⟩) hwhole
  · rw [ho] at hfailed
    obtain ⟨n, text, hp⟩ := hfailed c rfl
    exact absurd (.inr ⟨_, hp, he.reports n text⟩) hwhole

/-- Without an outage the event that the handler publishes is appended, at some time. -/
theorem exists_handle_of_contributes (he : e.SelfContained) (hkey : e.Unkeyed command)
    (hw : w.outage = .none) (h : e.Contributes command w m) :
    ∃ now, (e.handle command w).1 = .ok { m with timestamp := now } := by
  obtain @⟨x, next, p, now, n, w', hx, hn, hp, hmake, hkeys, hm, hfollows⟩ := h
  obtain ⟨w'₁, hsettled⟩ := outcome_of_hydrates hx hn
  have hread := onlyReads_outcome he.quiet command w
  rcases ho : e.outcome command w with ⟨result, w₁⟩
  rw [ho] at hsettled hread
  obtain rfl : result = _ := hsettled
  have howned : ¬ e.registry.Assigns p (textHash32 systemUri) :=
    fun hsystem => hm (hmake.assigns.unique hsystem)
  -- As the event is no report, it is pending in this run as well, with the same options.
  have hsame : e.settled command x next w.reports w'₁ =
      { e.settled command x next n w' with
        reports := (e.settled command x next w.reports w'₁).reports } := by
    rcases hx.alike he next n w.reports w' w'₁ with hsame | ⟨⟨p', hp', hsystem⟩, -⟩
    · exact hsame
    · rw [hp] at hp'
      cases hp'
      exact absurd hsystem howned
  have hp₁ : (e.settled command x next w.reports w'₁).pending = some p := by
    rw [hsame]
    exact hp
  rcases (hx.confined he hkey next w.reports w'₁).pending p hp₁ with
    ⟨hpkey, -, hoptions⟩ | hsystem
  case inr => exact absurd hsystem howned
  refine ⟨(e.closing (e.settled command x next w.reports w'₁) w₁).now.1, congrArg Prod.fst (handle_of_firstAppend ho ?_)⟩
  rw [firstAppend_eq_append hp₁ hpkey hoptions]
  have hclosing := e.onlyReads_closing (e.settled command x next w.reports w'₁) w₁
  refine World.append_of_outage_none (hclosing.outage_none (hread.outage_none hw))
    (Store.append_eq_ok_iff.2 ⟨hmake.restamp _, ?_, rfl⟩)
  show _ = some (Store.currentVersion _ m.aggregateKey)
  rw [hkeys, hfollows, hclosing.store, ← hread.store]

/-- Two stores that agree at the aggregate of a command hydrate it to the same invocation. -/
theorem Hydrates.congr (he : e.SelfContained) (hkey : e.Unkeyed command)
    (hw : w.outage = .none) (hv : v.outage = .none)
    (hagree : w.store.AgreeAt command.aggregateKey v.store) {x : Hydration α σ}
    (hx : e.Hydrates command w x) :
    ∃ y, e.Hydrates command v y ∧ y.task = x.task ∧ y.events.length = x.events.length ∧
      y.invocation e command = x.invocation e command := by
  obtain ⟨htarget, hk⟩ := hx.aggregateKey_eq he hkey
  have hevents : (v.store.events command.aggregateKey 0).map Message.untimed =
      x.events.map Message.untimed := by
    rw [hx.events_eq, hw, hk]
    exact hagree.symm.events 0
  have hlength : (v.store.events command.aggregateKey 0).length = x.events.length := by
    rw [← List.length_map, hevents, List.length_map]
  have haddress : x.task.address command = .id command.id := by
    unfold Task.address Address.of
    rw [hkey x.task hx.accepts]
  refine ⟨⟨x.task, v.store.events command.aggregateKey 0, x.decoded⟩, ⟨hx.accepts, ?_, ?_⟩, rfl,
    hlength, ?_⟩
  · have hread := World.mem_answers_of_outage_none hv x.task.domain.shortId command.id
    rw [haddress, ← hk, Task.aggregateKey, htarget]
    exact hread
  · rw [← Domain.mapM_decodeEvent_eq_ok_iff, ← Domain.mapM_decodeEvent_untimed, hevents,
      Domain.mapM_decodeEvent_untimed]
    exact hx.mapM_decodeEvent
  · unfold Hydration.invocation Hydration.header
    rw [hlength]

/-- What a command contributes follows from the events of its aggregate. -/
theorem Contributes.congr (he : e.SelfContained) (hkey : e.Unkeyed command)
    (hw : w.outage = .none) (hv : v.outage = .none)
    (hagree : w.store.AgreeAt command.aggregateKey v.store) (h : e.Contributes command w m) :
    e.Contributes command v m := by
  obtain @⟨x, next, p, now, n, w', hx, hn, hp, hmake, hkeys, hm, hfollows⟩ := h
  obtain ⟨y, hy, htask, hlength, hinvocation⟩ := hx.congr he hkey hw hv hagree
  refine ⟨n, w', hy, ?_, ?_, hmake, hkeys, hm, ?_⟩
  · rw [hlength, hn]
  · unfold settled
    rw [hinvocation, htask]
    exact hp
  · rw [hfollows, hagree.currentVersion_eq]

end Engine
end EventSourcing
