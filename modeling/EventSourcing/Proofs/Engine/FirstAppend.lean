import EventSourcing.Proofs.Engine.ExactlyOnce
import EventSourcing.Proofs.Engine.Pending
import EventSourcing.Proofs.Engine.Readable
import EventSourcing.Proofs.Store.Contiguous

/-! Stores that are reached by handling commands, and what this says about a handler's event. The
engine numbers an event by the length of the history that it has read, the store by the last version
it holds. In a store reached without deleting single events the two agree, and the event that a
handler publishes for its own aggregate is appended at the first attempt. -/

namespace EventSourcing

theorem Options.resolvedId_new (id : Int64) (v : Int32) (t : Int64) :
    (Options.new id v t).resolvedId = id := by
  unfold resolvedId new
  by_cases h : id = 0
  · simp [h]
  · simp [h]

theorem Options.version_new {v : Int32} (h : 1 ≤ v.toInt) (id t : Int64) :
    (Options.new id v t).version = v := by
  have hv : ¬ v < 1 := by
    rw [Int32.lt_iff_toInt_lt, Int32.toInt_one]
    omega
  exact if_neg hv

theorem Store.checkKey_of_history {s : Store} {domain : Int32} {key : String}
    {events : List Message} (h : s.history domain (.key key) = .ok events) :
    s.checkKey ⟨domain, textHash key⟩ key = .ok () := by
  unfold history keyedEvents at h
  dsimp only at h
  split at h
  · cases h
  · obtain ⟨⟨⟩, hc, -⟩ := bind_eq_ok_iff.1 h
    exact hc

variable {α σ : Type}

namespace Script

def calls (r : Reporter α) : Script α → Context α → List (Call α)
  | .done, _ => []
  | .panic _, _ => []
  | .call k rest, c => k :: rest.calls r (c.call r k)
  | .look next, c => (next c).calls r c
  | .meanwhile _ rest, c => rest.calls r c

theorem run_context (s : Script α) (r : Reporter α) (c : Context α) (w : World) :
    (s.run r c w).context = (s.calls r c).foldl (fun c k => c.call r k) c := by
  induction s generalizing c w with
  | done => rfl
  | panic p => rfl
  | call k rest ih => exact ih (c.call r k) w
  | look next ih => exact ih c c w
  | meanwhile act rest ih => exact ih c (act w)

end Script

namespace Context

variable {r : Reporter α} {c : Context α}

/-- The first effective call decides what is pending, if no error is forced. -/
theorem foldl_call_publish (hc : c.pending = none) {before after : List (Call α)} {p : Payload α}
    {modifiers : List Modifier} (hb : ∀ k ∈ before, ∃ text, k = .assert true text)
    (hk : ∀ text, .forceError text ∉ before ++ .publish p modifiers :: after) :
    (before ++ .publish p modifiers :: after).foldl (fun c k => c.call r k) c =
      { c with options := c.options.apply modifiers, pending := some p } := by
  apply foldl_call_of_publishes hc
  refine .first nofun ?_ ?_
  · exact fun k hm => Call.not_effective_iff.2 (hb k hm)
  · exact fun text hm => hk text (List.mem_append_right before hm)

end Context

variable [Content α]

theorem Payload.key_ne_empty {p : Payload α} {key : String} (h : p.key = some key) : key ≠ "" := by
  cases p with
  | raiseError e => cases h
  | errorRaised e => cases h
  | custom c => exact of_decide_eq_true (Option.filter_eq_some_iff.1 h).2

def Hydration.calls (x : Hydration α σ) (e : Engine α σ) (command : Message) (w : World) :
    List (Call α) :=
  (x.task.handler.run (x.invocation e command)).calls e.reporter
    (.start (x.header e command).id ((x.header e command).version + 1) w.reports)

/-- The handler publishes the event `p` of its domain, for the aggregate of its command, before any
other call takes effect. -/
structure Hydration.Publishes (x : Hydration α σ) (e : Engine α σ) (command : Message) (w : World)
    (p : Payload α) (type : MessageType α) (data : Bytes) : Prop where
  calls : ∃ before modifiers after,
    x.calls e command w = before ++ .publish p modifiers :: after ∧
    (∀ k ∈ before, ∃ text, k = .assert true text) ∧
    ((p.key = none ∧ modifiers = []) ∨ ∃ key, p.key = some key ∧ x.task.payload.key = some key)
  unforced : ∀ text, .forceError text ∉ x.calls e command w
  listed : e.registry.Lists p x.task.domain type
  encodes : p.encode = .ok data

/-- The store shows what it holds, and does not refuse the next append by itself. -/
structure World.Serves (w : World) : Prop where
  view : w.outage.view = id
  append : ∀ refusal, w.outage.appends.head? ≠ some (some refusal)

theorem World.serves_serving (s : Store) : (serving s).Serves := ⟨rfl, fun _ h => nomatch h⟩

/-- A store that is reached from the empty one without deleting single events. -/
inductive Store.Reached (r : Registry α σ) : Store → Prop
  | empty : Reached r .empty
  | performed {s : Store} (h : Reached r s) {op : Operation α}
      (hop : ∀ k v, op ≠ .deleteEvent k v) : Reached r (s.perform r op)
  | handled {e : Engine α σ} {w : World} (h : Reached r w.store) (hr : e.registry = r)
      (hq : e.wiring.Quiet) (command : Message) : Reached r (e.handle command w).2.store

theorem Store.Reached.contiguous {r : Registry α σ} {s : Store} (h : s.Reached r) :
    s.Contiguous := by
  induction h with
  | empty => exact contiguous_empty
  | performed _ hop ih => exact ih.perform hop
  | handled _ _ hq command ih =>
    rcases Engine.handle_cases hq command _ with ⟨m, w', h, happends, -⟩ | ⟨p, w', h, hs, -⟩
    · rw [h]
      exact ih.appends happends
    · rw [h, hs]
      exact ih

/-- What a handler's event becomes when it is appended next. -/
def Hydration.event (x : Hydration α σ) (e : Engine α σ) (command : Message) (now : Int64)
    (type : MessageType α) (data : Bytes) : Message where
  header := { x.header e command with version := (x.header e command).version + 1 }
  origin := command.origin
  timestamp := now
  typeId := type.typeId
  data := data

theorem Task.target_of_key {task : Task α σ} {key : String} (h : task.payload.key = some key)
    (command : Message) : task.target command = textHash key := by
  unfold Task.target
  rw [h]

namespace Engine

variable {e : Engine α σ} {command : Message} {w : World} {x : Hydration α σ} {p : Payload α}
  {type : MessageType α} {data : Bytes}

/-- The key of a command whose history was read is bound to its aggregate or not at all. -/
theorem Hydrates.checkKey (hx : e.Hydrates command w x) {key : String}
    (hk : x.task.payload.key = some key) :
    w.store.checkKey (x.task.aggregateKey command) key = .ok () := by
  have ha : x.task.address command = .key key := by
    unfold Task.address Address.of
    rw [hk]
  have hr := World.map_view_of_mem_answers hx.reads
  rw [ha] at hr
  unfold Task.aggregateKey
  rw [Task.target_of_key hk]
  cases hh : w.store.history x.task.domain.shortId (.key key) with
  | error error =>
    rw [hh] at hr
    cases hr
  | ok events => exact Store.checkKey_of_history hh

omit [Content α] in
/-- A handler that has published keeps its context, even if it panics in the end. -/
theorem execute_fst {h : Handler α σ} {i : Invocation α σ} {next : Int32} {c : Context α}
    (hc : c.pending = some p)
    (hrun : ((h.run i).run e.reporter (.start i.header.id next w.reports)
      (w.enter .executing)).context = c) :
    (e.execute (.ready h i next) w).1 = c := by
  subst hrun
  unfold execute
  dsimp only
  split
  · rfl
  · refine if_pos ?_
    unfold Context.hasPublished
    rw [hc]
    rfl

section

variable (hx : e.Hydrates command w x) (hs : w.store.Contiguous) (hv : w.outage.view = id)
  (hlen : (w.store.stream (x.task.aggregateKey command)).length < Int32.maxValue.toInt)

include hx hs hv hlen

/-- The version that the engine has counted is the one that the store holds. -/
theorem toInt_version :
    (x.header e command).version.toInt = (w.store.stream (x.task.aggregateKey command)).length := by
  show (Int32.ofNat x.events.length).toInt = _
  rw [Int32.toInt_maxValue] at hlen
  rw [hx.events_eq, hv, hs.events_eq, id_eq]
  exact Int32.toInt_ofNat_of_lt (by omega)

theorem nextVersion?_version :
    nextVersion? (x.header e command).version = some ((x.header e command).version + 1) := by
  refine if_neg ?_
  intro hmax
  have hn := toInt_version hx hs hv hlen
  rw [hmax] at hn
  omega

theorem toInt_version_add_one :
    ((x.header e command).version + 1).toInt =
      (w.store.stream (x.task.aggregateKey command)).length + 1 := by
  rw [nextVersion?_eq_some_iff.1 (nextVersion?_version hx hs hv hlen),
    toInt_version hx hs hv hlen]

/-- The store takes the event at the version after the history, by id and by key. -/
theorem exists_appendTo (hl : e.registry.Lists p x.task.domain type) (hp : p.encode = .ok data)
    {options : Options}
    (ha : (p.key = none ∧
        options = .new (x.header e command).id ((x.header e command).version + 1) 0) ∨
      ∃ key, p.key = some key ∧ x.task.payload.key = some key) (now : Int64) :
    ∃ store, w.store.appendTo e.registry now command.origin p (p.slot options) =
      (.ok (x.event e command now type data), store) := by
  have hn := toInt_version_add_one hx hs hv hlen
  have hmake : e.registry.Makes (x.task.target command) ((x.header e command).version + 1) now
      command.origin p (x.event e command now type data) :=
    ⟨x.task.domain, type, data, hl, hp, rfl⟩
  have hfollows : previousVersion? ((x.header e command).version + 1) =
      some (w.store.currentVersion (x.task.aggregateKey command)) := by
    rw [previousVersion?_eq_some_iff, hs.toInt_currentVersion, hn]
  unfold Payload.slot
  rcases ha with ⟨hk, rfl⟩ | ⟨key, hk, hxk⟩
  · rw [hk]
    dsimp only
    rw [Options.resolvedId_new, Options.version_new (by omega)]
    exact ⟨_, Store.append_eq_ok_iff.2 ⟨hmake, hfollows, rfl⟩⟩
  · rw [hk]
    rw [Task.target_of_key hxk] at hmake
    exact ⟨_, Store.appendKeyed_eq_ok_iff.2
      ⟨Payload.key_ne_empty hk, _, hmake, hx.checkKey hxk, hfollows, rfl⟩⟩

theorem outcome_of_publishes (hq : e.wiring.Quiet) (hp : x.Publishes e command w p type data) :
    ∃ c w', e.outcome command w = (.ok c, w') ∧ w.OnlyReads w' ∧ c.pending = some p ∧
      ((p.key = none ∧
          c.options = .new (x.header e command).id ((x.header e command).version + 1) 0) ∨
        ∃ key, p.key = some key ∧ x.task.payload.key = some key) := by
  have hnext := nextVersion?_version hx hs hv hlen
  have hread := onlyReads_outcome hq command w
  obtain ⟨w₁, hread₁, ⟨y, next, hy, hn, h⟩ | ⟨-, hnone, -⟩ | ⟨ho, -⟩⟩ := e.outcome_cases command w
  · obtain rfl := hy.unique hx
    obtain rfl : next = (y.header e command).version + 1 := Option.some.inj (hn.symm.trans hnext)
    obtain ⟨before, modifiers, after, hcalls, hb, ha⟩ := hp.calls
    have hforce := hp.unforced
    rw [hcalls] at hforce
    have hc : (e.execute (.ready y.task.handler (y.invocation e command)
        ((y.header e command).version + 1)) w₁).1 =
        ⟨(Options.new (y.header e command).id ((y.header e command).version + 1) 0).apply modifiers,
          some p, false, w.reports⟩ := by
      refine execute_fst rfl ?_
      rw [Script.run_context, hread₁.reports]
      show (y.calls e command w).foldl _ _ = _
      rw [hcalls, Context.foldl_call_publish rfl hb hforce]
      rfl
    rw [h] at hread ⊢
    rw [hc]
    refine ⟨_, _, rfl, hread, rfl, ?_⟩
    rcases ha with ⟨hk, rfl⟩ | hk
    · exact .inl ⟨hk, rfl⟩
    · exact .inr hk
  · exact absurd hx (hnone x)
  · rw [overflows_iff hx.accepts hx.reads, ← nextVersion?_eq_none_iff] at ho
    cases ho.symm.trans hnext

theorem handle_of_publishes (hq : e.wiring.Quiet)
    (ha : ∀ refusal, w.outage.appends.head? ≠ some (some refusal))
    (hp : x.Publishes e command w p type data) :
    ∃ now w', e.handle command w = (.ok (x.event e command now type data), w') ∧
      e.attempts command w = [.ok (x.event e command now type data)] := by
  obtain ⟨c, w₁, houtcome, hread, hc, haddress⟩ := outcome_of_publishes hx hs hv hlen hq hp
  have hclosing := e.onlyReads_closing c w₁
  have hstore : (e.closing c w₁).store = w.store := hclosing.store.trans hread.store
  have happends : (e.closing c w₁).outage.appends = w.outage.appends :=
    hclosing.appends.trans hread.appends
  have hproposal : e.proposal c = (p, c.options) := by
    unfold proposal
    rw [hc]
  obtain ⟨store, hok⟩ :=
    exists_appendTo hx hs hv hlen hp.listed hp.encodes haddress (e.closing c w₁).now.1
  have hfirst : (e.firstAppend command c w₁).1 =
      .ok (x.event e command (e.closing c w₁).now.1 type data) := by
    unfold firstAppend
    rw [hproposal, appendPending_eq, World.append_eq, happends, hstore]
    split
    · next refusal h => exact absurd h (ha refusal)
    · dsimp only
      rw [hok]
  exact ⟨_, _, handle_of_firstAppend houtcome hfirst, attempts_of_firstAppend hq houtcome hfirst⟩

end

/-- A store that is reached without deleting single events has streams without holes. The event that
a handler publishes there for the aggregate of its command is appended at the first attempt, as the
next one after the history that the handler was given. -/
theorem published_event_appended_first (r : Registry α σ) :
    (∀ s : Store, s.Reached r → s.Contiguous) ∧
      ∀ (e : Engine α σ) (command : Message) (w : World) (x : Hydration α σ) (p : Payload α)
        (type : MessageType α) (data : Bytes),
        e.wiring.Quiet → w.store.Reached r → w.Serves → e.Hydrates command w x →
        (w.store.stream (x.task.aggregateKey command)).length < Int32.maxValue.toInt →
        x.Publishes e command w p type data →
        (x.header e command).version.toInt =
            (w.store.stream (x.task.aggregateKey command)).length ∧
          ((x.header e command).version + 1).toInt =
            (w.store.stream (x.task.aggregateKey command)).length + 1 ∧
          ∃ now w', e.handle command w = (.ok (x.event e command now type data), w') ∧
            e.attempts command w = [.ok (x.event e command now type data)] := by
  refine ⟨fun s hs => hs.contiguous, ?_⟩
  intro e command w x p type data hq hr hw hx hlen hp
  have hs := hr.contiguous
  refine ⟨toInt_version hx hs hw.view hlen, toInt_version_add_one hx hs hw.view hlen, ?_⟩
  exact handle_of_publishes hx hs hw.view hlen hq hw.append hp

theorem reached_twoReports (r : Registry α σ) : (Store.twoReports r).Reached r := by
  unfold Store.twoReports Store.run
  rw [List.foldl_cons, List.foldl_cons, List.foldl_nil]
  refine (Store.Reached.empty.performed ?_).performed ?_
  · intro k v h
    cases h
  · intro k v h
    cases h

/-- The error that a command raises is published for its own aggregate, whatever the history is. -/
theorem publishes_diskFullAt (sourceUri : String) (command : Message) (w : World)
    {x : Hydration α σ} (hx : x.task = diskFullHydration.task) :
    x.Publishes (minimal sourceUri) command w (.errorRaised ⟨"disk full"⟩) errorRaisedEntry
      (Json.encode (⟨"disk full"⟩ : ErrorRaised)) := by
  have hcalls : x.calls (minimal sourceUri) command w = [.publish (.errorRaised ⟨"disk full"⟩) []] := by
    unfold Hydration.calls Hydration.invocation
    rw [hx]
    rfl
  constructor
  case calls =>
    refine ⟨[], [], [], hcalls, ?_, .inl ⟨rfl, rfl⟩⟩
    intro k hk
    cases hk
  case unforced =>
    intro text hm
    rw [hcalls] at hm
    cases List.mem_singleton.1 hm
  case listed =>
    rw [hx]
    exact ⟨Registry.domainByUri_minimal sourceUri, messageType_errorRaised _, rfl⟩
  case encodes => rfl

/-- The error that a command raises is the third event of an error log whose first event was appended
by key, and whose second one was not. -/
theorem published_event_appended_first_diskFull :
    let e : Engine ValueChanger.Change ValueChanger.Value := minimal "test/source"
    let command := diskFullAt (textHash "disk")
    let w := World.serving (Store.twoReports e.registry)
    let x := twoReportsHydration e.registry
    let data := Json.encode (⟨"disk full"⟩ : ErrorRaised)
    e.wiring.Quiet ∧ w.store.Reached e.registry ∧ w.Serves ∧ e.Hydrates command w x ∧
      x.Publishes e command w (.errorRaised ⟨"disk full"⟩) errorRaisedEntry data ∧
      (x.header e command).version.toInt = 2 ∧
      ∃ now w', e.handle command w = (.ok (x.event e command now errorRaisedEntry data), w') ∧
        e.attempts command w = [.ok (x.event e command now errorRaisedEntry data)] := by
  intro e command w x data
  have hq : e.wiring.Quiet := Wiring.quiet_minimal
  have hr : w.store.Reached e.registry := by
    unfold w
    rw [World.store_serving]
    exact reached_twoReports e.registry
  have hw : w.Serves := World.serves_serving _
  have hx : e.Hydrates command w x :=
    hydrates_twoReports "test/source" (World.mem_answers_serving _ _ _)
  have hp : x.Publishes e command w (.errorRaised ⟨"disk full"⟩) errorRaisedEntry data :=
    publishes_diskFullAt _ _ _ rfl
  have hlength : (w.store.stream (x.task.aggregateKey command)).length = 2 := by
    have hevents := hx.events_eq
    rw [hw.view, hr.contiguous.events_eq, id_eq] at hevents
    rw [← hevents]
    exact length_twoReportsHydration "test/source"
  have hlen : ((w.store.stream (x.task.aggregateKey command)).length : Int) <
      Int32.maxValue.toInt := by
    rw [hlength]
    decide
  have h := (published_event_appended_first e.registry).2 e command w x _ errorRaisedEntry data hq hr
    hw hx hlen hp
  exact ⟨hq, hr, hw, hx, hp, by rw [h.1, hlength]; rfl, h.2.2⟩

end Engine

end EventSourcing
