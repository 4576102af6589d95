import EventSourcing.Proofs.Domain.Directory
import EventSourcing.Proofs.Domain.Search
import EventSourcing.Proofs.Engine.Readable
import EventSourcing.Proofs.Engine.Runs
import EventSourcing.Proofs.Engine.WiringCalls

/-! Who runs on an event. Wiring a service enters its place under the event types that its subscriptions
resolve to, once for each of them, and a dispatch runs the services of the entries in turn. So a service
runs as often as it subscribes to the type of the event, and services run once just where no
subscription is repeated. -/

namespace EventSourcing

variable {α σ : Type}

section Lists

variable {τ : Type} (n : τ → Nat) (l : List τ)

theorem filter_sublist_flatMap_replicate :
    (l.filter (0 < n ·)).Sublist (l.flatMap fun a => List.replicate (n a) a) := by
  induction l with
  | nil => exact .slnil
  | cons a rest ih =>
    rw [List.flatMap_cons]
    by_cases hpos : 0 < n a
    · rw [List.filter_cons_of_pos (by simpa using hpos), ← List.singleton_append]
      apply List.Sublist.append _ ih
      rw [List.singleton_sublist, List.mem_replicate]
      exact ⟨by omega, rfl⟩
    · rw [List.filter_cons_of_neg (by simpa using hpos)]
      exact ih.trans (List.sublist_append_right _ _)

/-- Repeated as often as counted, the elements are those with a count just if none is repeated. -/
theorem flatMap_replicate_eq_filter_iff :
    (l.flatMap fun a => List.replicate (n a) a) = l.filter (0 < n ·) ↔ ∀ a ∈ l, n a ≤ 1 := by
  induction l with
  | nil => simp
  | cons a rest ih =>
    have hle := (filter_sublist_flatMap_replicate n rest).length_le
    rw [List.forall_mem_cons, ← ih, List.flatMap_cons]
    by_cases hpos : 0 < n a
    · rw [List.filter_cons_of_pos (by simpa using hpos)]
      constructor
      · intro heq
        -- The rest alone is as long as what is filtered from it, so there is no room for a second copy.
        have hlength := congrArg List.length heq
        simp only [List.length_append, List.length_replicate, List.length_cons] at hlength
        have hone : n a = 1 := by omega
        rw [hone] at heq
        exact ⟨hone.le, (List.cons.inj heq).2⟩
      · intro ⟨hone, hrest⟩
        rw [hrest, Nat.le_antisymm hone hpos]
        rfl
    · have hzero : n a = 0 := by omega
      rw [List.filter_cons_of_neg (by simpa using hpos), hzero]
      simp

end Lists

namespace Subscription

/-- The subscription is to the events of the id of the domain, by the domain's URI, however it is
written, and by a name that is listed there. -/
def names (d : Domain α σ) (id : TypeId) (s : Subscription) : Bool :=
  Uri.normalize s.uri = d.uri ∧ d.catalog.entries.any fun t => t.displayName = s.name ∧ t.typeId = id

end Subscription

namespace Service

/-- How many of its subscriptions are to the events of the id. -/
def mentions (d : Domain α σ) (id : TypeId) (s : Service α) : Nat :=
  s.subscriptions.countP (·.names d id)

theorem mentions_pos_iff {d : Domain α σ} {id : TypeId} {s : Service α} :
    0 < s.mentions d id ↔ s.subscriptions.any (·.names d id) = true := by
  unfold mentions
  rw [List.countP_pos_iff, List.any_eq_true]

/-- How many of its subscriptions resolve to the event type. -/
def entered (r : Registry α σ) (t : EventType) (s : Service α) : Nat :=
  s.subscriptions.countP fun x => (Wiring.resolve r x).toOption = some t

end Service

def WiringStep.service? : WiringStep α σ → Option (Service α)
  | .handler _ _ => none
  | .service s => some s

namespace Wiring

variable {r : Registry α σ} {w w' : Wiring α σ} {step : WiringStep α σ}

section Resolution

theorem resolve_eq_ok_iff {s : Subscription} {t : EventType} :
    resolve r s = .ok t ↔ ∃ d type, r.domainByUri s.uri = some d ∧
      d.catalog.byName s.name = some type ∧ type.kind = .event ∧ t = ⟨d.shortId, type.typeId⟩ := by
  unfold resolve
  dsimp only
  constructor
  · intro h
    split at h
    case h_2 => cases h
    next d hd =>
    split at h
    case h_2 => cases h
    next type htype =>
    split at h
    · cases h
    · next hevent =>
      cases h
      exact ⟨d, type, hd, htype, type.kind_eq_event_iff.2 (by simpa using hevent), rfl⟩
  · intro ⟨d, type, hd, htype, hevent, ht⟩
    rw [hd, ht]
    dsimp only
    rw [htype]
    dsimp only
    rw [if_neg (by simp [type.kind_eq_event_iff.1 hevent])]
    rfl

theorem domainByUri_eq_some_iff_normalize (hr : r.Built) {domain : Int32} {d : Domain α σ}
    (hd : r.domain domain = some d) {uri : String} :
    r.domainByUri uri = some d ↔ Uri.normalize uri = d.uri := by
  have hfiled := (hr.filed domain d hd).1
  rw [hr.domainByUri_eq_some_iff, hfiled, and_iff_right hd]

/-- In a built registry a subscription resolves to an event type just if it names it. -/
theorem resolve_eq_ok_iff_names (hr : r.Built) {domain : Int32} {d : Domain α σ}
    (hd : r.domain domain = some d) {id : TypeId} (hid : id.kind = .event) (s : Subscription) :
    resolve r s = .ok ⟨domain, id⟩ ↔ s.names d id = true := by
  obtain ⟨hshort, hcompiled⟩ := hr.filed domain d hd
  rw [resolve_eq_ok_iff]
  unfold Subscription.names
  simp only [decide_eq_true_eq, List.any_eq_true]
  constructor
  · intro ⟨d', type, hd', htype, _, heq⟩
    obtain ⟨hdomain, htypeId⟩ := EventType.mk.inj heq
    have hfound := (hr.filed.domain_shortId hd').1
    rw [← hdomain, hd] at hfound
    obtain rfl := Option.some.inj hfound
    obtain ⟨hentry, hname⟩ := hcompiled.byName_eq_some_iff.1 htype
    exact ⟨(domainByUri_eq_some_iff_normalize hr hd).1 hd', type, hentry, hname, htypeId.symm⟩
  · intro ⟨huri, type, hentry, hname, htypeId⟩
    refine ⟨d, type, (domainByUri_eq_some_iff_normalize hr hd).2 huri,
      hcompiled.byName_eq_some_iff.2 ⟨hentry, hname⟩, ?_, ?_⟩
    · rw [← hcompiled.kind_typeId hentry, htypeId, hid]
    · rw [hshort, htypeId]

/-- A service is entered as often as it names the event type. -/
theorem entered_eq_mentions (hr : r.Built) {domain : Int32} {d : Domain α σ}
    (hd : r.domain domain = some d) {id : TypeId} (hid : id.kind = .event) (s : Service α) :
    s.entered r ⟨domain, id⟩ = s.mentions d id := by
  apply List.countP_congr
  intro x _
  rw [decide_eq_true_eq, toOption_eq_some_iff]
  exact resolve_eq_ok_iff_names hr hd hid x

end Resolution

section Entries

def placesOf (w : Wiring α σ) (t : EventType) : List Nat := (w.subscribers.get? t).getD []

theorem getD_get?_foldl_subscribe (types : List EventType) (n : Nat) (t : EventType)
    (subscribers : Table EventType (List Nat)) :
    ((types.foldl (subscribe · n ·) subscribers).get? t).getD [] =
      (subscribers.get? t).getD [] ++ List.replicate (types.count t) n := by
  induction types generalizing subscribers with
  | nil => simp
  | cons x rest ih =>
    rw [List.foldl_cons, ih]
    unfold subscribe
    rw [Table.get?_insert]
    by_cases hx : x = t
    · rw [if_pos hx, hx, List.count_cons_self, List.replicate_succ]
      simp
    · rw [if_neg hx, List.count_cons_of_ne hx]

/-- The entries under each event type are places of services, and the services in these places are the
wired ones in their order, each as often as it is to be entered there. -/
structure Enters (r : Registry α σ) (w : Wiring α σ) : Prop where
  places : ∀ t, ∀ i ∈ w.placesOf t, i < w.services.length
  subscribers : ∀ t, w.subscribersOf t =
    w.services.flatMap fun s => List.replicate (s.entered r t) s

theorem enters_empty : (empty : Wiring α σ).Enters r := ⟨nofun, fun _ => rfl⟩

theorem placesOf_of_addService {s : Service α} (h : w.addService r s = (.ok (), w')) (t : EventType) :
    w'.services = w.services ++ [s] ∧
      w'.placesOf t = w.placesOf t ++ List.replicate (s.entered r t) w.services.length := by
  obtain ⟨-, types, htypes, rfl⟩ := exists_of_addService h
  refine ⟨rfl, ?_⟩
  unfold Service.entered
  rw [← count_of_mapM_eq_ok htypes]
  exact getD_get?_foldl_subscribe types _ t _

theorem Enters.add (hw : w.Enters r) (h : w.add r step = (.ok (), w')) : w'.Enters r := by
  cases step with
  | handler uri handler =>
    obtain ⟨d, -, rfl⟩ := exists_of_addHandler h
    exact ⟨hw.places, hw.subscribers⟩
  | service s =>
    constructor
    · intro t i hi
      obtain ⟨hservices, hplaces⟩ := placesOf_of_addService h t
      rw [hplaces, List.mem_append, List.mem_replicate] at hi
      rw [hservices, List.length_append, List.length_singleton]
      obtain hold | hnew := hi
      · have hlt := hw.places t i hold
        omega
      · omega
    · intro t
      obtain ⟨hservices, hplaces⟩ := placesOf_of_addService h t
      -- The places entered before still lead to the services that they were entered for.
      have hold : (w.placesOf t).filterMap (w'.services[·]?) = w.subscribersOf t := by
        apply List.filterMap_congr
        intro i hi
        rw [hservices, List.getElem?_append_left (hw.places t i hi)]
      have hnew : w'.services[w.services.length]? = some s := by
        rw [hservices, List.getElem?_concat_length]
      show (w'.placesOf t).filterMap (w'.services[·]?) = _
      rw [hplaces, List.filterMap_append, hold, List.filterMap_replicate_of_some hnew, hw.subscribers,
        hservices, List.flatMap_append, List.flatMap_singleton]

end Entries

section Build

variable [Content α] {steps : List (WiringStep α σ)}

theorem enters_of_build (h : build r steps = .ok w) : w.Enters r :=
  build_induction h enters_empty fun _ _ _ _ hw hadd => hw.add hadd

omit [Content α] in
theorem services_add (h : w.add r step = (.ok (), w')) : w'.services = w.services ++ step.service?.toList := by
  cases step with
  | handler uri handler =>
    obtain ⟨d, -, rfl⟩ := exists_of_addHandler h
    exact (List.append_nil _).symm
  | service s =>
    obtain ⟨-, types, -, rfl⟩ := exists_of_addService h
    rfl

theorem services_of_build (hr : r.Built) (h : build r steps = .ok w) :
    w.services = steps.filterMap WiringStep.service? := by
  obtain ⟨hvalid, rfl⟩ := (build_eq_ok_iff hr).1 h
  clear h
  induction steps using List.reverseRecOn with
  | nil =>
    rw [wired_nil hr]
    rfl
  | append_singleton steps step ih =>
    obtain ⟨hsteps, hstep⟩ := valid_concat_iff.1 hvalid
    rw [services_add (add_wired_of_allows hstep), ih hsteps, List.filterMap_append]
    cases step with
    | handler uri handler => rfl
    | service s => rfl

/-- The services to be run on an event are those of the steps in their order, each as often as it names
the type of the event. -/
theorem subscribersOf_of_build (hr : r.Built) (h : build r steps = .ok w) {domain : Int32}
    {d : Domain α σ} (hd : r.domain domain = some d) {id : TypeId} (hid : id.kind = .event) :
    w.subscribersOf ⟨domain, id⟩ =
      (steps.filterMap WiringStep.service?).flatMap fun s => List.replicate (s.mentions d id) s := by
  rw [(enters_of_build h).subscribers, services_of_build hr h]
  apply List.flatMap_congr
  intro s _
  rw [entered_eq_mentions hr hd hid]

end Build

end Wiring

namespace Engine

variable [Content α] {e : Engine α σ} {event : Message} {p : Payload α}

/-- The services run on the payload of the event in turn, and each one that is done is counted. A panic
ends the run. -/
inductive RunsInTurn (e : Engine α σ) (event : Message) (p : Payload α) :
    List (Service α) → World → Except Panic Unit → World → Prop
  | nil (w : World) : RunsInTurn e event p [] w (.ok ()) w
  | next {s : Service α} {rest w w₁ result w'} (h : e.react event (s.react event p) w = (.ok (), w₁))
      (hrest : RunsInTurn e event p rest (w₁.count .eventsDispatched) result w') :
    RunsInTurn e event p (s :: rest) w result w'
  | panic {s : Service α} {rest w q w'} (h : e.react event (s.react event p) w = (.error q, w')) :
    RunsInTurn e event p (s :: rest) w (.error q) w'

theorem runsInTurn_deliverAll (hp : e.registry.Reads event p) {services : List (Service α)}
    (hservices : ∀ s ∈ services, (e.registry.domainByUri s.uri).isSome = true) (w : World) :
    e.RunsInTurn event p services w (e.deliverAll event services w).1
      (e.deliverAll event services w).2 := by
  induction services generalizing w with
  | nil => exact .nil w
  | cons s rest ih =>
    have hrest := ih fun x hx => hservices x (List.mem_cons_of_mem s hx)
    unfold deliverAll deliver
    rw [reaction_eq_ok hp (hservices s List.mem_cons_self)]
    dsimp only
    rcases h : e.react event (s.react event p) w with ⟨q | _, w₁⟩
    · exact .panic h
    · exact .next h (hrest _)

/-- Services that do nothing do not panic. -/
theorem RunsInTurn.eq_ok_of_done {services : List (Service α)} {w w' : World}
    {result : Except Panic Unit} (h : e.RunsInTurn event p services w result w')
    (hdone : ∀ s ∈ services, s.react event p = .done) : result = .ok () := by
  induction h with
  | nil w => rfl
  | next h hrest ih =>
    apply ih
    intro x hx
    exact hdone x (List.mem_cons_of_mem _ hx)
  | panic h =>
    rw [hdone _ List.mem_cons_self] at h
    unfold react at h
    cases h

end Engine

theorem Domain.Compiled.kind_of_decodeEvent {d : Domain α σ} (hd : d.Compiled) {event : Message}
    {p : Payload α} (h : d.decodeEvent event = .ok p) : event.typeId.kind = .event := by
  obtain ⟨type, htype, -⟩ := decodeEvent_eq_ok_iff.1 h
  have hsearch := (hd.view_byId_eq .event event.typeId).symm.trans htype
  have hlisted := List.mem_reverse.1 (List.mem_of_find?_eq_some hsearch)
  have hid : type.typeId = event.typeId := by simpa using List.find?_some hsearch
  obtain ⟨hentry, hkind⟩ := hd.mem_view_all.1 hlisted
  rw [← hid, hd.kind_typeId hentry, hkind]

namespace Engine

variable [Content α] {e : Engine α σ} {steps : List (WiringStep α σ)} {event : Message}
  {d : Domain α σ} {p : Payload α}

/-- What a dispatch runs are the services entered for the event. -/
theorem exists_runsInTurn_of_dispatch (hr : e.registry.Built)
    (hbuild : Wiring.build e.registry steps = .ok e.wiring)
    (hd : e.registry.domain event.domain = some d) (hp : d.decodeEvent event = .ok p) (w : World) :
    ∃ result w', e.RunsInTurn event p (e.wiring.servicesFor event) w result w' ∧
      e.dispatch event w = (result.map fun _ => (e.wiring.servicesFor event).length, w') := by
  have hevent : ¬ event.isCommand = true := by
    have hkind := (hr.filed _ _ hd).2.kind_of_decodeEvent hp
    unfold Message.isCommand
    rw [TypeId.isCommand_iff_kind, hkind]
    exact Kind.noConfusion
  have hhomed : ∀ s ∈ e.wiring.servicesFor event, (e.registry.domainByUri s.uri).isSome = true := by
    intro s hs
    exact Wiring.homed_of_build hbuild s (Wiring.mem_services_of_mem_servicesFor hs)
  refine ⟨_, _, runsInTurn_deliverAll ((Registry.reads_iff hd).2 hp) hhomed w, ?_⟩
  unfold dispatch
  rw [if_neg hevent]

end Engine

/-! Services of the system domain and an event for them. -/

def Service.listening (names : List String) : Service α where
  name := "listening"
  uri := systemUri
  subscriptions := names.map fun name => ⟨systemUri, name⟩
  react _ _ := .done

namespace Engine

def diskFullReport : Message where
  header := ⟨0, textHash32 systemUri, 7, 1⟩
  origin := []
  timestamp := 0
  typeId := typeIdOf .event (Text.lowercase "ErrorRaised") 1
  data := Json.encode (⟨"disk full"⟩ : ErrorRaised)

theorem decodeEvent_diskFullReport :
    (systemDomain : Domain α σ).decodeEvent diskFullReport = .ok (.errorRaised ⟨"disk full"⟩) :=
  Domain.decodeEvent_eq_ok_iff.2 (decodes_errorRaised rfl rfl)

def wiredBy (wiring : Wiring ValueChanger.Change ValueChanger.Value) :
    Engine ValueChanger.Change ValueChanger.Value where
  registry := .minimal "test/source"
  wiring
  reporter := .standard fun n => Int64.ofNat n + 1

theorem mentions_listening_twice :
    (Service.listening ["ErrorRaised", "ErrorRaised"]).mentions
      (systemDomain : Domain ValueChanger.Change ValueChanger.Value) diskFullReport.typeId = 2 := by
  rw [systemDomain_eq]
  decide +kernel

theorem mentions_echo :
    Service.echo.mentions (systemDomain : Domain ValueChanger.Change ValueChanger.Value)
      diskFullReport.typeId = 1 := by
  rw [systemDomain_eq]
  decide +kernel

section Dispatch

variable [Content α] {steps : List (WiringStep α σ)} {event : Message} {d : Domain α σ} {p : Payload α}

/-- A dispatch runs the wired services in their order on the payload of the event, each as often as it
names the type of the event and none that does not name it, and answers how many runs are due. Each one
that names the type runs once just if none names it repeatedly. -/
theorem dispatch_runs_each_subscription (e : Engine α σ) (hr : e.registry.Built)
    (hbuild : Wiring.build e.registry steps = .ok e.wiring)
    (hd : e.registry.domain event.domain = some d) (hp : d.decodeEvent event = .ok p) (w : World) :
    let services := steps.filterMap WiringStep.service?
    let due := services.flatMap fun s => List.replicate (s.mentions d event.typeId) s
    (∃ result w', e.RunsInTurn event p due w result w' ∧
        e.dispatch event w = (result.map fun _ => due.length, w')) ∧
      (due = services.filter (·.subscriptions.any (·.names d event.typeId)) ↔
        ∀ s ∈ services, s.mentions d event.typeId ≤ 1) := by
  intro services due
  have hdue : e.wiring.servicesFor event = due :=
    Wiring.subscribersOf_of_build hr hbuild hd ((hr.filed _ _ hd).2.kind_of_decodeEvent hp)
  constructor
  · rw [← hdue]
    exact exists_runsInTurn_of_dispatch hr hbuild hd hp w
  · have hnaming : services.filter (·.subscriptions.any (·.names d event.typeId)) =
        services.filter (0 < ·.mentions d event.typeId) := by
      apply List.filter_congr
      intro s _
      rw [Bool.eq_iff_iff, decide_eq_true_eq]
      exact Service.mentions_pos_iff.symm
    rw [hnaming]
    exact flatMap_replicate_eq_filter_iff _ services

end Dispatch

/-- A service with a repeated subscription, one without any and one with a single one. -/
theorem dispatch_runs_each_subscription_listening :
    let r : Registry ValueChanger.Change ValueChanger.Value := .minimal "test/source"
    let d : Domain ValueChanger.Change ValueChanger.Value := systemDomain
    let p : Payload ValueChanger.Change := .errorRaised ⟨"disk full"⟩
    let twice := Service.listening ["ErrorRaised", "ErrorRaised"]
    ∃ wiring, Wiring.build r [.service twice, .service (.listening []), .service .echo] = .ok wiring ∧
      r.Built ∧ r.domain diskFullReport.domain = some d ∧ d.decodeEvent diskFullReport = .ok p ∧
      ∀ w, ∃ result w', (wiredBy wiring).RunsInTurn diskFullReport p [twice, twice, .echo] w result w' ∧
        (wiredBy wiring).dispatch diskFullReport w = (result.map fun _ => 3, w') := by
  intro r d p twice
  have hr : r.Built := Registry.built_minimal "test/source"
  have hd : r.domain diskFullReport.domain = some d := Registry.domain_minimal "test/source"
  obtain ⟨wiring, hbuild⟩ :
      ∃ wiring, Wiring.build r [.service twice, .service (.listening []), .service .echo] = .ok wiring := by
    apply exists_eq_ok_of_isOk
    unfold r Registry.minimal
    rw [systemDomain_eq]
    decide +kernel
  refine ⟨wiring, hbuild, hr, hd, decodeEvent_diskFullReport, ?_⟩
  intro w
  obtain ⟨hruns, -⟩ := dispatch_runs_each_subscription (wiredBy wiring) hr hbuild hd
    decodeEvent_diskFullReport w
  simp only [List.filterMap_cons, WiringStep.service?, List.filterMap_nil, List.flatMap_cons,
    List.flatMap_nil] at hruns
  rw [mentions_listening_twice, mentions_echo] at hruns
  exact hruns

theorem servicesFor_listening_twice
    {wiring : Wiring ValueChanger.Change ValueChanger.Value}
    (h : Wiring.build (.minimal "test/source")
      [.service (.listening ["ErrorRaised", "ErrorRaised"])] = .ok wiring) :
    wiring.servicesFor diskFullReport =
      List.replicate 2 (.listening ["ErrorRaised", "ErrorRaised"]) := by
  have hevent : diskFullReport.typeId.kind = .event := TypeId.kind_pack _ _ _
  have hsubscribers := Wiring.subscribersOf_of_build (Registry.built_minimal "test/source") h
    (Registry.domain_minimal "test/source") hevent
  simp only [List.filterMap_cons, WiringStep.service?, List.filterMap_nil, List.flatMap_cons,
    List.flatMap_nil] at hsubscribers
  rw [mentions_listening_twice, List.append_nil] at hsubscribers
  exact hsubscribers

/-- A service that names the type of the event repeatedly runs repeatedly, and is counted as often. -/
theorem dispatch_counts_repeated_subscription :
    let r : Registry ValueChanger.Change ValueChanger.Value := .minimal "test/source"
    let d : Domain ValueChanger.Change ValueChanger.Value := systemDomain
    let p : Payload ValueChanger.Change := .errorRaised ⟨"disk full"⟩
    let twice := Service.listening ["ErrorRaised", "ErrorRaised"]
    ∃ wiring, Wiring.build r [.service twice] = .ok wiring ∧ wiring.services = [twice] ∧
      r.domain diskFullReport.domain = some d ∧ d.decodeEvent diskFullReport = .ok p ∧
      twice.subscriptions.any (·.names d diskFullReport.typeId) = true ∧
      ∀ w, (wiredBy wiring).RunsInTurn diskFullReport p [twice, twice] w (.ok ())
          ((wiredBy wiring).dispatch diskFullReport w).2 ∧
        ((wiredBy wiring).dispatch diskFullReport w).1 = .ok 2 := by
  intro r d p twice
  have hr : r.Built := Registry.built_minimal "test/source"
  have hd : r.domain diskFullReport.domain = some d := Registry.domain_minimal "test/source"
  obtain ⟨wiring, hbuild⟩ : ∃ wiring, Wiring.build r [.service twice] = .ok wiring := by
    apply exists_eq_ok_of_isOk
    unfold r Registry.minimal
    rw [systemDomain_eq]
    decide +kernel
  have hnames : twice.subscriptions.any (·.names d diskFullReport.typeId) = true :=
    Service.mentions_pos_iff.1 (mentions_listening_twice ▸ Nat.two_pos)
  refine ⟨wiring, hbuild, Wiring.services_of_build hr hbuild, hd, decodeEvent_diskFullReport, hnames, ?_⟩
  intro w
  obtain ⟨result, w', hruns, hdispatch⟩ := exists_runsInTurn_of_dispatch (e := wiredBy wiring) hr hbuild
    hd decodeEvent_diskFullReport w
  have hdue : (wiredBy wiring).wiring.servicesFor diskFullReport = List.replicate 2 twice :=
    servicesFor_listening_twice hbuild
  rw [hdue] at hruns hdispatch
  have hresult : result = .ok () := by
    apply hruns.eq_ok_of_done
    intro s hs
    rw [(List.mem_replicate.1 hs).2]
    rfl
  rw [hresult] at hruns hdispatch
  rw [hdispatch]
  exact ⟨hruns, rfl⟩

end Engine
end EventSourcing
