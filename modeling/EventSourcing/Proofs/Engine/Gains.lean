import EventSourcing.Engine.Delivery
import EventSourcing.Proofs.Engine.ExactlyOnce
import EventSourcing.Proofs.Engine.Journal

/-! What an engine gains while it runs. A command adds its event to the store, to the journal and to
what is published, or it adds nothing. A delivery adds the events of the commands that the services
issue, one after the other, and all of them carry the chain of the event delivered. -/

namespace EventSourcing

def Entry.appended? : Entry → Option Message
  | .appended event => some event
  | _ => none

def Entry.taken? : Entry → Option Message
  | .taken event => some event
  | _ => none

/-- A reaction is quiet if the service does nothing but issue commands. -/
inductive Reaction.Quiet {α : Type} : Reaction α → Prop
  | done : Quiet .done
  | panic (p : Panic) : Quiet (.panic p)
  | issue (i : Issue α) {next : Except MessageError Message → Reaction α}
      (h : ∀ answer, Quiet (next answer)) : Quiet (.issue i next)

variable {α σ : Type}

/-- Handlers do nothing but use their contexts, and services nothing but issue commands. -/
structure Wiring.Confined (w : Wiring α σ) : Prop where
  handlers : w.Quiet
  services : ∀ s ∈ w.services, ∀ event p, (s.react event p).Quiet

theorem Wiring.mem_services_of_mem_servicesFor {w : Wiring α σ} {event : Message} {s : Service α}
    (h : s ∈ w.servicesFor event) : s ∈ w.services := by
  obtain ⟨i, -, hi⟩ := List.mem_filterMap.1 h
  exact List.mem_of_getElem? hi

namespace World

def appended (w : World) : List Message := w.journal.filterMap Entry.appended?

def taken (w : World) : List Message := w.journal.filterMap Entry.taken?

/-- From `w` to `w'` the events `added` were appended and published, in this order, and nothing else
was appended, published or taken. -/
structure Gains (w w' : World) (added : List Message) : Prop where
  appended : w'.appended = w.appended ++ added
  taken : w'.taken = w.taken
  publisher : w'.publisher = added.foldl (fun p m => p.publish m) w.publisher
  stream : ∀ k, w'.store.stream k = w.store.stream k ++ added.filter (·.aggregateKey = k)

section

variable {a b c w w' : World} {l : List Entry}

theorem Logs.appended (h : w.Logs w' l) :
    w'.appended = w.appended ++ l.filterMap Entry.appended? := by
  refine h.filterMap ?_
  intro entry hr
  cases entry with
  | appended event => cases hr
  | _ => rfl

theorem Logs.taken (h : w.Logs w' l) : w'.taken = w.taken ++ l.filterMap Entry.taken? := by
  refine h.filterMap ?_
  intro entry hr
  cases entry with
  | taken event => cases hr
  | _ => rfl

theorem Gains.of_logs (hlogs : w.Logs w' l) (hl : l.filterMap Entry.appended? = [])
    (hl' : l.filterMap Entry.taken? = []) (hs : w'.store = w.store)
    (hp : w'.publisher = w.publisher) : w.Gains w' [] where
  appended := by rw [hlogs.appended, hl]
  taken := by rw [hlogs.taken, hl', List.append_nil]
  publisher := hp
  stream k := by rw [hs, List.filter_nil, List.append_nil]

theorem Gains.trans {first second : List Message} (h : a.Gains b first) (h' : b.Gains c second) :
    a.Gains c (first ++ second) where
  appended := by rw [h'.appended, h.appended, List.append_assoc]
  taken := h'.taken.trans h.taken
  publisher := by rw [h'.publisher, h.publisher, List.foldl_append]
  stream k := by rw [h'.stream, h.stream, List.filter_append, List.append_assoc]

end

/-- From `w` to `w'` nothing was gained but events that carry the chain `origin`. -/
def GainsFrom (origin : List Record) (w w' : World) : Prop :=
  ∃ added, w.Gains w' added ∧ ∀ m ∈ added, m.origin = origin

section

variable {origin : List Record} {a b c w w' : World}

theorem Gains.gainsFrom (h : w.Gains w' []) : GainsFrom origin w w' := ⟨[], h, nofun⟩

theorem GainsFrom.of_eq (hj : w'.journal = w.journal) (hs : w'.store = w.store)
    (hp : w'.publisher = w.publisher) : GainsFrom origin w w' :=
  (Gains.of_logs (.of_eq hj) rfl rfl hs hp).gainsFrom

theorem GainsFrom.refl (w : World) : GainsFrom origin w w := .of_eq rfl rfl rfl

theorem GainsFrom.trans (h : GainsFrom origin a b) (h' : GainsFrom origin b c) :
    GainsFrom origin a c := by
  obtain ⟨first, hgains, hfirst⟩ := h
  obtain ⟨second, hgains', hsecond⟩ := h'
  refine ⟨first ++ second, hgains.trans hgains', ?_⟩
  intro m hm
  rcases List.mem_append.1 hm with hm | hm
  · exact hfirst m hm
  · exact hsecond m hm

end

end World

variable [Content α]

namespace Engine

variable {e : Engine α σ}

omit [Content α] in
theorem Closes.appended_eq {room : Prop} {result : Except Panic Message} {entries : List Entry}
    (h : Closes room result entries) :
    entries.filterMap Entry.appended? = result.toOption.toList := by
  cases h with
  | _ => rfl

omit [Content α] in
theorem Closes.taken_eq {room : Prop} {result : Except Panic Message} {entries : List Entry}
    (h : Closes room result entries) : entries.filterMap Entry.taken? = [] := by
  cases h with
  | _ => rfl

theorem gains_handle (hq : e.wiring.Quiet) (command : Message) (w : World) :
    w.Gains (e.handle command w).2 (e.handle command w).1.toOption.toList ∧
      ∀ m, (e.handle command w).1 = .ok m → m.origin = command.origin := by
  obtain ⟨entries, hcloses, hlogs⟩ := logs_handle hq command w
  have happended := hlogs.appended
  have htaken := hlogs.taken
  rw [hcloses.appended_eq] at happended
  rw [hcloses.taken_eq, List.append_nil] at htaken
  rcases handle_cases hq command w with ⟨m, w', h, happends, hp, horigin⟩ | ⟨p, w', h, hs, hp⟩
  · rw [h] at happended htaken ⊢
    refine ⟨⟨happended, htaken, hp, ?_⟩, ?_⟩
    · intro k
      rw [happends.stream_eq]
      show _ = _ ++ [m].filter _
      split
      · next hk => rw [List.filter_cons_of_pos (by simpa using hk), List.filter_nil, hk]
      · next hk =>
        rw [List.filter_cons_of_neg (by simpa using hk), List.filter_nil, List.append_nil]
    · intro n hn
      obtain rfl := Except.ok.inj hn
      exact horigin
  · rw [h] at happended htaken ⊢
    refine ⟨⟨happended, htaken, hp, ?_⟩, nofun⟩
    intro k
    rw [hs]
    exact (List.append_nil _).symm

theorem gainsFrom_handle (hq : e.wiring.Quiet) (command : Message) (w : World) :
    World.GainsFrom command.origin w (e.handle command w).2 := by
  obtain ⟨hgains, horigin⟩ := gains_handle hq command w
  refine ⟨_, hgains, ?_⟩
  intro m hm
  refine horigin m (toOption_eq_some_iff.1 ?_)
  exact Option.mem_toList.1 hm

theorem gainsFrom_issueWith (hq : e.wiring.Quiet) (event : Message) (p : Payload α)
    (options : Options) (w : World) :
    World.GainsFrom event.chain w (e.issueWith event p options w).2 := by
  unfold issueWith
  generalize hrun : (if options.timestamp = 0 then w.now else (options.timestamp, w)) = run
  have hw : World.GainsFrom event.chain w run.2 := by
    rw [← hrun]
    split
    · exact .of_eq rfl rfl rfl
    · exact .refl w
  dsimp only
  split
  · exact hw
  · next command hc =>
    obtain ⟨d, t, data, -, -, -, rfl⟩ := Registry.newMessage_eq_ok_iff.1 hc
    exact hw.trans (gainsFrom_handle hq _ run.2)

theorem gainsFrom_issue (hq : e.wiring.Quiet) (event : Message) (i : Issue α) (w : World) :
    World.GainsFrom event.chain w (e.issue event w i).2 := by
  cases i with
  | publish p modifiers => exact gainsFrom_issueWith hq event p _ w
  | error text =>
    have hw : World.GainsFrom event.chain w { w with reports := w.reports + 1 } :=
      .of_eq rfl rfl rfl
    exact hw.trans (gainsFrom_issueWith hq event _ _ _)

theorem gainsFrom_react (hq : e.wiring.Quiet) (event : Message) {r : Reaction α} (hr : r.Quiet)
    (w : World) : World.GainsFrom event.chain w (e.react event r w).2 := by
  induction hr generalizing w with
  | done => exact .refl w
  | panic p => exact .refl w
  | issue i _ ih =>
    have hi := gainsFrom_issue hq event i w
    unfold react
    split
    · next p w' h =>
      rw [h] at hi
      exact hi
    · next answer w' h =>
      rw [h] at hi
      exact hi.trans (ih answer w')

omit [Content α] in
theorem exists_react_of_reaction {s : Service α} {event : Message} {r : Reaction α}
    (h : e.reaction s event = .ok r) : ∃ p, r = s.react event p := by
  unfold reaction at h
  split at h
  · obtain ⟨p, -, h⟩ := bind_eq_ok_iff.1 h
    dsimp only at h
    split at h
    · cases h
    · cases h
      exact ⟨p, rfl⟩
  · cases h

theorem gainsFrom_deliver (hc : e.wiring.Confined) {s : Service α} (hs : s ∈ e.wiring.services)
    (event : Message) (w : World) : World.GainsFrom event.chain w (e.deliver s event w).2 := by
  unfold deliver
  split
  · exact .refl w
  next r hr =>
  obtain ⟨p, rfl⟩ := exists_react_of_reaction hr
  have hquiet := hc.services s hs event p
  have hreact := gainsFrom_react hc.handlers event hquiet w
  split
  · next p w' h =>
    rw [h] at hreact
    exact hreact
  · next w' h =>
    rw [h] at hreact
    have hcount : w'.Gains (w'.count .eventsDispatched) [] :=
      .of_logs ((World.Logs.refl w').count _) rfl rfl rfl rfl
    exact hreact.trans hcount.gainsFrom

theorem gainsFrom_deliverAll (hc : e.wiring.Confined) (event : Message)
    {services : List (Service α)} (hs : ∀ s ∈ services, s ∈ e.wiring.services) (w : World) :
    World.GainsFrom event.chain w (e.deliverAll event services w).2 := by
  induction services generalizing w with
  | nil => exact .refl w
  | cons s rest ih =>
    have hdeliver := gainsFrom_deliver hc (hs s List.mem_cons_self) event w
    unfold deliverAll
    split
    · next p w' h =>
      rw [h] at hdeliver
      exact hdeliver
    · next w' h =>
      rw [h] at hdeliver
      exact hdeliver.trans (ih (fun x hx => hs x (List.mem_cons_of_mem s hx)) w')

/-- A delivery gains events that are caused by the event delivered, and no others. -/
theorem gainsFrom_dispatch (hc : e.wiring.Confined) (event : Message) (w : World) :
    World.GainsFrom event.chain w (e.dispatch event w).2 := by
  unfold dispatch
  split
  · exact .refl w
  · exact gainsFrom_deliverAll hc event (fun _ => Wiring.mem_services_of_mem_servicesFor) w

end Engine
end EventSourcing
