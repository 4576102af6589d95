import EventSourcing.Proofs.Engine.Readable
import EventSourcing.Proofs.Engine.Substitution
import EventSourcing.Proofs.ValueChanger.History

/-! What a command does to a value. The checks of the handler are effective because the first of them
that fails puts an error in the place of the event. So a command leads to the event of the change that
it makes to the current value, and to a report if it makes none. The current value is that of the whole
history, because the history that is replayed is the one that is stored. -/

namespace EventSourcing

namespace Context

variable {α : Type} {r : Reporter α} {c : Context α}

/-- The first check that fails decides what is pending, if no error is forced after it. -/
theorem foldl_call_refuse (hc : c.pending = none) {before after : List (Call α)} {text : String}
    (hb : ∀ k ∈ before, ∃ text, k = .assert true text) (hk : ∀ text, .forceError text ∉ after) :
    (before ++ .assert false text :: after).foldl (fun c k => c.call r k) c =
      c.forceError r s!"Assert failed: {text}" := by
  have hidle : ∀ k ∈ before, ¬ k.Effective := fun k hm => Call.not_effective_iff.2 (hb k hm)
  have hdecides : Call.Decides before (.assert false text) after := by
    refine .first nofun hidle ?_
    intro other hm
    exact hk other ((List.mem_cons.1 hm).resolve_left nofun)
  rw [foldl_call_of_reports hc hdecides rfl, foldl_call_of_idle hidle]

end Context

theorem Script.settle_ofCalls {α : Type} (calls : List (Call α)) (r : Reporter α) (c : Context α)
    (w : World) :
    (ofCalls calls .done).settle r c w = calls.foldl (fun c k => c.call r k) c := by
  induction calls generalizing c with
  | nil => rfl
  | cons k rest ih => exact ih (c.call r k)

namespace ValueChanger

/-- The event that a command leads to at the value `v`, if it changes the value. -/
def Change.on (v : String) : Change → Option Change
  | .setValue c => if c.value = "" ∨ c.value = v then none else some (.valueSet ⟨c.value, v⟩)
  | .clearValue _ => if v = "" then none else some (.valueCleared ⟨v⟩)
  | _ => none

theorem link_of_on {v : String} {c c' : Change} (h : c.on v = some c') : ∃ v', Link v c' v' := by
  unfold Change.on at h
  split at h
  · split at h
    · cases h
    · next hne =>
      cases h
      rw [not_or] at hne
      exact ⟨_, .set hne.1 hne.2⟩
  · split at h
    · cases h
    · next hne =>
      cases h
      exact ⟨_, .cleared hne⟩
  · cases h

theorem Link.kind_entry {v v' : String} {c : Change} (h : Link v c v') : c.entry.kind = .event := by
  cases h with
  | _ => rfl

section Respond

variable {s : Value} {c c' : Change} (r : Reporter Change) {context : Context Change}
  (hidle : context.pending = none)

include hidle

/-- A command that changes the value passes all checks. -/
theorem foldl_respond_of_on (h : c.on s.value = some c') :
    (respond s c).foldl (fun c k => c.call r k) context =
      { context with pending := some (.custom c') } := by
  unfold Change.on at h
  split at h
  · next c =>
    split at h
    · cases h
    next hne =>
    cases h
    rw [not_or] at hne
    have hcalls : respond s (.setValue c) =
        [.assert true "value must not be empty", .assert true "value unchanged"] ++
          .publish (.custom (.valueSet ⟨c.value, s.value⟩)) [] :: [] := by
      simp [respond, hne]
    rw [hcalls]
    exact Context.foldl_call_publish hidle (by simp) (by simp)
  · next c =>
    split at h
    · cases h
    next hne =>
    cases h
    have hcalls : respond s (.clearValue c) =
        [.assert true "nothing to clear"] ++ .publish (.custom (.valueCleared ⟨s.value⟩)) [] :: [] := by
      simp [respond, hne]
    rw [hcalls]
    exact Context.foldl_call_publish hidle (by simp) (by simp)
  · cases h

/-- A command that changes nothing fails a check, unless it is no command at all. -/
theorem foldl_respond_of_none (h : c.on s.value = none) :
    (respond s c).foldl (fun c k => c.call r k) context = context ∨
      ∃ text, (respond s c).foldl (fun c k => c.call r k) context = context.forceError r text := by
  unfold Change.on at h
  split at h
  · next c =>
    split at h
    case isFalse => cases h
    next hc =>
    refine .inr ?_
    by_cases hempty : c.value = ""
    · have hcalls : respond s (.setValue c) = [] ++ .assert false "value must not be empty" ::
          [.assert (c.value ≠ s.value) "value unchanged",
            .publish (.custom (.valueSet ⟨c.value, s.value⟩)) []] := by
        simp [respond, hempty]
      rw [hcalls]
      exact ⟨_, Context.foldl_call_refuse hidle (by simp) (by simp)⟩
    · have hcalls : respond s (.setValue c) = [.assert true "value must not be empty"] ++
          .assert false "value unchanged" ::
            [.publish (.custom (.valueSet ⟨c.value, s.value⟩)) []] := by
        simp [respond, ← hc.resolve_left hempty, hempty]
      rw [hcalls]
      exact ⟨_, Context.foldl_call_refuse hidle (by simp) (by simp)⟩
  · next c =>
    split at h
    case isFalse => cases h
    next hempty =>
    have hcalls : respond s (.clearValue c) = [] ++ .assert false "nothing to clear" ::
        [.publish (.custom (.valueCleared ⟨s.value⟩)) []] := by
      simp [respond, hempty]
    rw [hcalls]
    exact .inr ⟨_, Context.foldl_call_refuse hidle (by simp) (by simp)⟩
  · next hset hclear =>
    refine .inl ?_
    cases c with
    | setValue c => exact absurd rfl (hset c)
    | clearValue c => exact absurd rfl (hclear c)
    | _ => rfl

end Respond

theorem Change.decoder_entry (c : Change) {data : Bytes}
    (h : (Payload.custom c).encode = .ok data) :
    data ≠ [] ∧ c.entry.decoder data = .ok (.custom c) := by
  cases c with
  | setValue x =>
    cases h
    exact ⟨Json.LawfulCodec.encode_ne_nil x,
      PayloadType.decode_encode "SetValue" uri (.custom ∘ Change.setValue) x⟩
  | clearValue x =>
    cases h
    exact ⟨Json.LawfulCodec.encode_ne_nil x,
      PayloadType.decode_encode "ClearValue" uri (.custom ∘ Change.clearValue) x⟩
  | valueSet x =>
    cases h
    exact ⟨Json.LawfulCodec.encode_ne_nil x,
      PayloadType.decode_encode "ValueSet" uri (.custom ∘ Change.valueSet) x⟩
  | valueCleared x =>
    cases h
    exact ⟨Json.LawfulCodec.encode_ne_nil x,
      PayloadType.decode_encode "ValueCleared" uri (.custom ∘ Change.valueCleared) x⟩

variable {reportIds : Nat → Int64} {e : Engine Change Value} {command m : Message} {w : World}
  {cs : List Change} {v : String}

def hydration (s : Store) (command : Message) (c : Change) (cs : List Change) :
    Hydration Change Value :=
  ⟨⟨domain, handler, .custom c⟩, s.stream command.aggregateKey, cs.map .custom⟩

theorem History.contiguousAt {s : Store} {k : AggregateKey} (h : History (s.stream k) cs v) :
    s.ContiguousAt k := h.version

namespace Assembled

theorem inverts (h : Assembled reportIds e) (c : Change) : e.registry.Inverts (.custom c) := by
  intro d t data hl hdata
  obtain rfl : domain = d := Option.some.inj (h.byUri.symm.trans hl.domain)
  obtain rfl : c.entry = t := Option.some.inj ((messageType_domain c).symm.trans hl.entry)
  exact c.decoder_entry hdata

theorem decodeEvent_of_makes (h : Assembled reportIds e) {c : Change} {id now : Int64}
    {version : Int32} {origin : List Record}
    (hm : e.registry.Makes id version now origin (.custom c) m) :
    m.domain = textHash32 uri ∧ domain.decodeEvent m = .ok (.custom c) := by
  have hfiled := h.selfContained.registry.filed
  have hdomain : m.domain = textHash32 uri := hm.assigns.unique ⟨domain, h.byUri, rfl⟩
  have hreads := hm.reads hfiled h.distinct (h.inverts c)
  refine ⟨hdomain, hreads.decodeEvent ?_⟩
  rw [hdomain]
  exact h.byShortId

theorem exists_makes (h : Assembled reportIds e) {c : Change} (hc : c.entry.kind = .event)
    (id : Int64) (version : Int32) (origin : List Record) :
    ∃ m, e.registry.Makes id version 0 origin (.custom c) m ∧
      m.aggregateKey = ⟨textHash32 uri, id⟩ := by
  obtain ⟨data, hdata⟩ : ∃ data, (Payload.custom c).encode = .ok data := by
    cases c with
    | _ => exact ⟨_, rfl⟩
  exact ⟨_, ⟨domain, c.entry, data, ⟨h.byUri, messageType_domain c, hc⟩, hdata, rfl⟩, rfl⟩

theorem task_eq (h : Assembled reportIds e) (hd : command.domain = textHash32 uri)
    {task : Task Change Value} (ha : e.Accepts command task) :
    task = ⟨domain, handler, task.payload⟩ := by
  have hdomain := ha.domain
  rw [hd, h.byShortId] at hdomain
  have hhandler := ha.handler
  rw [← Option.some.inj hdomain] at hhandler
  have hhandler := h.wired.symm.trans hhandler
  obtain ⟨d, x, p⟩ := task
  cases hdomain
  cases hhandler
  rfl

section Hydration

variable {x : Hydration Change Value} (h : Assembled reportIds e) (hw : w.outage = .none)
  (hd : command.domain = textHash32 uri) (hs : History (w.store.stream command.aggregateKey) cs v)

include h hw hd hs

/-- A command is hydrated on the history that is stored. -/
theorem hydration_eq (hx : e.Hydrates command w x) :
    x = ⟨⟨domain, handler, x.task.payload⟩, w.store.stream command.aggregateKey,
      cs.map .custom⟩ := by
  have htask := h.task_eq hd hx.accepts
  have hevents := hx.events_eq
  rw [(hx.aggregateKey_eq h.selfContained (unkeyed e command)).2, hw,
    hs.contiguousAt.events_eq] at hevents
  have hdecoded := hx.mapM_decodeEvent
  rw [htask, hevents] at hdecoded
  have hdecoded := Except.ok.inj (hdecoded.symm.trans hs.decoded)
  obtain ⟨⟨d, y, p⟩, events, decoded⟩ := x
  cases htask
  cases hevents
  cases hdecoded
  rfl

theorem settled_eq (hx : e.Hydrates command w x) (next : Int32) (n : Nat) (w' : World) :
    e.settled command x next n w' =
      match x.task.payload with
      | .custom c => (respond (.after cs v) c).foldl (fun c k => c.call e.reporter k)
        (.start (x.task.target command) next n)
      | _ => .start (x.task.target command) next n := by
  have hstate : domain.aggregate.replay (cs.map .custom) = .custom (.after cs v) := hs.linked.replay
  rw [h.hydration_eq hw hd hs hx]
  generalize x.task.payload = p
  unfold Engine.settled Hydration.invocation handler
  dsimp only
  rw [hstate]
  cases p with
  | custom c => exact Script.settle_ofCalls _ _ _ _
  | _ => rfl

/-- Whether a check has failed or nothing is pending, a report is proposed. -/
theorem proposal_of_none {c : Change}
    (hx : e.Hydrates command w (hydration w.store command c cs)) (hc : c.on v = none)
    (next : Int32) (n : Nat) (w' : World) :
    ∃ text, e.proposal (e.settled command (hydration w.store command c cs) next n w') =
      e.reporter.event n text := by
  rw [h.settled_eq hw hd hs hx]
  show ∃ text, e.proposal ((respond (.after cs v) c).foldl (fun c k => c.call e.reporter k)
    (.start command.id next n)) = _
  have hidle : (Context.start command.id next n : Context Change).pending = none := rfl
  have hc : c.on (Value.after cs v).value = none := hc
  rcases foldl_respond_of_none e.reporter hidle hc with hrun | ⟨text, hrun⟩
  · rw [hrun]
    exact ⟨_, rfl⟩
  · rw [hrun]
    exact ⟨text, rfl⟩

end Hydration

/-- An event that is answered within the domain is that of a change, and the next one. -/
theorem change_of_handle (h : Assembled reportIds e) (hw : w.outage = .none)
    (hm : (e.handle command w).1 = .ok m) (hdomain : m.domain = textHash32 uri)
    (hs : History (w.store.stream m.aggregateKey) cs v) :
    m.aggregateKey = command.aggregateKey ∧
      m.version.toInt = (w.store.stream m.aggregateKey).length + 1 ∧
      ∃ c c', e.Accepts command ⟨domain, handler, .custom c⟩ ∧ c.on v = some c' ∧
        domain.decodeEvent m = .ok (.custom c') := by
  have houtside : m.domain ≠ textHash32 systemUri := by
    rw [hdomain]
    exact shortId_ne_system
  obtain @⟨x, next, p, now, n, w', hx, hn, hp, hmake, hkey, -, hfollows⟩ :=
    Engine.contributes_of_handle h.selfContained (unkeyed e command) hm houtside
  have hd : command.domain = textHash32 uri :=
    (congrArg AggregateKey.domain hkey).symm.trans hdomain
  rw [hkey] at hs ⊢
  -- A report would have gone to the system domain.
  have hreport : ∀ n text, p ≠ (e.reporter.event n text).1 := by
    rintro n text rfl
    exact houtside (hmake.assigns.unique (h.selfContained.reports n text))
  rw [h.settled_eq hw hd hs hx] at hp
  have htask := h.task_eq hd hx.accepts
  cases hpayload : x.task.payload with
  | custom c =>
    rw [hpayload] at hp htask
    dsimp only at hp
    have hidle : (Context.start (x.task.target command) next n : Context Change).pending = none := rfl
    cases hc : c.on (Value.after cs v).value with
    | none =>
      rcases foldl_respond_of_none e.reporter hidle hc with hrun | ⟨text, hrun⟩
      · rw [hrun, hidle] at hp
        cases hp
      · rw [hrun] at hp
        exact absurd (Option.some.inj hp).symm (hreport n text)
    | some c' =>
      rw [foldl_respond_of_on e.reporter hidle hc] at hp
      obtain rfl := Option.some.inj hp
      refine ⟨rfl, ?_, c, c', htask ▸ hx.accepts, hc, (h.decodeEvent_of_makes hmake).2⟩
      rw [hmake.version_eq, ← previousVersion?_eq_some_iff.1 hfollows,
        ← hs.contiguousAt.toInt_currentVersion]
  | _ =>
    rw [hpayload] at hp
    cases hp

section Asked

variable {c : Change} (h : Assembled reportIds e) (hw : w.outage = .none)
  (ha : e.Accepts command ⟨domain, handler, .custom c⟩)
  (hs : History (w.store.stream command.aggregateKey) cs v)
  (hlen : ((w.store.stream command.aggregateKey).length : Int) < Int32.maxValue.toInt)

include h ha in
theorem domain_eq : command.domain = textHash32 uri :=
  (h.selfContained.registry.filed _ _ ha.domain).1.symm

include h hw ha hs in
theorem hydrates : e.Hydrates command w (hydration w.store command c cs) := by
  have hread := World.mem_answers_of_outage_none hw (textHash32 uri) command.id
  have hkey : (⟨textHash32 uri, command.id⟩ : AggregateKey) = command.aggregateKey := by
    rw [← h.domain_eq ha]
    rfl
  rw [hkey, hs.contiguousAt.events_eq] at hread
  exact ⟨ha, hread, Domain.mapM_decodeEvent_eq_ok_iff.1 hs.decoded⟩

include hlen in
theorem exists_next : ∃ next, nextVersion?
    (Int32.ofNat (w.store.stream command.aggregateKey).length) = some next ∧
      next.toInt = (w.store.stream command.aggregateKey).length + 1 := by
  obtain ⟨next, hnext⟩ := exists_version_after hlen
  refine ⟨next, nextVersion?_eq_some_iff.2 ?_, hnext⟩
  rw [Int32.toInt_maxValue] at hlen
  rw [hnext, Int32.toInt_ofNat_of_lt (by omega)]

include h hw ha hs hlen

/-- A command that changes the value is answered with the event of the change. -/
theorem handle_of_on {c' : Change} (hc : c.on v = some c') :
    ∃ m, (e.handle command w).1 = .ok m ∧ m.aggregateKey = command.aggregateKey ∧
      domain.decodeEvent m = .ok (.custom c') := by
  obtain ⟨next, hn, hnext⟩ := exists_next hlen
  have hd := h.domain_eq ha
  have hx := h.hydrates hw ha hs
  have hversion : (Options.new command.id next 0).version = next :=
    Options.version_new (by omega) _ _
  obtain ⟨v', hlink⟩ := link_of_on hc
  obtain ⟨m, hmake, hkey⟩ := h.exists_makes hlink.kind_entry command.id
    (Options.new command.id next 0).version command.origin
  have houtside : m.domain ≠ textHash32 systemUri := by
    rw [show m.domain = textHash32 uri from congrArg AggregateKey.domain hkey]
    exact shortId_ne_system
  rw [← hd] at hkey
  have hpending : (e.settled command (hydration w.store command c cs) next 0 w).pending =
      some (.custom c') := by
    rw [h.settled_eq hw hd hs hx, hydration]
    dsimp only
    rw [foldl_respond_of_on e.reporter rfl hc]
  have hfollows : previousVersion? (Options.new command.id next 0).version =
      some (w.store.currentVersion command.aggregateKey) := by
    rw [hversion, previousVersion?_eq_some_iff, hs.contiguousAt.toInt_currentVersion, hnext]
  obtain ⟨now, hnow⟩ := Engine.exists_handle_of_contributes h.selfContained (unkeyed e command) hw
    ⟨0, w, hx, hn, hpending, hmake, hkey, houtside, hfollows⟩
  exact ⟨_, hnow, hkey, (h.decodeEvent_of_makes (hmake.restamp now)).2⟩

/-- A command that changes nothing is answered with a report, if the report opens its aggregate. -/
theorem handle_of_none (hc : c.on v = none)
    (hunused : w.store.stream ⟨textHash32 systemUri, reportIds w.reports⟩ = []) :
    ∃ m, (e.handle command w).1 = .ok m ∧ m.domain = textHash32 systemUri := by
  obtain ⟨next, hn, -⟩ := exists_next hlen
  have hd := h.domain_eq ha
  have hx := h.hydrates hw ha hs
  have hread := Engine.onlyReads_outcome h.selfContained.quiet command w
  obtain ⟨w', hsettled⟩ := Engine.outcome_of_hydrates hx hn
  rcases ho : e.outcome command w with ⟨result, w₁⟩
  rw [ho] at hsettled hread
  dsimp only at hsettled
  subst hsettled
  obtain ⟨text, hproposal⟩ := h.proposal_of_none hw hd hs hx hc next w.reports w'
  generalize e.settled command (hydration w.store command c cs) next w.reports w' = context
    at ho hproposal
  have hclosing := e.onlyReads_closing context w₁
  have hopens : (e.closing context w₁).store.Opens (e.reporter.event w.reports text) := by
    rw [hclosing.store, h.reporter]
    refine Store.opens_standard ?_ text
    rw [show w₁.store = w.store from hread.store]
    exact hunused
  have hserved : ∀ error, (e.closing context w₁).outage.appends.head? ≠ some (some error) := by
    intro error
    rw [hclosing.appends, hread.appends, hw]
    exact nofun
  obtain ⟨m, w₂, hm⟩ := hopens.exists_append h.selfContained.registry hserved command.origin
  rw [← Engine.appendPending_eq] at hm
  have hfirst : e.firstAppend command context w₁ = (.ok m, w₂) := by
    unfold Engine.firstAppend
    rw [hproposal, hm]
  refine ⟨m, congrArg Prod.fst (Engine.handle_of_firstAppend ho (congrArg Prod.fst hfirst)), ?_⟩
  exact (Engine.assigns_of_appendPending (congrArg Prod.fst hm)).unique (h.selfContained.reports _ _)

end Asked

end Assembled

end ValueChanger
end EventSourcing
