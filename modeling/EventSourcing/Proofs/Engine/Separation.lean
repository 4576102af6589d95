import EventSourcing.Proofs.Engine.Locality
import EventSourcing.ValueChanger.Application

/-! Aggregates are isolated from each other. A command to one aggregate leaves the events of every
other one as they are, but for the reports in the system domain, and it reads no events but those of
its own. So after any commands an aggregate has the events that it would have after those addressed
to it, up to the times at which they were appended. -/

namespace EventSourcing

variable {α σ : Type} [Content α]

theorem World.outage_append {w : World} (hw : w.outage = .none) (r : Registry α σ) (slot : Slot)
    (origin : List Record) (p : Payload α) : (w.append r slot origin p).2.outage = .none := by
  have htried : w.tried.outage = .none := by
    show { w.outage with appends := w.outage.appends.tail } = Outage.none
    rw [hw]
    rfl
  rw [append_eq]
  split
  · exact htried
  · split
    · exact htried
    · exact htried

namespace Engine

/-- Handles listed commands, one after the other. A panic ends the command that it belongs to. -/
def handleAll (e : Engine α σ) (commands : List Message) (w : World) : World :=
  commands.foldl (fun w command => (e.handle command w).2) w

variable {e : Engine α σ} {command : Message} {w v : World} {k : AggregateKey}

section Outage

theorem outage_appendPending (hw : w.outage = .none) (p : Payload α) (options : Options) :
    (e.appendPending command p options w).2.outage = .none := by
  rw [appendPending_eq]
  exact World.outage_append hw _ _ _ _

theorem outage_finalize (e : Engine α σ) (command : Message) (hw : w.outage = .none)
    (c : Context α) :
    (e.finalize command c w).2.outage = .none := by
  have hfirst : (e.firstAppend command c w).2.outage = .none :=
    outage_appendPending ((e.onlyReads_closing c w).outage_none hw) _ _
  rw [finalize_eq]
  rcases h : e.firstAppend command c w with ⟨(refusal | q) | m, w₁⟩
  · rw [h] at hfirst
    dsimp only at hfirst ⊢
    have hretry : { w₁.count .appendRetries with reports := w₁.reports + 1 }.outage = .none :=
      hfirst
    have hsecond : (e.secondAppend command refusal w₁).2.outage = .none :=
      outage_appendPending hretry _ _
    rcases h' : e.secondAppend command refusal w₁ with ⟨(refusal' | q) | m, w₂⟩
    · rw [h'] at hsecond
      exact hsecond
    · rw [h'] at hsecond
      exact hsecond
    · rw [h'] at hsecond
      exact hsecond
  · rw [h] at hfirst
    exact hfirst
  · rw [h] at hfirst
    exact hfirst

theorem outage_handle (he : e.SelfContained) (hw : w.outage = .none) :
    (e.handle command w).2.outage = .none := by
  have houtcome := (onlyReads_outcome he.quiet command w).outage_none hw
  rw [handle_eq]
  rcases ho : e.outcome command w with ⟨p | c, w₁⟩
  · rw [ho] at houtcome
    exact houtcome
  rw [ho] at houtcome
  dsimp only at houtcome ⊢
  have hfinalize := e.outage_finalize command houtcome c
  rcases h : e.finalize command c w₁ with ⟨p | m, w₂⟩
  · rw [h] at hfinalize
    exact hfinalize
  · rw [h] at hfinalize
    exact hfinalize

end Outage

section Streams

def gained (e : Engine α σ) (k : AggregateKey) (command : Message) (w : World) : List Message :=
  (e.handle command w).1.toOption.toList.filter (·.aggregateKey = k)

theorem stream_handle (he : e.SelfContained) (k : AggregateKey) (command : Message) (w : World) :
    (e.handle command w).2.store.stream k = w.store.stream k ++ e.gained k command w :=
  (gains_handle he.quiet command w).1.stream k

theorem gained_eq_singleton {m : Message} (h : (e.handle command w).1 = .ok m)
    (hk : m.aggregateKey = k) : e.gained k command w = [m] := by
  unfold gained
  rw [h]
  exact List.filter_cons_of_pos (decide_eq_true hk)

theorem gained_eq_nil (h : ∀ m, (e.handle command w).1 = .ok m → m.aggregateKey ≠ k) :
    e.gained k command w = [] := by
  unfold gained
  rw [List.filter_eq_nil_iff]
  intro m hm
  rw [decide_eq_true_eq]
  exact h m (toOption_eq_some_iff.1 (Option.mem_toList.1 hm))

/-- Outside the system domain, the events of an aggregate that the command does not address stay as
they are. -/
theorem stream_handle_of_ne (he : e.SelfContained) (hkey : e.Unkeyed command)
    (hk : k.domain ≠ textHash32 systemUri) (hne : command.aggregateKey ≠ k) (w : World) :
    (e.handle command w).2.store.stream k = w.store.stream k := by
  have hnil : e.gained k command w = [] := by
    refine gained_eq_nil ?_
    rintro m hm rfl
    obtain ⟨-, -, -, -, -, -, hkeys, -, -⟩ := contributes_of_handle he hkey hm hk
    exact hne hkeys.symm
  rw [stream_handle he, hnil, List.append_nil]

/-- What a command adds to its aggregate is the same in both worlds, up to the time. -/
theorem gained_congr (he : e.SelfContained) (hkey : e.Unkeyed command)
    (hk : command.domain ≠ textHash32 systemUri) (hw : w.outage = .none) (hv : v.outage = .none)
    (hagree : w.store.AgreeAt command.aggregateKey v.store) :
    (e.gained command.aggregateKey command w).map Message.untimed =
      (e.gained command.aggregateKey command v).map Message.untimed := by
  by_cases h : ∃ m, (e.handle command w).1 = .ok m ∧ m.aggregateKey = command.aggregateKey
  · obtain ⟨m, hm, hkeys⟩ := h
    have hdomain : m.domain = command.domain := congrArg AggregateKey.domain hkeys
    have hcontributes :=
      (contributes_of_handle he hkey hm (hdomain ▸ hk)).congr he hkey hw hv hagree
    obtain ⟨now, hnow⟩ := exists_handle_of_contributes he hkey hv hcontributes
    rw [gained_eq_singleton hm hkeys, gained_eq_singleton hnow hkeys]
    rfl
  · -- An event in the other world would be contributed in this one too.
    have hnone : ∀ m, (e.handle command v).1 = .ok m → m.aggregateKey ≠ command.aggregateKey := by
      intro m hm hkeys
      have hdomain : m.domain = command.domain := congrArg AggregateKey.domain hkeys
      have hcontributes :=
        (contributes_of_handle he hkey hm (hdomain ▸ hk)).congr he hkey hv hw hagree.symm
      obtain ⟨now, hnow⟩ := exists_handle_of_contributes he hkey hw hcontributes
      exact h ⟨_, hnow, hkeys⟩
    rw [gained_eq_nil hnone, gained_eq_nil fun m hm hkeys => h ⟨m, hm, hkeys⟩]

theorem agreeAt_handle (he : e.SelfContained) (hkey : e.Unkeyed command)
    (hk : command.domain ≠ textHash32 systemUri) (hw : w.outage = .none) (hv : v.outage = .none)
    (hagree : w.store.AgreeAt command.aggregateKey v.store) :
    (e.handle command w).2.store.AgreeAt command.aggregateKey (e.handle command v).2.store := by
  unfold Store.AgreeAt at hagree ⊢
  rw [stream_handle he, stream_handle he, List.map_append, List.map_append, hagree,
    gained_congr he hkey hk hw hv hagree]

/-- Of two runs from worlds that agree at an aggregate, one with all commands and one with those to
the aggregate, both end in worlds that agree there. -/
theorem agreeAt_handleAll (he : e.SelfContained) (hk : k.domain ≠ textHash32 systemUri)
    {commands : List Message} (hkeys : ∀ command ∈ commands, e.Unkeyed command)
    (hw : w.outage = .none) (hv : v.outage = .none) (hagree : w.store.AgreeAt k v.store) :
    (e.handleAll commands w).store.AgreeAt k
      (e.handleAll (commands.filter (·.aggregateKey = k)) v).store := by
  induction commands generalizing w v with
  | nil => exact hagree
  | cons command rest ih =>
    have hkey := hkeys command List.mem_cons_self
    have hrest : ∀ c ∈ rest, e.Unkeyed c := fun c hc => hkeys c (List.mem_cons_of_mem command hc)
    by_cases hc : command.aggregateKey = k
    · rw [List.filter_cons_of_pos (by simpa using hc)]
      subst hc
      exact ih hrest (outage_handle he hw) (outage_handle he hv)
        (agreeAt_handle he hkey hk hw hv hagree)
    · rw [List.filter_cons_of_neg (by simpa using hc)]
      refine ih hrest (outage_handle he hw) hv ?_
      unfold Store.AgreeAt
      rw [stream_handle_of_ne he hkey hk hc]
      exact hagree

end Streams

end Engine

namespace ValueChanger

def unattended (sourceUri : String) (reportIds : Nat → Int64) :
    Except ApplicationError (Engine Change Value) := do
  let domain ← definition.compile.mapError .compile
  let registry ← (Registry.build sourceUri [domain]).mapError .registry
  let wiring ← (Wiring.build registry [.handler uri handler]).mapError .wiring
  return ⟨registry, wiring, .standard reportIds⟩

theorem plain_respond {r : Registry Change Value} {d : Domain Change Value}
    (hd : r.domainByUri uri = some d) (s : Value) (c : Change) :
    ∀ k ∈ respond s c, k.Plain r d.shortId := by
  intro k hk
  unfold respond at hk
  split at hk
  · simp only [List.mem_cons, List.not_mem_nil, or_false] at hk
    rcases hk with rfl | rfl | rfl
    · exact .assert _ _
    · exact .assert _ _
    · exact .publish rfl ⟨d, hd, rfl⟩
  · simp only [List.mem_cons, List.not_mem_nil, or_false] at hk
    rcases hk with rfl | rfl
    · exact .assert _ _
    · exact .publish rfl ⟨d, hd, rfl⟩
  · cases hk

theorem plain_handler {r : Registry Change Value} {d : Domain Change Value}
    (hd : r.domainByUri uri = some d) (i : Invocation Change Value) :
    (handler.run i).Plain r d.shortId := by
  unfold handler
  dsimp only
  split
  · exact .ofCalls (plain_respond hd _ _) .done
  · exact .done

theorem selfContained_unattended {sourceUri : String} {reportIds : Nat → Int64}
    {e : Engine Change Value} (h : unattended sourceUri reportIds = .ok e) : e.SelfContained := by
  obtain ⟨domain, hdomain, h⟩ := bind_eq_ok_iff.1 h
  obtain ⟨registry, hregistry, h⟩ := bind_eq_ok_iff.1 h
  obtain ⟨wiring, hwiring, h⟩ := bind_eq_ok_iff.1 h
  cases h
  rw [mapError_eq_ok_iff] at hdomain hregistry hwiring
  have hr : registry.Built := by
    refine ⟨sourceUri, [domain], ?_, hregistry⟩
    intro d hd
    rw [List.mem_singleton.1 hd]
    exact ⟨definition, hdomain⟩
  refine .of_build hr hwiring rfl ?_
  intro u h d hstep hd i
  cases List.mem_singleton.1 hstep
  exact plain_handler hd i

theorem unkeyed (e : Engine Change Value) (command : Message) : e.Unkeyed command := by
  intro task _
  cases task.payload with
  | _ => rfl

end ValueChanger

namespace Engine

/-- An aggregate outside the system domain is isolated from all others. A command to another one
leaves its events as they are, whatever becomes of the command. So handling commands in turn gives it
the events, up to their times, that handling those addressed to it gives, from any two empty stores
that are served without outages. -/
theorem aggregates_isolated (e : Engine α σ) (he : e.SelfContained) {k : AggregateKey}
    (hk : k.domain ≠ textHash32 systemUri) :
    (∀ command w, e.Unkeyed command → command.aggregateKey ≠ k →
        (e.handle command w).2.store.stream k = w.store.stream k) ∧
      ∀ commands w v, (∀ command ∈ commands, e.Unkeyed command) →
        w.store = .empty → w.outage = .none → v.store = .empty → v.outage = .none →
        ((e.handleAll commands w).store.stream k).map Message.untimed =
          ((e.handleAll (commands.filter (·.aggregateKey = k)) v).store.stream k).map
            Message.untimed := by
  refine ⟨fun command w hkey hne => stream_handle_of_ne he hkey hk hne w, ?_⟩
  intro commands w v hkeys hw hwcalm hv hvcalm
  refine agreeAt_handleAll he hk hkeys hwcalm hvcalm ?_
  rw [hw, hv]
  rfl

open ValueChanger in
/-- Two aggregates of the value changer, with a command to each of them that fails, one to an unknown
domain and one to an error log. -/
theorem aggregates_isolated_valueChanger :
    let set (id : Int64) (value : String) : Message :=
      { header := ⟨0, textHash32 uri, id, 0⟩, origin := [], timestamp := 0,
        typeId := typeIdOf .command (Text.lowercase "SetValue") 1,
        data := Json.encode (⟨value⟩ : SetValue) }
    let astray := { set 1 "a" with header := ⟨0, 5, 1, 0⟩ }
    let k : AggregateKey := ⟨textHash32 uri, 1⟩
    let w : World := .fresh .noop Int64.ofNat
    let v : World := .fresh (.channel []) fun _ => 7
    ∃ e, unattended "test/source" (fun n => Int64.ofNat n + 1) = .ok e ∧ e.SelfContained ∧
      k.domain ≠ textHash32 systemUri ∧
      (e.handle (set 2 "b") (e.handle (set 1 "a") w).2).2.store.stream k =
        (e.handle (set 1 "a") w).2.store.stream k ∧
      ((e.handleAll
          [set 1 "a", set 2 "b", set 1 "", astray, set 2 "b", diskFull, set 1 "c"] w).store.stream
            k).map Message.untimed =
        ((e.handleAll [set 1 "a", set 1 "", set 1 "c"] v).store.stream k).map Message.untimed := by
  intro set astray k w v
  have hbuilt : (unattended "test/source" fun n => Int64.ofNat n + 1).toOption.isSome = true := by
    decide +kernel
  obtain ⟨e, he⟩ := Option.isSome_iff_exists.1 hbuilt
  rw [toOption_eq_some_iff] at he
  have hself := selfContained_unattended he
  have hk : k.domain ≠ textHash32 systemUri := by decide +kernel
  have h := aggregates_isolated e hself hk
  have hfilter : [set 1 "a", set 2 "b", set 1 "", astray, set 2 "b", diskFull, set 1 "c"].filter
      (·.aggregateKey = k) = [set 1 "a", set 1 "", set 1 "c"] := by decide +kernel
  refine ⟨e, he, hself, hk, h.1 _ _ (unkeyed e _) ?_, ?_⟩
  · decide +kernel
  · rw [← hfilter]
    exact h.2 _ w v (fun c _ => unkeyed e c) rfl rfl rfl rfl

end Engine
end EventSourcing
