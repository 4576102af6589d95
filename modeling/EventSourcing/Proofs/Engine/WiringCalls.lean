import Mathlib.Data.List.Induction
import EventSourcing.Proofs.Engine.Minimal
import EventSourcing.Proofs.Engine.Wired
import EventSourcing.Proofs.Engine.WiringChecks
import EventSourcing.ValueChanger.Domain

/-! Sequences of wiring calls. Each call is judged by the state that the calls before it leave. One that is
not valid adds nothing, but the wiring goes on without it, and the first such call is reported in the end.
What is wired then are the handlers of the calls, one to a domain. -/

namespace EventSourcing

variable {α σ : Type}

def WiringStep.handlerFor? (r : Registry α σ) (shortId : Int32) :
    WiringStep α σ → Option (Handler α σ)
  | .handler uri h => if (r.domainByUri uri).map Domain.shortId = some shortId then some h else none
  | .service _ => none

theorem WiringStep.handlerFor?_handler {r : Registry α σ} {uri : String} {d : Domain α σ}
    (hd : r.domainByUri uri = some d) (h : Handler α σ) (shortId : Int32) :
    (WiringStep.handler uri h).handlerFor? r shortId = if d.shortId = shortId then some h else none := by
  unfold handlerFor?
  simp [hd]

namespace Wiring

variable {w w' : Wiring α σ} {r : Registry α σ} {step : WiringStep α σ}

section Calls

variable [Content α] {steps : List (WiringStep α σ)} {error error' : WiringError}

variable (r steps) in
def after : WiringBuilder α σ := steps.foldl (·.add r ·) (.start r)

variable (r steps) in
def wired : Wiring α σ := (after r steps).wiring

variable (r steps) in
/-- Each call is valid in the state that the calls before it leave. -/
def Valid : Prop := ∀ before step, before ++ [step] <+: steps → (wired r before).Allows r step

variable (r steps error) in
/-- The error is that of the first check that fails in the first call that is not valid in the state
that the calls before it leave. -/
def FirstInvalid : Prop :=
  ∃ before step, before ++ [step] <+: steps ∧ Valid r before ∧
    ((wired r before).rules r).FirstFailure step.checks error

theorem after_concat : after r (steps ++ [step]) = (after r steps).add r step := by
  unfold after
  rw [List.foldl_append]
  rfl

theorem Valid.before {steps' : List (WiringStep α σ)} (h : Valid r steps) (hp : steps' <+: steps) :
    Valid r steps' :=
  fun before step hbefore => h before step (hbefore.trans hp)

theorem valid_nil : Valid r ([] : List (WiringStep α σ)) := by
  intro before step hbefore
  simp at hbefore

theorem valid_concat_iff : Valid r (steps ++ [step]) ↔ Valid r steps ∧ (wired r steps).Allows r step := by
  refine ⟨?_, ?_⟩
  · intro h
    exact ⟨h.before (List.prefix_append _ _), h steps step (List.prefix_refl _)⟩
  · rintro ⟨hsteps, hstep⟩ before x hbefore
    rcases List.prefix_concat_iff.1 hbefore with heq | hbefore
    · obtain ⟨rfl, hx⟩ := List.append_inj' heq rfl
      obtain rfl := List.head_eq_of_cons_eq hx
      exact hstep
    · exact hsteps before x hbefore

theorem FirstInvalid.append (h : FirstInvalid r steps error) (later : List (WiringStep α σ)) :
    FirstInvalid r (steps ++ later) error := by
  obtain ⟨before, step, hbefore, hfirst⟩ := h
  exact ⟨before, step, hbefore.trans (List.prefix_append _ _), hfirst⟩

theorem FirstInvalid.not_valid (h : FirstInvalid r steps error) : ¬ Valid r steps := by
  obtain ⟨before, step, hbefore, -, hfailure⟩ := h
  exact fun hvalid => hfailure.not_holds (hvalid before step hbefore)

/-- A call that is not valid has no place among calls that are, so it can only be the last one. -/
theorem Valid.eq_of_last {before : List (WiringStep α σ)} {last : WiringStep α σ}
    (hvalid : Valid r steps) (hinvalid : ¬ (wired r before).Allows r step)
    (hp : before ++ [step] <+: steps ++ [last]) : before ++ [step] = steps ++ [last] := by
  rcases List.prefix_concat_iff.1 hp with heq | hp
  · exact heq
  · exact absurd (hvalid before step hp) hinvalid

/-- There is one first call that is not valid. -/
theorem FirstInvalid.unique (h : FirstInvalid r steps error) (h' : FirstInvalid r steps error') :
    error = error' := by
  obtain ⟨before, step, hbefore, hvalid, hfailure⟩ := h
  obtain ⟨before', step', hbefore', hvalid', hfailure'⟩ := h'
  have heq : before ++ [step] = before' ++ [step'] := by
    rcases List.prefix_or_prefix_of_prefix hbefore hbefore' with hp | hp
    · exact hvalid'.eq_of_last hfailure.not_holds hp
    · exact (hvalid.eq_of_last hfailure'.not_holds hp).symm
  obtain ⟨rfl, hstep⟩ := List.append_inj' heq rfl
  obtain rfl := List.head_eq_of_cons_eq hstep
  exact hfailure.unique (fun _ _ _ => reports_unique _ _ _) hfailure'

/-- A call that is not valid changes nothing. -/
theorem wired_of_not_allows (h : ¬ (wired r steps).Allows r step) :
    wired r (steps ++ [step]) = wired r steps := by
  unfold wired at h ⊢
  rw [after_concat]
  unfold WiringBuilder.add
  rcases (after r steps).wiring.add_cases r step with ⟨w', hadd⟩ | ⟨error, hadd⟩
  · exact absurd (add_eq_ok_iff_allows.1 ⟨w', hadd⟩) h
  · rw [hadd]

theorem add_wired_of_allows (h : (wired r steps).Allows r step) :
    (wired r steps).add r step = (.ok (), wired r (steps ++ [step])) := by
  obtain ⟨w', hadd⟩ := add_eq_ok_iff_allows.2 h
  rw [hadd]
  unfold wired at hadd ⊢
  rw [after_concat]
  unfold WiringBuilder.add
  rw [hadd]

variable (r steps) in
/-- The error that a builder holds is that of the first invalid call, and there is none only if all
calls are valid. -/
def Verdict : Option WiringError → Prop
  | none => Valid r steps
  | some error => FirstInvalid r steps error

omit [Content α] in
theorem error_add (b : WiringBuilder α σ) (r : Registry α σ) (step : WiringStep α σ) :
    (b.add r step).error =
      b.error.or (match (b.wiring.add r step).1 with | .ok _ => none | .error e => some e) := by
  unfold WiringBuilder.add
  rcases b.wiring.add r step with ⟨_ | _, w'⟩
  · rfl
  · exact (Option.or_none).symm

theorem verdict_after (hr : r.Built) (steps : List (WiringStep α σ)) :
    Verdict r steps (after r steps).error := by
  induction steps using List.reverseRecOn with
  | nil =>
    unfold after
    rw [List.foldl_nil, start_of_built hr]
    exact valid_nil
  | append_singleton steps step ih =>
    rw [after_concat, error_add]
    cases herror : (after r steps).error with
    | some error =>
      rw [herror] at ih
      exact FirstInvalid.append ih [step]
    | none =>
      rw [herror] at ih
      rw [Option.none_or]
      have hdecides := decides_add (after r steps).wiring r step
      rcases (after r steps).wiring.add_cases r step with ⟨w', hadd⟩ | ⟨error, hadd⟩
      · rw [hadd]
        exact valid_concat_iff.2 ⟨ih, add_eq_ok_iff_allows.1 ⟨w', hadd⟩⟩
      · rw [hadd] at hdecides ⊢
        exact ⟨steps, step, List.prefix_refl _, ih, hdecides⟩

theorem build_eq_error_iff (hr : r.Built) : build r steps = .error error ↔ FirstInvalid r steps error := by
  have hverdict := verdict_after hr steps
  show (after r steps).build = .error error ↔ _
  unfold WiringBuilder.build
  cases herror : (after r steps).error with
  | none =>
    rw [herror] at hverdict
    exact ⟨nofun, fun h => absurd hverdict h.not_valid⟩
  | some e =>
    rw [herror] at hverdict
    refine ⟨?_, ?_⟩
    · intro h
      cases h
      exact hverdict
    · intro h
      exact congrArg Except.error (FirstInvalid.unique hverdict h)

theorem build_eq_ok_iff (hr : r.Built) : build r steps = .ok w ↔ Valid r steps ∧ w = wired r steps := by
  have hverdict := verdict_after hr steps
  show (after r steps).build = .ok w ↔ _
  unfold WiringBuilder.build
  cases herror : (after r steps).error with
  | none =>
    rw [herror] at hverdict
    refine ⟨?_, ?_⟩
    · intro h
      cases h
      exact ⟨hverdict, rfl⟩
    · rintro ⟨-, rfl⟩
      rfl
  | some e =>
    rw [herror] at hverdict
    exact ⟨nofun, fun h => absurd h.1 hverdict.not_valid⟩

theorem exists_build_eq_error_iff (hr : r.Built) :
    (∃ error, build r steps = .error error) ↔
      ∃ before step, before ++ [step] <+: steps ∧ ¬ (wired r before).Allows r step := by
  have hnot : (∃ error, build r steps = .error error) ↔ ¬ Valid r steps := by
    refine ⟨?_, ?_⟩
    · rintro ⟨error, h⟩
      exact ((build_eq_error_iff hr).1 h).not_valid
    · intro h
      cases hbuild : build r steps with
      | ok w => exact absurd ((build_eq_ok_iff hr).1 hbuild).1 h
      | error error => exact ⟨error, rfl⟩
  rw [hnot]
  unfold Valid
  push Not
  rfl

end Calls

section Handlers

theorem handlers_add (h : w.add r step = (.ok (), w')) (shortId : Int32) :
    (w'.handlers.get? shortId).toList =
      (w.handlers.get? shortId).toList ++ (step.handlerFor? r shortId).toList := by
  cases step with
  | handler uri handler =>
    obtain ⟨d, hd, rfl⟩ := exists_of_addHandler h
    have hallows := add_eq_ok_iff_allows.1 ⟨_, h⟩
    have hfree : w.handlers.get? d.shortId = none :=
      hallows (.unhandled uri) (by simp [WiringStep.checks]) d hd
    rw [Table.get?_insert, WiringStep.handlerFor?_handler hd]
    by_cases hk : d.shortId = shortId
    · rw [if_pos hk, if_pos hk, ← hk, hfree]
      rfl
    · rw [if_neg hk, if_neg hk]
      exact (List.append_nil _).symm
  | service s =>
    obtain ⟨-, _, -, rfl⟩ := exists_of_addService h
    exact (List.append_nil _).symm

/-- The handlers stand at domains whose aggregate types are theirs. -/
def Typed (r : Registry α σ) (w : Wiring α σ) : Prop :=
  ∀ shortId h, w.handlers.get? shortId = some h →
    ∃ d, r.domain shortId = some d ∧ d.aggregate.fullName = h.aggregate

theorem typed_empty : (empty : Wiring α σ).Typed r := nofun

theorem Typed.add (hw : w.Typed r) (hr : r.Built) (h : w.add r step = (.ok (), w')) : w'.Typed r := by
  cases step with
  | handler uri handler =>
    obtain ⟨d, hd, rfl⟩ := exists_of_addHandler h
    have hallows := add_eq_ok_iff_allows.1 ⟨_, h⟩
    have hshared : d.aggregate.fullName = handler.aggregate :=
      hallows (.aggregateShared uri handler.aggregate) (by simp [WiringStep.checks]) d hd
    intro shortId x hx
    rw [Table.get?_insert] at hx
    split at hx
    · next hk =>
      cases hx
      exact ⟨d, hk ▸ (hr.filed.domain_shortId hd).1, hshared⟩
    · exact hw shortId x hx
  | service s =>
    obtain ⟨-, _, -, rfl⟩ := exists_of_addService h
    exact hw

variable [Content α] {steps : List (WiringStep α σ)}

theorem typed_of_build (hr : r.Built) (h : build r steps = .ok w) : w.Typed r :=
  build_induction h typed_empty fun _ _ _ _ hw hadd => hw.add hr hadd

theorem wired_nil (hr : r.Built) : wired r [] = minimal :=
  congrArg WiringBuilder.wiring (start_of_built hr)

/-- What valid calls have wired at a domain are their handlers for it, besides that of the system domain
itself. -/
theorem handlers_wired (hr : r.Built) (hvalid : Valid r steps) (shortId : Int32) :
    ((wired r steps).handlers.get? shortId).toList =
      (if textHash32 systemUri = shortId then [systemHandler] else []) ++
        steps.filterMap (·.handlerFor? r shortId) := by
  induction steps using List.reverseRecOn with
  | nil =>
    rw [wired_nil hr, List.filterMap_nil, List.append_nil]
    unfold minimal
    rw [Table.get?_insert]
    split
    · rfl
    · rfl
  | append_singleton steps step ih =>
    obtain ⟨hsteps, hstep⟩ := valid_concat_iff.1 hvalid
    rw [handlers_add (add_wired_of_allows hstep) shortId, ih hsteps, List.append_assoc,
      List.filterMap_append, List.filterMap_cons]
    cases step.handlerFor? r shortId with
    | none => rfl
    | some h => rfl

end Handlers

/-- Building fails just if some call is not valid in the state that the calls before it leave, and it
reports what the first such call fails. A call that is not valid leaves all that is wired as it is. What is
built in the end has the handler of the system domain, and at each other domain the one handler that was
wired to it, if any. All handlers take the states of their domains. -/
theorem build_reports_first_invalid [Content α] (r : Registry α σ) (hr : r.Built)
    (steps : List (WiringStep α σ)) :
    ((∃ error, build r steps = .error error) ↔
        ∃ before step, before ++ [step] <+: steps ∧ ¬ (wired r before).Allows r step) ∧
      (∀ error, build r steps = .error error ↔ FirstInvalid r steps error) ∧
      (∀ before step, before ++ [step] <+: steps → ¬ (wired r before).Allows r step →
        wired r (before ++ [step]) = wired r before) ∧
      ∀ w, build r steps = .ok w → w = wired r steps ∧
        w.handlers.get? (textHash32 systemUri) = some systemHandler ∧
        (∀ shortId, shortId ≠ textHash32 systemUri →
          (w.handlers.get? shortId).toList = steps.filterMap (·.handlerFor? r shortId)) ∧
        ∀ shortId h, w.handlers.get? shortId = some h →
          ∃ d, r.domain shortId = some d ∧ d.aggregate.fullName = h.aggregate := by
  refine ⟨exists_build_eq_error_iff hr, fun error => build_eq_error_iff hr,
    fun before step _ => wired_of_not_allows, ?_⟩
  intro w hw
  obtain ⟨hvalid, rfl⟩ := (build_eq_ok_iff hr).1 hw
  refine ⟨rfl, ?_, ?_, typed_of_build hr hw⟩
  · have hsystem := handlers_wired hr hvalid (textHash32 systemUri)
    rw [if_pos rfl] at hsystem
    cases hget : (wired r steps).handlers.get? (textHash32 systemUri) with
    | none => simp [hget] at hsystem
    | some h =>
      rw [hget] at hsystem
      exact congrArg some (List.head_eq_of_cons_eq hsystem)
  · intro shortId hne
    rw [handlers_wired hr hvalid, if_neg (Ne.symm hne), List.nil_append]

def overhearing : Service ValueChanger.Change where
  name := "overhearing"
  uri := systemUri
  subscriptions := [⟨systemUri, "ErrorRaised"⟩, ⟨systemUri, "RaiseError"⟩]
  react _ _ := .done

/-- A service that is refused at its last subscription leaves none behind, and is reported before a
second handler. -/
theorem build_reports_first_invalid_subscription :
    let r : Registry ValueChanger.Change ValueChanger.Value := .minimal "test/source"
    let steps : List (WiringStep ValueChanger.Change ValueChanger.Value) :=
      [.service overhearing, .handler systemUri systemHandler]
    r.Built ∧ ¬ (wired r []).Allows r (.service overhearing) ∧
      wired r [.service overhearing] = wired r [] ∧
      build r steps = .error (.notAnEvent "raiseerror_v1") := by
  intro r steps
  have hr : r.Built := Registry.built_minimal "test/source"
  have hsystem : r.domainByUri systemUri = some systemDomain := hr.domainByUri_system
  have hunique : ∀ d, r.domainByUri systemUri = some d → d = systemDomain :=
    fun d hd => Option.some.inj (hd.symm.trans hsystem)
  have hcommand : (systemDomain : Domain ValueChanger.Change ValueChanger.Value).catalog.byName
      "RaiseError" = some raiseErrorEntry := by
    rw [catalog_systemDomain]
    rfl
  have hname : "raiseerror_v1" =
      (raiseErrorEntry : MessageType ValueChanger.Change).canonicalName := by decide +kernel
  have hfailure : ((wired r []).rules r).FirstFailure
      (WiringStep.service overhearing : WiringStep _ ValueChanger.Value).checks
      (.notAnEvent "raiseerror_v1") := by
    refine ⟨[.domainKnown systemUri, .domainKnown systemUri, .messageKnown ⟨systemUri, "ErrorRaised"⟩,
      .isEvent ⟨systemUri, "ErrorRaised"⟩, .domainKnown systemUri,
      .messageKnown ⟨systemUri, "RaiseError"⟩], .isEvent ⟨systemUri, "RaiseError"⟩, [], rfl, ?_, ?_, ?_⟩
    · intro check hcheck
      simp only [List.mem_cons, List.not_mem_nil, or_false] at hcheck
      rcases hcheck with rfl | rfl | rfl | rfl | rfl | rfl
      · exact ⟨_, hsystem⟩
      · exact ⟨_, hsystem⟩
      · exact fun d hd => ⟨_, hunique d hd ▸ byName_errorRaised⟩
      · intro d t hd ht
        rw [hunique d hd, byName_errorRaised] at ht
        rw [← Option.some.inj ht]
        rfl
      · exact ⟨_, hsystem⟩
      · exact fun d hd => ⟨_, hunique d hd ▸ hcommand⟩
    · intro hevent
      cases hevent _ _ hsystem hcommand
    · exact ⟨_, _, hsystem, hcommand, congrArg WiringError.notAnEvent hname⟩
  have hinvalid : ¬ (wired r []).Allows r (.service overhearing) := hfailure.not_holds
  obtain ⟨-, herror, hunchanged, -⟩ := build_reports_first_invalid r hr steps
  have hfirst : [] ++ [WiringStep.service overhearing] <+: steps := List.prefix_append _ _
  exact ⟨hr, hinvalid, hunchanged [] _ hfirst hinvalid,
    (herror _).2 ⟨[], _, hfirst, valid_nil, hfailure⟩⟩

end Wiring
end EventSourcing
