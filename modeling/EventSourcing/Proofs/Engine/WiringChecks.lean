import EventSourcing.Engine.Wiring
import EventSourcing.Proofs.Checked

/-! The checks of a call that wires a handler or a service. A call is checked against the registry and
against what is wired already. It is allowed if all its checks hold, and else the first one that does not
is reported. -/

namespace EventSourcing

variable {α σ : Type}

inductive WiringCheck
  | domainKnown (uri : String)
  | aggregateShared (uri aggregate : String)
  | unhandled (uri : String)
  | messageKnown (s : Subscription)
  | isEvent (s : Subscription)

def Subscription.checks (s : Subscription) : List WiringCheck :=
  [.domainKnown s.uri, .messageKnown s, .isEvent s]

def WiringStep.checks : WiringStep α σ → List WiringCheck
  | .handler uri h => [.domainKnown uri, .aggregateShared uri h.aggregate, .unhandled uri]
  | .service s => .domainKnown s.uri :: s.subscriptions.flatMap Subscription.checks

namespace Wiring

variable {w w' : Wiring α σ} {r : Registry α σ} {step : WiringStep α σ}

/-- When a check holds of a call that is made in the state `w`, and what is reported when it does
not. -/
def rules (w : Wiring α σ) (r : Registry α σ) : Rules WiringCheck WiringError where
  Holds
    | .domainKnown uri => ∃ d, r.domainByUri uri = some d
    | .aggregateShared uri aggregate =>
        ∀ d, r.domainByUri uri = some d → d.aggregate.fullName = aggregate
    | .unhandled uri => ∀ d, r.domainByUri uri = some d → w.handlers.get? d.shortId = none
    | .messageKnown s => ∀ d, r.domainByUri s.uri = some d → ∃ t, d.catalog.byName s.name = some t
    | .isEvent s => ∀ d t, r.domainByUri s.uri = some d → d.catalog.byName s.name = some t →
        t.kind = .event
  Reports
    | .domainKnown uri, error => error = .unknownDomain uri
    | .aggregateShared uri aggregate, error => ∃ d, r.domainByUri uri = some d ∧
        error = .aggregateMismatch d.uri d.aggregate.name (shortTypeName aggregate)
    | .unhandled uri, error => ∃ d, r.domainByUri uri = some d ∧ error = .duplicateHandler d.uri
    | .messageKnown s, error => ∃ d, r.domainByUri s.uri = some d ∧
        error = .unknownMessage d.uri s.name
    | .isEvent s, error => ∃ d t, r.domainByUri s.uri = some d ∧
        d.catalog.byName s.name = some t ∧ error = .notAnEvent t.canonicalName

/-- The call is valid in the state `w`. -/
def Allows (w : Wiring α σ) (r : Registry α σ) (step : WiringStep α σ) : Prop :=
  ∀ check ∈ step.checks, (w.rules r).Holds check

theorem decides_addHandler (w : Wiring α σ) (r : Registry α σ) (uri : String) (h : Handler α σ) :
    (w.rules r).Decides [.domainKnown uri, .aggregateShared uri h.aggregate, .unhandled uri]
      (w.addHandler r uri h).1 := by
  unfold addHandler
  split
  · next hnone =>
    refine .fail ?_ rfl
    rintro ⟨d, hd⟩
    rw [hnone] at hd
    cases hd
  next d hd =>
  have hunique : ∀ d', r.domainByUri uri = some d' → d' = d :=
    fun d' hd' => Option.some.inj (hd'.symm.trans hd)
  refine .cons ⟨d, hd⟩ ?_
  split
  · next hne => exact .fail (fun hshared => hne (hshared d hd)) ⟨d, hd, rfl⟩
  · next heq =>
    refine .cons (fun d' hd' => hunique d' hd' ▸ Decidable.not_not.1 heq) ?_
    split
    · next htaken =>
      refine .fail ?_ ⟨d, hd, rfl⟩
      intro hfree
      simp [Table.contains, hfree d hd] at htaken
    · next hfree =>
      refine .cons (fun d' hd' => hunique d' hd' ▸ ?_) (.ok _)
      simpa [Table.contains] using hfree

theorem decides_resolve (w : Wiring α σ) (r : Registry α σ) (s : Subscription) :
    (w.rules r).Decides s.checks (resolve r s) := by
  unfold resolve Subscription.checks
  dsimp only
  split
  case h_2 hnone =>
    refine .fail ?_ rfl
    rintro ⟨d, hd⟩
    exact hnone d hd
  next d hd =>
  have hunique : ∀ d', r.domainByUri s.uri = some d' → d' = d :=
    fun d' hd' => Option.some.inj (hd'.symm.trans hd)
  refine .cons ⟨d, hd⟩ ?_
  split
  case h_2 hnone =>
    refine .fail ?_ ⟨d, hd, rfl⟩
    intro hknown
    obtain ⟨t, ht⟩ := hknown d hd
    exact hnone t ht
  next t ht =>
  refine .cons (fun d' hd' => hunique d' hd' ▸ ⟨t, ht⟩) ?_
  split
  · next hcommand =>
    refine .fail ?_ ⟨d, t, hd, ht, rfl⟩
    intro hevent
    simp [MessageType.isCommand, hevent d t hd ht] at hcommand
  · next hevent =>
    refine .cons ?_ (.ok _)
    intro d' t' hd' ht'
    obtain rfl := hunique d' hd'
    obtain rfl := Option.some.inj (ht'.symm.trans ht)
    cases hkind : t'.kind with
    | event => rfl
    | command => simp [MessageType.isCommand, hkind] at hevent

theorem decides_addService (w : Wiring α σ) (r : Registry α σ) (s : Service α) :
    (w.rules r).Decides (.domainKnown s.uri :: s.subscriptions.flatMap Subscription.checks)
      (w.addService r s).1 := by
  unfold addService
  split
  · next hnone =>
    refine .fail ?_ rfl
    rintro ⟨d, hd⟩
    simp [hd] at hnone
  · next hsome =>
    refine .cons (Option.ne_none_iff_exists'.1 fun h => hsome (Option.isNone_iff_eq_none.2 h)) ?_
    have hchecked : (w.rules r).Decides (s.subscriptions.flatMap Subscription.checks)
        (s.subscriptions.mapM (resolve r)) := .mapM fun x _ => w.decides_resolve r x
    split
    · next he =>
      rw [he] at hchecked
      exact hchecked
    · next hok =>
      rw [hok] at hchecked
      exact hchecked

theorem decides_add (w : Wiring α σ) (r : Registry α σ) (step : WiringStep α σ) :
    (w.rules r).Decides step.checks (w.add r step).1 := by
  cases step with
  | handler uri h => exact w.decides_addHandler r uri h
  | service s => exact w.decides_addService r s

theorem add_eq_ok_iff_allows : (∃ w', w.add r step = (.ok (), w')) ↔ w.Allows r step := by
  refine Iff.trans ?_ (w.decides_add r step).exists_ok_iff
  refine ⟨fun ⟨_, h⟩ => ⟨(), congrArg Prod.fst h⟩, ?_⟩
  rintro ⟨⟨⟩, h⟩
  exact ⟨_, Prod.ext h rfl⟩

theorem reports_unique (check : WiringCheck) (error error' : WiringError)
    (h : (w.rules r).Reports check error) (h' : (w.rules r).Reports check error') :
    error = error' := by
  cases check with
  | domainKnown uri => exact Eq.trans h (Eq.symm h')
  | isEvent s =>
    obtain ⟨d, t, hd, ht, rfl⟩ := h
    obtain ⟨d', t', hd', ht', rfl⟩ := h'
    obtain rfl := Option.some.inj (hd.symm.trans hd')
    obtain rfl := Option.some.inj (ht.symm.trans ht')
    rfl
  | _ =>
    obtain ⟨d, hd, rfl⟩ := h
    obtain ⟨d', hd', rfl⟩ := h'
    obtain rfl := Option.some.inj (hd.symm.trans hd')
    rfl

end Wiring
end EventSourcing
