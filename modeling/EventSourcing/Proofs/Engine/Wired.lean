import EventSourcing.Engine.Wiring
import EventSourcing.Proofs.Fault

/-! Built wirings. A wiring comes about step by step from the empty one, the handler of the system
domain first, so what every allowed step keeps holds of it. Each of its handlers was wired at a URI
of the domain that it handles the commands of. -/

namespace EventSourcing

variable {α σ : Type} {r : Registry α σ} {w w' : Wiring α σ} {steps : List (WiringStep α σ)}

namespace Wiring

theorem exists_of_addHandler {uri : String} {h : Handler α σ}
    (hadd : w.addHandler r uri h = (.ok (), w')) :
    ∃ d, r.domainByUri uri = some d ∧
      w' = { w with handlers := w.handlers.insert d.shortId h } := by
  unfold addHandler at hadd
  split at hadd
  · cases hadd
  next d hd =>
  split at hadd
  · cases hadd
  split at hadd
  · cases hadd
  · cases hadd
    exact ⟨d, hd, rfl⟩

/-- A service that is wired belongs to a domain and comes last, and its place is entered under each event
type that one of its subscriptions resolves to. -/
theorem exists_of_addService {s : Service α} (hadd : w.addService r s = (.ok (), w')) :
    (r.domainByUri s.uri).isSome = true ∧ ∃ types, s.subscriptions.mapM (resolve r) = .ok types ∧
      w' = { w with
        services := w.services ++ [s]
        subscribers := types.foldl (subscribe · w.services.length ·) w.subscribers } := by
  unfold addService at hadd
  split at hadd
  · cases hadd
  next hhome =>
  split at hadd
  · cases hadd
  next types htypes =>
  cases hadd
  exact ⟨Option.isSome_iff_ne_none.2 fun h => hhome (Option.isNone_iff_eq_none.2 h), types, htypes, rfl⟩

/-- A step that is not allowed is found out before anything is wired, a service at any of its
subscriptions. -/
theorem add_cases (w : Wiring α σ) (r : Registry α σ) (step : WiringStep α σ) :
    (∃ w', w.add r step = (.ok (), w')) ∨ ∃ error, w.add r step = (.error error, w) := by
  cases step with
  | handler uri h =>
    show (∃ w', w.addHandler r uri h = _) ∨ ∃ error, w.addHandler r uri h = _
    unfold addHandler
    split
    · exact .inr ⟨_, rfl⟩
    split
    · exact .inr ⟨_, rfl⟩
    split
    · exact .inr ⟨_, rfl⟩
    · exact .inl ⟨_, rfl⟩
  | service s =>
    show (∃ w', w.addService r s = _) ∨ ∃ error, w.addService r s = _
    unfold addService
    split
    · exact .inr ⟨_, rfl⟩
    split
    · exact .inr ⟨_, rfl⟩
    · exact .inl ⟨_, rfl⟩

end Wiring

/-- What every allowed step keeps is kept by all steps: the others change nothing. -/
theorem WiringBuilder.foldl_add_induction {P : Wiring α σ → Prop} {b : WiringBuilder α σ}
    (start : P b.wiring) (step : ∀ w w', ∀ s ∈ steps, P w → w.add r s = (.ok (), w') → P w') :
    P (steps.foldl (·.add r ·) b).wiring := by
  refine List.foldlRecOn steps (fun (b : WiringBuilder α σ) s => b.add r s)
    (motive := fun b => P b.wiring) start ?_
  intro b hb s hs
  unfold add
  rcases b.wiring.add_cases r s with ⟨w', h⟩ | ⟨error, h⟩
  · rw [h]
    exact step b.wiring w' s hs hb h
  · rw [h]
    exact hb

variable [Content α]

namespace Wiring

theorem build_induction {P : Wiring α σ → Prop} (h : build r steps = .ok w) (start : P .empty)
    (step : ∀ w w', ∀ s ∈ .handler systemUri systemHandler :: steps,
      P w → w.add r s = (.ok (), w') → P w') : P w := by
  have hsteps := WiringBuilder.foldl_add_induction (b := ⟨.empty, none⟩) start step
  rw [List.foldl_cons] at hsteps
  unfold build WiringBuilder.build at h
  split at h
  · cases h
  · cases h
    exact hsteps

/-- Each handler was wired in one of the steps. -/
def WiredBy (r : Registry α σ) (steps : List (WiringStep α σ)) (w : Wiring α σ) : Prop :=
  ∀ domain h, w.handlers.get? domain = some h →
    ∃ uri d, .handler uri h ∈ steps ∧ r.domainByUri uri = some d ∧ d.shortId = domain

omit [Content α] in
theorem WiredBy.add (hw : w.WiredBy r steps) {step : WiringStep α σ} (hstep : step ∈ steps)
    (h : w.add r step = (.ok (), w')) : w'.WiredBy r steps := by
  cases step with
  | handler uri handler =>
    obtain ⟨d, hd, rfl⟩ := exists_of_addHandler h
    intro domain x hx
    rw [Table.get?_insert] at hx
    split at hx
    · next hdomain =>
      cases hx
      exact ⟨uri, d, hstep, hd, hdomain⟩
    · exact hw domain x hx
  | service s =>
    obtain ⟨-, _, -, rfl⟩ := exists_of_addService h
    exact hw

theorem wiredBy_of_build (h : build r steps = .ok w) :
    w.WiredBy r (.handler systemUri systemHandler :: steps) :=
  build_induction h nofun fun _ _ _ hs hw hadd => hw.add hs hadd

end Wiring
end EventSourcing
