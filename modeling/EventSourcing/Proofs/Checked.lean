import EventSourcing.Proofs.Fault

/-! Computations that make checks in a fixed order. Such a computation ends in a value if all checks
hold, and else in an error that reports the first one that does not. A computation made of several
steps makes the checks of the first step, and then those of the following ones. -/

namespace EventSourcing

structure Rules (χ ε : Type) where
  Holds : χ → Prop
  Reports : χ → ε → Prop

namespace Rules

variable {χ ε β γ : Type}

/-- The first check that does not hold is reported by `error`. -/
def FirstFailure (rules : Rules χ ε) (checks : List χ) (error : ε) : Prop :=
  ∃ before check after, checks = before ++ check :: after ∧ (∀ c ∈ before, rules.Holds c) ∧
    ¬ rules.Holds check ∧ rules.Reports check error

/-- The computation ends as the checks in their order say. -/
def Decides (rules : Rules χ ε) (checks : List χ) : Except ε β → Prop
  | .ok _ => ∀ c ∈ checks, rules.Holds c
  | .error error => rules.FirstFailure checks error

variable {rules : Rules χ ε} {check : χ} {checks later : List χ} {error error' : ε}

theorem firstFailure_cons_iff :
    rules.FirstFailure (check :: checks) error ↔
      ¬ rules.Holds check ∧ rules.Reports check error ∨
        rules.Holds check ∧ rules.FirstFailure checks error := by
  refine ⟨?_, ?_⟩
  · rintro ⟨before, failed, after, h, hbefore, hfailed, hreports⟩
    cases before with
    | nil =>
      obtain ⟨rfl, -⟩ := List.cons.inj h
      exact .inl ⟨hfailed, hreports⟩
    | cons first before =>
      obtain ⟨rfl, rfl⟩ := List.cons.inj h
      obtain ⟨hfirst, hbefore⟩ := List.forall_mem_cons.1 hbefore
      exact .inr ⟨hfirst, before, failed, after, rfl, hbefore, hfailed, hreports⟩
  · rintro (⟨hfailed, hreports⟩ | ⟨hfirst, before, failed, after, rfl, hbefore, hfailed, hreports⟩)
    · exact ⟨[], check, checks, rfl, nofun, hfailed, hreports⟩
    · exact ⟨check :: before, failed, after, rfl, List.forall_mem_cons.2 ⟨hfirst, hbefore⟩, hfailed,
        hreports⟩

theorem FirstFailure.append (h : rules.FirstFailure checks error) (later : List χ) :
    rules.FirstFailure (checks ++ later) error := by
  obtain ⟨before, failed, after, rfl, hfailed⟩ := h
  exact ⟨before, failed, after ++ later, List.append_assoc .., hfailed⟩

theorem FirstFailure.unique
    (hunique : ∀ c error error', rules.Reports c error → rules.Reports c error' → error = error')
    (h : rules.FirstFailure checks error) (h' : rules.FirstFailure checks error') :
    error = error' := by
  induction checks with
  | nil =>
    obtain ⟨before, _, _, hnil, -⟩ := h
    simp at hnil
  | cons check checks ih =>
    rcases firstFailure_cons_iff.1 h with ⟨hfailed, hreports⟩ | ⟨hholds, h⟩
    · rcases firstFailure_cons_iff.1 h' with ⟨-, hreports'⟩ | ⟨hholds, -⟩
      · exact hunique check error error' hreports hreports'
      · exact absurd hholds hfailed
    · rcases firstFailure_cons_iff.1 h' with ⟨hfailed, -⟩ | ⟨-, h'⟩
      · exact absurd hholds hfailed
      · exact ih h h'

theorem FirstFailure.not_holds (h : rules.FirstFailure checks error) :
    ¬ ∀ c ∈ checks, rules.Holds c := by
  obtain ⟨before, failed, after, rfl, -, hfailed, -⟩ := h
  intro hholds
  exact hfailed (hholds failed (by simp))

namespace Decides

variable {x : Except ε β}

theorem ok (b : β) : rules.Decides [] (.ok b : Except ε β) := nofun

theorem fail (h : ¬ rules.Holds check) (hreports : rules.Reports check error) :
    rules.Decides (check :: checks) (.error error : Except ε β) :=
  ⟨[], check, checks, rfl, nofun, h, hreports⟩

theorem cons (h : rules.Holds check) (hx : rules.Decides checks x) :
    rules.Decides (check :: checks) x := by
  cases x with
  | ok b => exact List.forall_mem_cons.2 ⟨h, hx⟩
  | error error => exact firstFailure_cons_iff.2 (.inr ⟨h, hx⟩)

theorem bind (hx : rules.Decides checks x) {f : β → Except ε γ}
    (hf : ∀ b, x = .ok b → rules.Decides later (f b)) :
    rules.Decides (checks ++ later) (x >>= f) := by
  cases x with
  | error error => exact FirstFailure.append hx later
  | ok b =>
    have hlater := hf b rfl
    show rules.Decides (checks ++ later) (f b)
    induction checks with
    | nil => exact hlater
    | cons check checks ih =>
      obtain ⟨hcheck, hx⟩ := List.forall_mem_cons.1 hx
      exact cons hcheck (ih hx)

theorem mapM {items : List γ} {checksOf : γ → List χ} {f : γ → Except ε β}
    (h : ∀ item ∈ items, rules.Decides (checksOf item) (f item)) :
    rules.Decides (items.flatMap checksOf) (items.mapM f) := by
  induction items with
  | nil => exact .ok []
  | cons item rest ih =>
    obtain ⟨hitem, hrest⟩ := List.forall_mem_cons.1 h
    rw [List.mapM_cons, List.flatMap_cons]
    refine hitem.bind fun b _ => ?_
    rw [← List.append_nil (rest.flatMap checksOf)]
    exact (ih hrest).bind fun bs _ => .ok (b :: bs)

theorem exists_ok_iff (hx : rules.Decides checks x) :
    (∃ b, x = .ok b) ↔ ∀ c ∈ checks, rules.Holds c := by
  cases x with
  | ok b => exact ⟨fun _ => hx, fun _ => ⟨b, rfl⟩⟩
  | error error =>
    refine ⟨?_, fun h => absurd h hx.not_holds⟩
    rintro ⟨b, h⟩
    cases h

theorem error_iff (hx : rules.Decides checks x)
    (hunique : ∀ c error error', rules.Reports c error → rules.Reports c error' → error = error') :
    x = .error error ↔ rules.FirstFailure checks error := by
  cases x with
  | ok b =>
    refine ⟨nofun, ?_⟩
    intro h
    exact absurd hx h.not_holds
  | error error' =>
    refine ⟨?_, ?_⟩
    · intro h
      cases h
      exact hx
    · intro h
      exact congrArg Except.error (FirstFailure.unique hunique hx h)

end Decides
end Rules
end EventSourcing
