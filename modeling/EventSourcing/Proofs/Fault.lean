import EventSourcing.Fault
import Mathlib.Data.List.Forall2

/-! Computations that may fail, taken apart: one step after another ends in a value
just when both of them do. -/

namespace EventSourcing

variable {ε δ α β : Type}

theorem bind_eq_ok_iff {x : Except ε α} {f : α → Except ε β} {b : β} :
    (x >>= f) = .ok b ↔ ∃ a, x = .ok a ∧ f a = .ok b := by
  cases x with
  | error e => simp [bind, Except.bind]
  | ok a => simp [bind, Except.bind]

theorem map_eq_ok_iff {x : Except ε α} {f : α → β} {b : β} :
    x.map f = .ok b ↔ ∃ a, x = .ok a ∧ f a = b := by
  cases x with
  | error e => simp [Except.map]
  | ok a => simp [Except.map]

theorem mapError_eq_ok_iff {x : Except ε α} {f : ε → δ} {a : α} :
    x.mapError f = .ok a ↔ x = .ok a := by
  cases x with
  | error e =>
    refine ⟨?_, ?_⟩
    · intro h
      cases h
    · intro h
      cases h
  | ok b =>
    refine ⟨?_, ?_⟩
    · intro h
      cases h
      rfl
    · intro h
      cases h
      rfl

theorem exists_eq_ok_of_isOk {x : Except ε α} (h : x.isOk = true) : ∃ a, x = .ok a := by
  cases x with
  | error e => cases h
  | ok a => exact ⟨a, rfl⟩

theorem toOption_eq_some_iff {x : Except ε α} {a : α} : x.toOption = some a ↔ x = .ok a := by
  cases x with
  | error e => simp [Except.toOption]
  | ok b => simp [Except.toOption]

theorem ofExcept_eq_ok_iff {x : Except ε α} {a : α} : Attempt.ofExcept x = .ok a ↔ x = .ok a := by
  cases x with
  | error e => simp [Attempt.ofExcept, refuse]
  | ok b => simp [Attempt.ofExcept]

/-- Ordinary errors are no panics. -/
theorem ofExcept_ne_panic {x : Except ε α} {q : Panic} : Attempt.ofExcept x ≠ .error (.panic q) := by
  cases x with
  | error e => simp [Attempt.ofExcept, refuse]
  | ok b => simp [Attempt.ofExcept]

theorem exists_mapM_eq_ok {f : α → Except ε β} {l : List α} (h : ∀ a ∈ l, ∃ b, f a = .ok b) :
    ∃ l', l.mapM f = .ok l' := by
  induction l with
  | nil => exact ⟨[], rfl⟩
  | cons a rest ih =>
    obtain ⟨b, hb⟩ := h a List.mem_cons_self
    obtain ⟨tail, htail⟩ := ih fun x hx => h x (List.mem_cons_of_mem a hx)
    refine ⟨b :: tail, ?_⟩
    rw [List.mapM_cons, hb, htail]
    rfl

/-- A list is mapped to another just if each element is mapped to the one in its place. -/
theorem mapM_eq_ok_iff_forall₂ {f : α → Except ε β} {l : List α} {l' : List β} :
    l.mapM f = .ok l' ↔ List.Forall₂ (fun a b => f a = .ok b) l l' := by
  induction l generalizing l' with
  | nil =>
    rw [List.forall₂_nil_left_iff]
    exact ⟨fun h => (Except.ok.inj h).symm, fun h => congrArg Except.ok h.symm⟩
  | cons a rest ih =>
    rw [List.mapM_cons, bind_eq_ok_iff]
    refine ⟨?_, ?_⟩
    · rintro ⟨b, hb, h⟩
      obtain ⟨tail, htail, h⟩ := bind_eq_ok_iff.1 h
      cases h
      exact .cons hb (ih.1 htail)
    · rintro (_ | ⟨hb, htail⟩)
      refine ⟨_, hb, ?_⟩
      rw [ih.2 htail]
      rfl

theorem length_of_mapM_eq_ok {f : α → Except ε β} {l : List α} {l' : List β}
    (h : l.mapM f = .ok l') : l'.length = l.length := by
  induction l generalizing l' with
  | nil =>
    cases h
    rfl
  | cons x rest ih =>
    rw [List.mapM_cons] at h
    obtain ⟨y, -, h⟩ := bind_eq_ok_iff.1 h
    obtain ⟨tail, htail, h⟩ := bind_eq_ok_iff.1 h
    cases h
    rw [List.length_cons, List.length_cons, ih htail]

/-- What a list is mapped to are the images of its elements. -/
theorem images_of_mapM_eq_ok {f : α → Except ε β} {l : List α} {l' : List β}
    (h : l.mapM f = .ok l') :
    (∀ a ∈ l, ∃ b ∈ l', f a = .ok b) ∧ ∀ b ∈ l', ∃ a ∈ l, f a = .ok b := by
  induction l generalizing l' with
  | nil =>
    cases h
    exact ⟨nofun, nofun⟩
  | cons x rest ih =>
    rw [List.mapM_cons] at h
    obtain ⟨y, hy, h⟩ := bind_eq_ok_iff.1 h
    obtain ⟨tail, htail, h⟩ := bind_eq_ok_iff.1 h
    cases h
    obtain ⟨hsource, himage⟩ := ih htail
    refine ⟨?_, ?_⟩
    · intro a ha
      rcases List.mem_cons.1 ha with rfl | ha
      · exact ⟨y, List.mem_cons_self, hy⟩
      · obtain ⟨b, hb, hab⟩ := hsource a ha
        exact ⟨b, List.mem_cons_of_mem y hb, hab⟩
    · intro b hb
      rcases List.mem_cons.1 hb with rfl | hb
      · exact ⟨x, List.mem_cons_self, hy⟩
      · obtain ⟨a, ha, hab⟩ := himage b hb
        exact ⟨a, List.mem_cons_of_mem x ha, hab⟩

theorem count_of_mapM_eq_ok [DecidableEq β] {f : α → Except ε β} {l : List α} {l' : List β}
    (h : l.mapM f = .ok l') (b : β) : l'.count b = l.countP fun a => (f a).toOption = some b := by
  induction l generalizing l' with
  | nil =>
    cases h
    rfl
  | cons x rest ih =>
    rw [List.mapM_cons] at h
    obtain ⟨y, hy, h⟩ := bind_eq_ok_iff.1 h
    obtain ⟨tail, htail, h⟩ := bind_eq_ok_iff.1 h
    cases h
    have hfirst : (f x).toOption = some y := toOption_eq_some_iff.2 hy
    rw [List.count_cons, List.countP_cons, ih htail, hfirst]
    simp

theorem exists_perm_of_mapM_eq_ok {f : α → Except ε β} {l₁ l₂ : List α} {l' : List β}
    (hperm : l₁.Perm l₂) (h : l₁.mapM f = .ok l') : ∃ l'', l₂.mapM f = .ok l'' ∧ l'.Perm l'' := by
  induction hperm generalizing l' with
  | nil =>
    cases h
    exact ⟨[], rfl, .nil⟩
  | cons x _ ih =>
    rw [List.mapM_cons] at h
    obtain ⟨y, hy, h⟩ := bind_eq_ok_iff.1 h
    obtain ⟨tail, htail, h⟩ := bind_eq_ok_iff.1 h
    cases h
    obtain ⟨tail', htail', hperm⟩ := ih htail
    refine ⟨y :: tail', ?_, hperm.cons y⟩
    rw [List.mapM_cons, hy, htail']
    rfl
  | swap x x' rest =>
    rw [List.mapM_cons, List.mapM_cons] at h
    obtain ⟨y, hy, h⟩ := bind_eq_ok_iff.1 h
    obtain ⟨front, hfront, h⟩ := bind_eq_ok_iff.1 h
    cases h
    obtain ⟨y', hy', hfront⟩ := bind_eq_ok_iff.1 hfront
    obtain ⟨tail, htail, hfront⟩ := bind_eq_ok_iff.1 hfront
    cases hfront
    refine ⟨y' :: y :: tail, ?_, .swap y' y tail⟩
    rw [List.mapM_cons, List.mapM_cons, hy, hy', htail]
    rfl
  | trans _ _ ih ih' =>
    obtain ⟨mid, hmid, hperm⟩ := ih h
    obtain ⟨l'', hl'', hperm'⟩ := ih' hmid
    exact ⟨l'', hl'', hperm.trans hperm'⟩

end EventSourcing
