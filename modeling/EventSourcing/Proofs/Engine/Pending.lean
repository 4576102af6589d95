import Mathlib.Data.List.Induction
import EventSourcing.Engine.Context
import EventSourcing.ValueChanger.Domain

/-! What is pending after the calls of a handler. One call decides: the last forced error, or the first
call that takes effect where no error is forced. All other calls leave the context as it is, or their
report is replaced by the one that is forced in the end. -/

namespace EventSourcing

variable {α : Type}

namespace Call

def report? : Call α → Option String
  | .publish _ _ => none
  | .error text => some text
  | .forceError text => some text
  | .assert holds text => if holds then none else some s!"Assert failed: {text}"

/-- The call takes effect where nothing is pending. An assertion that holds never does. -/
def Effective (k : Call α) : Prop := ∀ text, k ≠ .assert true text

/-- No error is forced. -/
def Unforced (calls : List (Call α)) : Prop := ∀ text, .forceError text ∉ calls

/-- Of the calls `before`, `k` and `after`, made in this order, `k` decides what is pending in the
end. -/
inductive Decides (before : List (Call α)) (k : Call α) (after : List (Call α)) : Prop
  | forced {text : String} (hk : k = .forceError text) (hafter : Unforced after)
  | first (hk : k.Effective) (hbefore : ∀ b ∈ before, ¬ b.Effective) (hafter : Unforced (k :: after))

theorem not_effective_iff {k : Call α} : ¬ k.Effective ↔ ∃ text, k = .assert true text := by
  simp [Effective]

theorem Effective.publishes_or_reports {k : Call α} (h : k.Effective) :
    (∃ p modifiers, k = .publish p modifiers) ∨ ∃ text, k.report? = some text := by
  cases k with
  | publish p modifiers => exact .inl ⟨p, modifiers, rfl⟩
  | error text => exact .inr ⟨text, rfl⟩
  | forceError text => exact .inr ⟨text, rfl⟩
  | assert holds text =>
    cases holds with
    | true => exact absurd rfl (h text)
    | false => exact .inr ⟨_, rfl⟩

theorem Decides.effective {before after : List (Call α)} {k : Call α} (h : Decides before k after) :
    k.Effective := by
  cases h with
  | forced hk =>
    subst hk
    exact nofun
  | first hk => exact hk

theorem Decides.unforced {before after : List (Call α)} {k : Call α} (h : Decides before k after) :
    Unforced after := by
  cases h with
  | forced _ hafter => exact hafter
  | first _ _ hafter => exact fun text hm => hafter text (List.mem_cons_of_mem k hm)

/-- A further call decides only if it forces an error. -/
theorem Decides.snoc {before after : List (Call α)} {k : Call α} (h : Decides before k after)
    {next : Call α} (hnext : ∀ text, next ≠ .forceError text) : Decides before k (after ++ [next]) := by
  have hunforced : ∀ l : List (Call α), Unforced l → Unforced (l ++ [next]) := by
    intro l hl text hm
    rcases List.mem_append.1 hm with hm | hm
    · exact hl text hm
    · exact hnext text (List.mem_singleton.1 hm).symm
  cases h with
  | forced hk hafter => exact .forced hk (hunforced after hafter)
  | first hk hbefore hafter => exact .first hk hbefore (hunforced (k :: after) hafter)

/-- Some call decides, unless none takes effect. -/
theorem exists_decides (calls : List (Call α)) :
    (∃ before k after, calls = before ++ k :: after ∧ Decides before k after) ∨
      ∀ k ∈ calls, ¬ k.Effective := by
  induction calls using List.reverseRecOn with
  | nil => exact .inr nofun
  | append_singleton calls next ih =>
    by_cases hforced : ∃ text, next = .forceError text
    · obtain ⟨text, hnext⟩ := hforced
      exact .inl ⟨calls, next, [], rfl, .forced hnext nofun⟩
    have hnext : ∀ text, next ≠ .forceError text := fun text h => hforced ⟨text, h⟩
    rcases ih with ⟨before, k, after, rfl, hk⟩ | hidle
    · exact .inl ⟨before, k, after ++ [next], by simp, hk.snoc hnext⟩
    · by_cases heffective : next.Effective
      · refine .inl ⟨calls, next, [], rfl, .first heffective hidle ?_⟩
        intro text hm
        exact hnext text (List.mem_singleton.1 hm).symm
      · refine .inr ?_
        intro k hk
        rcases List.mem_append.1 hk with hk | hk
        · exact hidle k hk
        · rwa [List.mem_singleton.1 hk]

end Call

namespace Context

open Call (Decides)

variable {r : Reporter α} {c : Context α} {k : Call α} {before after : List (Call α)}

/-- Once something is pending, only a forced error replaces it. -/
theorem call_of_pending {p : Payload α} (h : c.pending = some p) {k : Call α}
    (hk : ∀ text, k ≠ .forceError text) : c.call r k = c := by
  have hp : c.hasPublished = true := by
    unfold hasPublished
    rw [h]
    rfl
  cases k with
  | publish p' modifiers => exact if_pos hp
  | error text => exact if_pos hp
  | forceError text => exact absurd rfl (hk text)
  | assert holds text =>
    cases holds with
    | true => rfl
    | false => exact if_pos hp

theorem foldl_call_of_pending {p : Payload α} (h : c.pending = some p) {calls : List (Call α)}
    (hk : ∀ text, .forceError text ∉ calls) : calls.foldl (fun c k => c.call r k) c = c := by
  induction calls with
  | nil => rfl
  | cons k rest ih =>
    rw [List.foldl_cons, call_of_pending h]
    · exact ih fun text hm => hk text (List.mem_cons_of_mem k hm)
    · rintro text rfl
      exact hk text List.mem_cons_self

theorem call_publish_of_idle (hc : c.pending = none) (p : Payload α) (modifiers : List Modifier) :
    c.call r (.publish p modifiers) =
      { c with options := c.options.apply modifiers, pending := some p } := by
  refine if_neg ?_
  simp [hasPublished, hc]

/-- A call that reports does so where nothing is pending, and a forced error does so anywhere. -/
theorem call_report {text : String} (hk : k.report? = some text)
    (hc : c.pending = none ∨ ∃ text, k = .forceError text) : c.call r k = c.forceError r text := by
  cases k with
  | publish p modifiers => cases hk
  | forceError forced =>
    cases hk
    rfl
  | error error =>
    cases hk
    have hidle : c.pending = none := hc.resolve_right nofun
    refine if_neg ?_
    simp [hasPublished, hidle]
  | assert holds message =>
    cases holds with
    | true => cases hk
    | false =>
      cases hk
      have hidle : c.pending = none := hc.resolve_right nofun
      refine if_neg ?_
      simp [hasPublished, hidle]

theorem foldl_call_of_idle {calls : List (Call α)} (h : ∀ k ∈ calls, ¬ k.Effective) :
    calls.foldl (fun c k => c.call r k) c = c := by
  induction calls with
  | nil => rfl
  | cons k rest ih =>
    obtain ⟨hk, hrest⟩ := List.forall_mem_cons.1 h
    obtain ⟨text, rfl⟩ := Call.not_effective_iff.1 hk
    exact ih hrest

/-- An event that decides goes to the default target, as its modifiers change it. -/
theorem foldl_call_of_publishes (hc : c.pending = none) {p : Payload α} {modifiers : List Modifier}
    (h : Decides before (.publish p modifiers) after) :
    (before ++ .publish p modifiers :: after).foldl (fun c k => c.call r k) c =
      { c with options := c.options.apply modifiers, pending := some p } := by
  cases h with
  | forced hk => cases hk
  | first hk hbefore hafter =>
    rw [List.foldl_append, foldl_call_of_idle hbefore, List.foldl_cons, call_publish_of_idle hc]
    refine foldl_call_of_pending (p := p) rfl ?_
    exact fun text hm => hafter text (List.mem_cons_of_mem _ hm)

/-- A report that decides takes the place of whatever is pending. -/
theorem foldl_call_of_reports (hc : c.pending = none) {text : String} (h : Decides before k after)
    (hk : k.report? = some text) :
    (before ++ k :: after).foldl (fun c k => c.call r k) c =
      (before.foldl (fun c k => c.call r k) c).forceError r text := by
  have hmid : (before.foldl (fun c k => c.call r k) c).pending = none ∨
      ∃ text, k = .forceError text := by
    cases h with
    | forced hforced => exact .inr ⟨_, hforced⟩
    | first _ hbefore => exact .inl (by rwa [foldl_call_of_idle hbefore])
  rw [List.foldl_append, List.foldl_cons, call_report hk hmid]
  exact foldl_call_of_pending rfl h.unforced

/-- The last forced error decides what is pending after the calls of a handler, or the first call that
takes effect if no error is forced, and nothing is pending if no call takes effect. An event that is
published goes where its own modifiers direct it, a report where the reporter directs it. A call that
is made while something is pending changes nothing unless it forces an error. -/
theorem pending_event_decided (r : Reporter α) (id : Int64) (version : Int32) (reports : Nat)
    (calls : List (Call α)) :
    let start : Context α := .start id version reports
    let run (calls : List (Call α)) := calls.foldl (fun c k => c.call r k) start
    let c := run calls
    ((∃ before k after, calls = before ++ k :: after ∧ Decides before k after) ∨
        (∀ k ∈ calls, ¬ k.Effective) ∧ c = start) ∧
      (∀ before k after, calls = before ++ k :: after → Decides before k after →
        (∀ p modifiers, k = .publish p modifiers → c.pending = some p ∧
          c.options = modifiers.foldl Modifier.apply (.new id version 0) ∧ c.isError = false) ∧
        ∀ text, k.report? = some text → c.pending = some (r.event (run before).reports text).1 ∧
          c.options = (r.event (run before).reports text).2 ∧ c.isError = true) ∧
      (c.isError = true ↔ ∃ before k after text, calls = before ++ k :: after ∧
        Decides before k after ∧ k.report? = some text) ∧
      ∀ before k after, calls = before ++ k :: after → (run before).hasPublished = true →
        (∀ text, k ≠ .forceError text) → run (before ++ [k]) = run before := by
  intro start run c
  have hpublishes : ∀ before p modifiers after, calls = before ++ .publish p modifiers :: after →
      Decides before (.publish p modifiers) after →
      c = { start with options := start.options.apply modifiers, pending := some p } := by
    rintro before p modifiers after rfl hk
    exact foldl_call_of_publishes rfl hk
  have hreports : ∀ before k after text, calls = before ++ k :: after → Decides before k after →
      k.report? = some text → c = (run before).forceError r text := by
    rintro before k after text rfl hk htext
    exact foldl_call_of_reports rfl hk htext
  refine ⟨?_, ?_, ?_, ?_⟩
  · exact (Call.exists_decides calls).imp_right fun hidle => ⟨hidle, foldl_call_of_idle hidle⟩
  · intro before k after hcalls hk
    refine ⟨?_, ?_⟩
    · rintro p modifiers rfl
      rw [hpublishes before p modifiers after hcalls hk]
      exact ⟨rfl, rfl, rfl⟩
    · intro text htext
      rw [hreports before k after text hcalls hk htext]
      exact ⟨rfl, rfl, rfl⟩
  · refine ⟨?_, ?_⟩
    · intro herror
      rcases Call.exists_decides calls with ⟨before, k, after, hcalls, hk⟩ | hidle
      · rcases hk.effective.publishes_or_reports with ⟨p, modifiers, rfl⟩ | ⟨text, htext⟩
        · rw [hpublishes before p modifiers after hcalls hk] at herror
          cases herror
        · exact ⟨before, k, after, text, hcalls, hk, htext⟩
      · have hstart : c = start := foldl_call_of_idle hidle
        rw [hstart] at herror
        cases herror
    · rintro ⟨before, k, after, text, hcalls, hk, htext⟩
      rw [hreports before k after text hcalls hk htext]
      rfl
  · rintro before k after - hpublished hk
    obtain ⟨p, hp⟩ := Option.isSome_iff_exists.1 hpublished
    simp only [run, List.foldl_append, List.foldl_cons, List.foldl_nil]
    exact call_of_pending hp hk

/-- An event with two modifiers is pending until an error is forced, and what follows comes too late. -/
theorem pending_event_decided_overruled :
    let r : Reporter ValueChanger.Change := .standard fun n => .ofNat (100 + n)
    let event : Payload ValueChanger.Change := .custom (.valueSet ⟨"b", "a"⟩)
    let publish : Call ValueChanger.Change := .publish event [.id 7, .version 4]
    let calls := [.assert true "fine"] ++ publish :: [.error "ignored", .publish event [.id 99]]
    let run (calls : List (Call ValueChanger.Change)) : Context ValueChanger.Change :=
      calls.foldl (fun c k => c.call r k) (.start 5 2 0)
    let c := run calls
    let c' := run (calls ++ .forceError "append failed" :: [.assert false "late"])
    Decides [.assert true "fine"] publish [.error "ignored", .publish event [.id 99]] ∧
      c.pending = some event ∧ c.options = .new 7 4 0 ∧ c.isError = false ∧
      Decides calls (.forceError "append failed") [.assert false "late"] ∧
      c'.pending = some (.errorRaised ⟨"append failed"⟩) ∧ c'.options = .new 100 1 0 ∧
      c'.isError = true := by
  intro r event publish calls run c c'
  have hpublish : Decides [.assert true "fine"] publish
      [.error "ignored", .publish event [.id 99]] := by
    refine .first nofun ?_ ?_
    · intro k hk
      rw [List.mem_singleton.1 hk]
      exact fun h => h "fine" rfl
    · intro text hm
      simp [publish] at hm
  have hforce : Decides calls (.forceError "append failed") [.assert false "late"] := by
    refine .forced rfl ?_
    intro text hm
    simp at hm
  have h := (pending_event_decided r 5 2 0 calls).2.1 _ publish _ rfl hpublish
  have h' := (pending_event_decided r 5 2 0
    (calls ++ .forceError "append failed" :: [.assert false "late"])).2.1 _ _ _ rfl hforce
  obtain ⟨hpending, hoptions, herror⟩ := h.1 event [.id 7, .version 4] rfl
  obtain ⟨hpending', hoptions', herror'⟩ := h'.2 "append failed" rfl
  exact ⟨hpublish, hpending, hoptions, herror, hforce, hpending', hoptions', herror'⟩

end Context
end EventSourcing
