import EventSourcing.Proofs.Engine.FirstAppend

/-! Handlers that keep to their own aggregate. A plain handler publishes events of its domain,
without keys and modifiers, or it reports errors. What is pending in the end is then an event for the
aggregate that its command addresses, or a report of the system domain (`Context.Confined`). Nor does
the handler ask how many reports were made before, so their number decides neither between the two
nor which event it is (`Context.Alike`). -/

namespace EventSourcing

variable {α σ : Type} [Content α]

namespace Registry

/-- The domain that the payload declares as its own is registered under this short id. -/
def Assigns (r : Registry α σ) (p : Payload α) (domain : Int32) : Prop :=
  ∃ d, r.domainOf p = some d ∧ d.shortId = domain

variable {r : Registry α σ} {p : Payload α} {domain : Int32}

theorem Assigns.unique {domain' : Int32} (h : r.Assigns p domain) (h' : r.Assigns p domain') :
    domain = domain' := by
  obtain ⟨d, hd, rfl⟩ := h
  obtain ⟨d', hd', rfl⟩ := h'
  rw [Option.some.inj (hd.symm.trans hd')]

theorem Makes.assigns {id now : Int64} {v : Int32} {origin : List Record} {m : Message}
    (h : r.Makes id v now origin p m) : r.Assigns p m.domain := by
  obtain ⟨d, t, data, hl, -, rfl⟩ := h
  exact ⟨d, hl.domain, rfl⟩

theorem Built.assigns_system (hr : r.Built) (hp : p.uri = systemUri) :
    r.Assigns p (textHash32 systemUri) :=
  ⟨systemDomain, by rw [domainOf, hp, hr.domainByUri_system], rfl⟩

end Registry

inductive Call.Plain (r : Registry α σ) (domain : Int32) : Call α → Prop
  | publish {p : Payload α} (hkey : p.key = none) (hp : r.Assigns p domain) :
    Plain r domain (.publish p [])
  | error (text : String) : Plain r domain (.error text)
  | forceError (text : String) : Plain r domain (.forceError text)
  | assert (holds : Bool) (text : String) : Plain r domain (.assert holds text)

namespace Script

/-- A script is plain if it makes plain calls and is blind to the number of reports. -/
inductive Plain (r : Registry α σ) (domain : Int32) : Script α → Prop
  | done : Plain r domain .done
  | panic (p : Panic) : Plain r domain (.panic p)
  | call {k : Call α} {s : Script α} (hk : k.Plain r domain) (h : Plain r domain s) :
    Plain r domain (.call k s)
  | look {next : Context α → Script α} (hblind : ∀ c n, next { c with reports := n } = next c)
      (h : ∀ c, Plain r domain (next c)) : Plain r domain (.look next)

theorem Plain.ofCalls {r : Registry α σ} {domain : Int32} {calls : List (Call α)} {s : Script α}
    (hcalls : ∀ k ∈ calls, k.Plain r domain) (hs : s.Plain r domain) :
    (ofCalls calls s).Plain r domain := by
  induction calls with
  | nil => exact hs
  | cons k rest ih =>
    exact .call (hcalls k List.mem_cons_self) (ih fun x hx => hcalls x (List.mem_cons_of_mem k hx))

theorem Plain.quiet {r : Registry α σ} {domain : Int32} {s : Script α} (h : s.Plain r domain) :
    s.Quiet := by
  induction h with
  | done => exact .done
  | panic p => exact .panic p
  | call _ _ ih => exact .call _ ih
  | look _ _ ih => exact .look ih

omit [Content α] in
/-- The context that a run ends with. A panic is reported as an error. -/
def settle (s : Script α) (r : Reporter α) (c : Context α) (w : World) : Context α :=
  match (s.run r c w).panic with
  | none => (s.run r c w).context
  | some p => (s.run r c w).context.error r s!"Command handler panicked: {p.reason}"

/-- What plain calls keep holds in the end. -/
theorem Plain.settle_induction {registry : Registry α σ} {domain : Int32} {s : Script α}
    (hs : s.Plain registry domain) {r : Reporter α} {P : Context α → Prop}
    (step : ∀ c k, k.Plain registry domain → P c → P (c.call r k)) {c : Context α} (hc : P c)
    (w : World) : P (s.settle r c w) := by
  induction hs generalizing c with
  | done => exact hc
  | panic p => exact step c (.error _) (.error _) hc
  | @call k s hk _ ih => exact ih (step c k hk hc)
  | look _ _ ih => exact ih c hc

end Script

/-- The handler of the system domain publishes reports there. -/
theorem plain_systemHandler {r : Registry α σ} {d : Domain α σ}
    (hd : r.domainByUri systemUri = some d) (i : Invocation α σ) :
    (systemHandler.run i).Plain r d.shortId := by
  unfold systemHandler
  dsimp only
  split
  · exact .call (.publish rfl ⟨d, hd, rfl⟩) .done
  · exact .call (.error _) .done

omit [Content α] in
theorem Engine.execute_ready (e : Engine α σ) (h : Handler α σ) (i : Invocation α σ) (next : Int32)
    (w : World) :
    (e.execute (.ready h i next) w).1 =
      (h.run i).settle e.reporter (.start i.header.id next w.reports) (w.enter .executing) := by
  unfold execute Script.settle
  dsimp only
  generalize (h.run i).run e.reporter _ _ = result
  obtain ⟨c, w', p⟩ := result
  cases p with
  | none => rfl
  | some p => rfl

namespace Context

variable {registry : Registry α σ} {r : Reporter α} {domain : Int32} {c c' : Context α}

def Failed (registry : Registry α σ) (c : Context α) : Prop :=
  ∃ p, c.pending = some p ∧ registry.Assigns p (textHash32 systemUri)

/-- What is pending is a report or an event of the domain, without a key and with the options that
were given in the beginning. -/
structure Confined (registry : Registry α σ) (domain : Int32) (options : Options) (c : Context α) :
    Prop where
  idle : c.pending = none → c.options = options
  pending : ∀ p, c.pending = some p →
    (p.key = none ∧ registry.Assigns p domain ∧ c.options = options) ∨
      registry.Assigns p (textHash32 systemUri)

/-- The contexts differ in the number of reports, or reports are pending in both. -/
def Alike (registry : Registry α σ) (c c' : Context α) : Prop :=
  c' = { c with reports := c'.reports } ∨ c.Failed registry ∧ c'.Failed registry

omit [Content α] in
/-- A call leaves a context as it is, or it publishes where nothing is pending, or a report is forced
upon the context. -/
theorem call_cases (c : Context α) (r : Reporter α) (k : Call α) :
    c.call r k = c ∨
      (∃ p modifiers, k = .publish p modifiers ∧ c.pending = none ∧
        c.call r k = { c with options := c.options.apply modifiers, pending := some p }) ∨
      ∃ text, c.call r k = c.forceError r text := by
  have hidle : c.hasPublished = false → c.pending = none := by
    intro h
    exact Option.not_isSome_iff_eq_none.1 (Bool.eq_false_iff.1 h)
  cases k with
  | publish p modifiers =>
    cases h : c.hasPublished with
    | true => exact .inl (if_pos h)
    | false => exact .inr (.inl ⟨p, modifiers, rfl, hidle h, if_neg (Bool.eq_false_iff.1 h)⟩)
  | error text =>
    cases h : c.hasPublished with
    | true => exact .inl (if_pos h)
    | false => exact .inr (.inr ⟨text, if_neg (Bool.eq_false_iff.1 h)⟩)
  | forceError text => exact .inr (.inr ⟨text, rfl⟩)
  | assert holds text =>
    cases holds with
    | true => exact .inl rfl
    | false =>
      cases h : c.hasPublished with
      | true => exact .inl (if_pos h)
      | false => exact .inr (.inr ⟨_, if_neg (Bool.eq_false_iff.1 h)⟩)

section

variable (hreports : ∀ n text, registry.Assigns (r.event n text).1 (textHash32 systemUri))

include hreports

theorem failed_forceError (c : Context α) (text : String) : (c.forceError r text).Failed registry :=
  ⟨_, rfl, hreports c.reports text⟩

theorem Failed.call (h : c.Failed registry) (k : Call α) : (c.call r k).Failed registry := by
  obtain ⟨p, hp, -⟩ := id h
  rcases c.call_cases r k with hk | ⟨p', modifiers, -, hidle, -⟩ | ⟨text, hk⟩
  · rwa [hk]
  · rw [hp] at hidle
    cases hidle
  · rw [hk]
    exact failed_forceError hreports c text

theorem Confined.call {options : Options} (h : c.Confined registry domain options) {k : Call α}
    (hk : k.Plain registry domain) : (c.call r k).Confined registry domain options := by
  rcases c.call_cases r k with hcall | ⟨p, modifiers, rfl, hidle, hcall⟩ | ⟨text, hcall⟩
  · rwa [hcall]
  · rw [hcall]
    cases hk with
    | publish hkey hp =>
      refine ⟨nofun, ?_⟩
      intro p' hp'
      cases hp'
      exact .inl ⟨hkey, hp, h.idle hidle⟩
  · rw [hcall]
    refine ⟨nofun, ?_⟩
    intro p hp
    cases hp
    exact .inr (hreports c.reports text)

/-- Where the contexts differ in the number of reports, the same call does the same to both, or it
forces reports upon both. -/
theorem Alike.call (h : c.Alike registry c') (k : Call α) :
    (c.call r k).Alike registry (c'.call r k) := by
  rcases h with h | ⟨hc, hc'⟩
  case inr => exact .inr ⟨hc.call hreports k, hc'.call hreports k⟩
  have hforced : ∀ text, (c.forceError r text).Alike registry (c'.forceError r text) :=
    fun text => .inr ⟨failed_forceError hreports c text, failed_forceError hreports c' text⟩
  have hsame : c'.hasPublished = c.hasPublished := by
    rw [h]
    rfl
  have herror : ∀ text, (c.error r text).Alike registry (c'.error r text) := by
    intro text
    unfold error
    rw [hsame]
    split
    · exact .inl h
    · exact hforced text
  cases k with
  | publish p modifiers =>
    show (c.publish p modifiers).Alike registry (c'.publish p modifiers)
    unfold publish
    rw [hsame]
    split
    · exact .inl h
    · rw [h]
      exact .inl rfl
  | error text => exact herror text
  | forceError text => exact hforced text
  | assert holds text =>
    cases holds with
    | true => exact .inl h
    | false => exact herror _

end

end Context

namespace Script.Plain

variable {registry : Registry α σ} {r : Reporter α} {domain : Int32} {s : Script α}
  (hs : s.Plain registry domain)
  (hreports : ∀ n text, registry.Assigns (r.event n text).1 (textHash32 systemUri))

include hs hreports

theorem confined_settle (id : Int64) (v : Int32) (n : Nat) (w : World) :
    (s.settle r (.start id v n) w).Confined registry domain (.new id v 0) :=
  hs.settle_induction (fun _ _ hk hc => hc.call hreports hk) ⟨fun _ => rfl, nofun⟩ w

theorem failed_settle {c : Context α} (hc : c.Failed registry) (w : World) :
    (s.settle r c w).Failed registry :=
  hs.settle_induction (fun _ k _ hc => hc.call hreports k) hc w

/-- Two runs of a script from contexts that are alike end alike. -/
theorem alike_settle {c c' : Context α} (h : c.Alike registry c') (w w' : World) :
    (s.settle r c w).Alike registry (s.settle r c' w') := by
  induction hs generalizing c c' with
  | done => exact h
  | panic p => exact h.call hreports (.error _)
  | @call k s _ _ ih => exact ih (h.call hreports k)
  | @look next hblind hnext ih =>
    rcases h with h | ⟨hc, hc'⟩
    · -- The script reads the same context, but for the number of reports, and goes on the same way.
      have hsame : next c' = next c := by rw [h, hblind]
      show ((next c).settle r c w).Alike registry ((next c').settle r c' w')
      rw [hsame]
      exact ih c (.inl h)
    · exact .inr ⟨(hnext c).failed_settle hreports hc w, (hnext c').failed_settle hreports hc' w'⟩

end Script.Plain

end EventSourcing
