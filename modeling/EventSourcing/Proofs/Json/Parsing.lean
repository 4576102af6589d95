import EventSourcing.Proofs.Json.Lexing

/-! Values read back. A value that is written is read back from its text, and nothing is left behind
it. The parser takes a value off the front of the tokens, so each part of a value is looked at with
any tokens behind it. -/

namespace EventSourcing.Json

/-- A value that can be written: its numbers are whole, its strings are texts, and its arrays and
objects have an end. -/
inductive Written : Value → Prop
  | null : Written .null
  | bool (b : Bool) : Written (.bool b)
  | number (negative : Bool) (n : Nat) : Written (.number ⟨negative, n, none, none⟩)
  | text (s : String) : Written (.ofText s)
  | list {items : List Value} : (∀ v ∈ items, Written v) → Written (.list items)
  | record {fields : List (String × Value)} : (∀ f ∈ fields, Written f.2) → Written (.record fields)

/-- The tokens are those of the value's text, and the value is what is taken off them. -/
structure Spelled (v : Value) (ts : List Token) : Prop where
  lexed : ∀ rest, Delimited rest → tokens (render v ++ rest) = ts ++ tokens rest
  taken : ∀ fuel rest, 2 * ts.length ≤ fuel → takeValue fuel (ts ++ rest) = (v, rest)
  opened : ∃ t tail, ts = t :: tail ∧ t ≠ .closeArray

theorem tokens_closeArray (rest : Bytes) : tokens (byte ']' :: rest) = .closeArray :: tokens rest :=
  tokens_cons (by decide) rfl

theorem tokens_closeObject (rest : Bytes) :
    tokens (byte '\x7d' :: rest) = .closeObject :: tokens rest :=
  tokens_cons (by decide) rfl

theorem tokens_comma (rest : Bytes) : tokens (byte ',' :: rest) = .comma :: tokens rest :=
  tokens_cons (by decide) rfl

theorem tokens_colon (rest : Bytes) : tokens (byte ':' :: rest) = .colon :: tokens rest :=
  tokens_cons (by decide) rfl

namespace Spelled

variable {v w : Value} {ts tail : List Token}

theorem token {t : Token}
    (hlexed : ∀ rest, Delimited rest → tokens (render v ++ rest) = t :: tokens rest)
    (htaken : ∀ fuel rest, takeValue fuel (t :: rest) = (v, rest)) (ht : t ≠ .closeArray) :
    Spelled v [t] :=
  ⟨hlexed, fun fuel rest _ => htaken fuel rest, t, [], rfl, ht⟩

/-- The same of the items of an array, with its end behind them. -/
structure Items (vs : List Value) (ts : List Token) : Prop where
  lexed : ∀ rest, tokens (renderItems vs ++ byte ']' :: rest) = ts ++ .closeArray :: tokens rest
  taken : ∀ fuel rest, 2 * ts.length + 1 ≤ fuel →
    takeItems fuel (ts ++ .closeArray :: rest) = (vs, true, rest)
  opened : ∃ t tail, ts = t :: tail ∧ t ≠ .closeArray

theorem items_singleton (h : Spelled v ts) : Items [v] ts where
  lexed rest := by
    have hend : Delimited (byte ']' :: rest) := Or.inr (Or.inl rfl)
    rw [renderItems, h.lexed _ hend, tokens_closeArray]
  taken fuel rest hfuel := by
    obtain ⟨fuel, rfl⟩ : ∃ n, fuel = n + 1 := ⟨fuel - 1, by omega⟩
    rw [takeItems, h.taken fuel _ (by omega)]
  opened := h.opened

theorem items_cons {vs : List Value} (h : Spelled v ts) (htail : Items (w :: vs) tail) :
    Items (v :: w :: vs) (ts ++ .comma :: tail) where
  lexed rest := by
    have hcomma : Delimited (byte ',' :: (renderItems (w :: vs) ++ byte ']' :: rest)) := Or.inl rfl
    have hrender : renderItems (v :: w :: vs) = render v ++ byte ',' :: renderItems (w :: vs) := by
      rw [renderItems]
      exact List.cons_ne_nil w vs
    rw [hrender, List.append_assoc, List.cons_append, h.lexed _ hcomma, tokens_comma, htail.lexed,
      List.append_assoc, List.cons_append]
  taken fuel rest hfuel := by
    rw [List.length_append, List.length_cons] at hfuel
    obtain ⟨fuel, rfl⟩ : ∃ n, fuel = n + 1 := ⟨fuel - 1, by omega⟩
    rw [takeItems, List.append_assoc, List.cons_append, h.taken fuel _ (by omega)]
    dsimp only
    rw [htail.taken fuel rest (by omega)]
  opened := by
    obtain ⟨t, front, rfl, ht⟩ := h.opened
    exact ⟨t, front ++ .comma :: tail, rfl, ht⟩

theorem exists_items {vs : List Value} (h : ∀ x ∈ v :: vs, ∃ ts, Spelled x ts) :
    ∃ ts, Items (v :: vs) ts := by
  induction vs generalizing v with
  | nil =>
    obtain ⟨ts, hts⟩ := h v List.mem_cons_self
    exact ⟨ts, items_singleton hts⟩
  | cons w vs ih =>
    obtain ⟨⟨ts, hts⟩, hrest⟩ := List.forall_mem_cons.1 h
    obtain ⟨tail, htail⟩ := ih hrest
    exact ⟨ts ++ .comma :: tail, items_cons hts htail⟩

theorem list_nil : Spelled (.list []) [.openArray, .closeArray] where
  lexed rest _ := (tokens_cons (by decide) rfl).trans (congrArg _ (tokens_closeArray rest))
  taken fuel rest _ := by
    cases fuel <;> rfl
  opened := ⟨.openArray, [.closeArray], rfl, nofun⟩

theorem list {vs : List Value} (h : Items vs ts) :
    Spelled (.list vs) (.openArray :: ts ++ [.closeArray]) where
  lexed rest _ := by
    have hrender : render (.list vs) ++ rest = byte '[' :: (renderItems vs ++ byte ']' :: rest) := by
      simp [render, Value.list]
    have htoken : tokens (byte '[' :: (renderItems vs ++ byte ']' :: rest)) =
        .openArray :: tokens (renderItems vs ++ byte ']' :: rest) := tokens_cons (by decide) rfl
    rw [hrender, htoken, h.lexed]
    simp
  taken fuel rest hfuel := by
    simp only [List.length_append, List.length_cons, List.length_nil] at hfuel
    obtain ⟨fuel, rfl⟩ : ∃ n, fuel = n + 1 := ⟨fuel - 1, by omega⟩
    have htaken := h.taken fuel rest (by omega)
    -- Only the end of the array right behind its start makes the array empty.
    obtain ⟨t, front, rfl, ht⟩ := h.opened
    show takeValue (fuel + 1) (.openArray :: t :: (front ++ [.closeArray] ++ rest)) = _
    rw [takeValue]
    · rw [List.append_assoc]
      dsimp only [List.cons_append] at htaken
      exact congrArg (fun r => (Value.array r.1 r.2.1, r.2.2)) htaken
    · intro rest' h
      exact ht (List.cons.inj h).1
  opened := ⟨.openArray, ts ++ [.closeArray], rfl, nofun⟩

/-- The same of the entries of an object, with its end behind them. -/
structure Entries (fields : List (String × Value)) (ts : List Token) : Prop where
  lexed : ∀ rest,
    tokens (renderEntries (fields.map fun (k, v) => (some k, v)) ++ byte '\x7d' :: rest) =
    ts ++ .closeObject :: tokens rest
  taken : ∀ fuel rest, 2 * ts.length ≤ fuel → takeEntries fuel (ts ++ .closeObject :: rest) =
    (fields.map fun (k, v) => (some k, v), true, rest)
  opened : ∃ k tail, ts = .text k :: tail

theorem entries_singleton (key : String) (h : Spelled v ts) :
    Entries [(key, v)] (.text (some key) :: .colon :: ts) where
  lexed rest := by
    have hend : Delimited (byte '\x7d' :: rest) := Or.inr (Or.inr rfl)
    show tokens (renderText key ++ byte ':' :: render v ++ byte '\x7d' :: rest) = _
    rw [List.append_assoc, List.cons_append, tokens_renderText, tokens_colon, h.lexed _ hend,
      tokens_closeObject]
    rfl
  taken fuel rest hfuel := by
    rw [List.length_cons, List.length_cons] at hfuel
    obtain ⟨fuel, rfl⟩ : ∃ n, fuel = n + 1 := ⟨fuel - 1, by omega⟩
    rw [List.cons_append, List.cons_append, takeEntries, h.taken fuel _ (by omega)]
    rfl
  opened := ⟨some key, .colon :: ts, rfl⟩

theorem entries_cons {field : String × Value} {fields : List (String × Value)} (key : String)
    (h : Spelled v ts) (htail : Entries (field :: fields) tail) :
    Entries ((key, v) :: field :: fields) (.text (some key) :: .colon :: ts ++ .comma :: tail) where
  lexed rest := by
    have hcomma (b : Bytes) : Delimited (byte ',' :: b) := Or.inl rfl
    show tokens (renderText key ++ byte ':' :: render v ++ byte ',' ::
      renderEntries ((field :: fields).map fun (k, v) => (some k, v)) ++ byte '\x7d' :: rest) = _
    simp only [List.append_assoc, List.cons_append, tokens_renderText, tokens_colon,
      h.lexed _ (hcomma _), tokens_comma, htail.lexed]
  taken fuel rest hfuel := by
    simp only [List.length_append, List.length_cons] at hfuel
    obtain ⟨fuel, rfl⟩ : ∃ n, fuel = n + 1 := ⟨fuel - 1, by omega⟩
    simp only [List.append_assoc, List.cons_append]
    rw [takeEntries, h.taken fuel _ (by omega)]
    dsimp only
    rw [htail.taken fuel rest (by omega)]
    rfl
  opened := ⟨some key, .colon :: ts ++ .comma :: tail, rfl⟩

theorem exists_entries {field : String × Value} {fields : List (String × Value)}
    (h : ∀ f ∈ field :: fields, ∃ ts, Spelled f.2 ts) : ∃ ts, Entries (field :: fields) ts := by
  induction fields generalizing field with
  | nil =>
    obtain ⟨ts, hts⟩ := h field List.mem_cons_self
    exact ⟨_, entries_singleton field.1 hts⟩
  | cons next fields ih =>
    obtain ⟨⟨ts, hts⟩, hrest⟩ := List.forall_mem_cons.1 h
    obtain ⟨tail, htail⟩ := ih hrest
    exact ⟨_, entries_cons field.1 hts htail⟩

theorem record_nil : Spelled (.record []) [.openObject, .closeObject] where
  lexed rest _ := (tokens_cons (by decide) rfl).trans (congrArg _ (tokens_closeObject rest))
  taken fuel rest _ := by
    cases fuel <;> rfl
  opened := ⟨.openObject, [.closeObject], rfl, nofun⟩

theorem record {fields : List (String × Value)} (h : Entries fields ts) :
    Spelled (.record fields) (.openObject :: ts ++ [.closeObject]) where
  lexed rest _ := by
    have hrender : render (.record fields) ++ rest = byte '\x7b' ::
        (renderEntries (fields.map fun (k, v) => (some k, v)) ++ byte '\x7d' :: rest) := by
      simp [render, Value.record]
    have htoken (b : Bytes) : tokens (byte '\x7b' :: b) = .openObject :: tokens b :=
      tokens_cons (by decide) rfl
    rw [hrender, htoken, h.lexed]
    simp
  taken fuel rest hfuel := by
    simp only [List.length_append, List.length_cons, List.length_nil] at hfuel
    obtain ⟨fuel, rfl⟩ : ∃ n, fuel = n + 1 := ⟨fuel - 1, by omega⟩
    have htaken := h.taken fuel rest (by omega)
    obtain ⟨key, front, rfl⟩ := h.opened
    show takeValue (fuel + 1) (.openObject :: .text key :: (front ++ [.closeObject] ++ rest)) = _
    rw [takeValue, List.append_assoc]
    · dsimp only [List.cons_append] at htaken
      exact congrArg (fun r => (Value.object r.1 r.2.1, r.2.2)) htaken
    · nofun
  opened := ⟨.openObject, ts ++ [.closeObject], rfl, nofun⟩

end Spelled

theorem Written.exists_spelled {v : Value} (h : Written v) : ∃ ts, Spelled v ts := by
  induction h with
  | null =>
    refine ⟨_, .token (fun rest _ => tokens_null rest) (fun fuel rest => ?_) nofun⟩
    cases fuel <;> rfl
  | bool b =>
    cases b with
    | true =>
      refine ⟨_, .token (fun rest _ => tokens_true rest) (fun fuel rest => ?_) nofun⟩
      cases fuel <;> rfl
    | false =>
      refine ⟨_, .token (fun rest _ => tokens_false rest) (fun fuel rest => ?_) nofun⟩
      cases fuel <;> rfl
  | number negative n =>
    refine ⟨_, .token (fun rest => tokens_renderNumber negative n) (fun fuel rest => ?_) nofun⟩
    cases fuel <;> rfl
  | text s =>
    refine ⟨_, .token (fun rest _ => tokens_renderText s rest) (fun fuel rest => ?_) nofun⟩
    cases fuel <;> rfl
  | @list items _ ih =>
    cases items with
    | nil => exact ⟨_, .list_nil⟩
    | cons v vs =>
      obtain ⟨ts, hts⟩ := Spelled.exists_items ih
      exact ⟨_, .list hts⟩
  | @record fields _ ih =>
    cases fields with
    | nil => exact ⟨_, .record_nil⟩
    | cons field fields =>
      obtain ⟨ts, hts⟩ := Spelled.exists_entries ih
      exact ⟨_, .record hts⟩

/-- Reading what is written gives the value, with nothing behind it. -/
theorem parse_render {v : Value} (h : Written v) : parse (render v) = ⟨v, false⟩ := by
  obtain ⟨ts, hts⟩ := h.exists_spelled
  have htokens : tokens (render v) = ts := by
    simpa using hts.lexed [] trivial
  have htaken := hts.taken (2 * ts.length) [] (Nat.le_refl _)
  rw [List.append_nil] at htaken
  unfold parse
  rw [htokens]
  dsimp only
  rw [htaken]
  rfl

theorem render_ne_nil {v : Value} (h : Written v) : render v ≠ [] := by
  obtain ⟨ts, hts⟩ := h.exists_spelled
  intro hnil
  have htokens := hts.lexed [] trivial
  obtain ⟨t, tail, rfl, -⟩ := hts.opened
  rw [hnil] at htokens
  cases htokens

end EventSourcing.Json
