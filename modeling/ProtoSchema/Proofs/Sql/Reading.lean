import ProtoSchema.Sql.TokenReader

/-!
# Reading a list of tokens put together from parts

What a reader takes from the front of a script depends on tokens only, not on their places, and on
one token behind what it takes. `Reads r ts next a` says that `r` takes the tokens `ts` and gives
`a` wherever one of the tokens `next` stands behind them.

Key results:
* `Reads.bind` — a second reader goes on behind the first
* `ReadsLoop.stop`, `ReadsLoop.step` — a loop is read step by step
* `reads_commaSeparated` — a list of items is read item by item
-/

namespace ProtoSchema.Sql

variable {α β σ : Type}

/-- The reader `r` takes the tokens `ts` and gives `a` wherever one of `next` stands behind them;
`none` stands for the end of the script. -/
def Reads (r : TokenReader α) (ts : List Token) (next : List (Option Token)) (a : α) : Prop :=
  ∀ input rest : List Located, input.map Located.token = ts →
    rest.head?.map Located.token ∈ next → r.run (input ++ rest) = .ok (a, rest)

/-- What stands behind a part when the tokens `us` follow, and then one of `next`. -/
def heads : (us : List Token) → (next : List (Option Token)) → List (Option Token)
  | [], next => next
  | u :: _, _ => [some u]

/-- What follows may be seen part by part. -/
theorem heads_append (us vs : List Token) (next : List (Option Token)) :
    heads (us ++ vs) next = heads us (heads vs next) := by
  cases us <;> rfl

/-- No token of `next` is the keyword `k`. -/
def NoKeyword (k : String) (next : List (Option Token)) : Prop :=
  ∀ o ∈ next, o.any (Token.isKeyword k) = false

/-- No token of `next` is the symbol `s`. -/
def NoSymbol (s : String) (next : List (Option Token)) : Prop :=
  some (.symbol s) ∉ next

instance (k : String) (next : List (Option Token)) : Decidable (NoKeyword k next) :=
  inferInstanceAs (Decidable (∀ o ∈ next, _))

instance (s : String) (next : List (Option Token)) : Decidable (NoSymbol s next) :=
  inferInstanceAs (Decidable (¬ _))

/-- Only the first token of what follows may be the keyword. -/
theorem noKeyword_heads {k : String} {t : Token} (h : t.isKeyword k = false) (us : List Token)
    (next : List (Option Token)) : NoKeyword k (heads (t :: us) next) := by
  intro o ho
  rw [List.mem_singleton.1 ho]
  exact h

/-! ## One reader behind another -/

/-- What stands behind the first of two parts is the head of the second. -/
theorem mem_heads {input rest : List Located} {us : List Token} {next : List (Option Token)}
    (hus : input.map Located.token = us) (hrest : rest.head?.map Located.token ∈ next) :
    (input ++ rest).head?.map Located.token ∈ heads us next := by
  cases input with
  | nil =>
    subst hus
    exact hrest
  | cons t input =>
    subst hus
    simp [heads]

/-- A reader that takes nothing. -/
theorem reads_pure (a : α) (next : List (Option Token)) : Reads (pure a) [] next a := by
  intro input rest hts _
  rw [List.map_eq_nil_iff.1 hts]
  rfl

/-- A second reader goes on behind the first. -/
theorem Reads.bind {r : TokenReader α} {f : α → TokenReader β} {ts us : List Token}
    {next : List (Option Token)} {a : α} {b : β} (hr : Reads r ts (heads us next) a)
    (hf : Reads (f a) us next b) : Reads (r >>= f) (ts ++ us) next b := by
  intro input rest hts hrest
  obtain ⟨i₁, i₂, rfl, h₁, h₂⟩ := List.map_eq_append_iff.1 hts
  have hfirst := hr i₁ (i₂ ++ rest) h₁ (mem_heads h₂ hrest)
  rw [List.append_assoc, Reader.run_bind_of_ok hfirst]
  exact hf i₂ rest h₂ hrest

/-- A first part that takes no token leaves all tokens to the second. -/
theorem Reads.bind_nil {r : TokenReader α} {f : α → TokenReader β} {us : List Token}
    {next : List (Option Token)} {a : α} {b : β} (hr : Reads r [] (heads us next) a)
    (hf : Reads (f a) us next b) : Reads (r >>= f) us next b :=
  hr.bind hf

/-- A first part that takes one token leaves those behind it to the second. -/
theorem Reads.bind_cons {r : TokenReader α} {f : α → TokenReader β} {t : Token} {us : List Token}
    {next : List (Option Token)} {a : α} {b : β} (hr : Reads r [t] (heads us next) a)
    (hf : Reads (f a) us next b) : Reads (r >>= f) (t :: us) next b :=
  hr.bind hf

/-- A second reader takes nothing behind the first. -/
theorem Reads.bind_last {r : TokenReader α} {f : α → TokenReader β} {ts : List Token}
    {next : List (Option Token)} {a : α} {b : β} (hr : Reads r ts next a)
    (hf : Reads (f a) [] next b) : Reads (r >>= f) ts next b := by
  have hfirst : Reads r ts (heads [] next) a := hr
  have h := hfirst.bind hf
  rwa [List.append_nil] at h

/-- A value is made of what is read. -/
theorem Reads.map {r : TokenReader α} {ts : List Token} {next : List (Option Token)} {a : α}
    (hr : Reads r ts next a) (f : α → β) : Reads (r >>= fun x => pure (f x)) ts next (f a) :=
  hr.bind_last (reads_pure (f a) next)

/-- What is read is not needed. -/
theorem Reads.discard {r : TokenReader α} {ts : List Token} {next : List (Option Token)} {a : α}
    (hr : Reads r ts next a) : Reads (discard r) ts next () :=
  hr.map fun _ => ()

/-- Fewer tokens may stand behind. -/
theorem Reads.mono {r : TokenReader α} {ts : List Token} {next next' : List (Option Token)} {a : α}
    (hr : Reads r ts next a) (h : ∀ o ∈ next', o ∈ next) : Reads r ts next' a :=
  fun input rest hts hrest => hr input rest hts (h _ hrest)

/-- The tokens that may stand behind are taken one by one. -/
theorem reads_of_forall {r : TokenReader α} {ts : List Token} {next : List (Option Token)} {a : α}
    (h : ∀ o ∈ next, Reads r ts [o] a) : Reads r ts next a :=
  fun input rest hts hrest => h _ hrest input rest hts (List.mem_singleton.2 rfl)

/-! ## Single tokens

What asks for a token gives `true` and takes it where it stands, and gives `false` and leaves the
input as it is where another one does. -/

namespace TokenReader

/-- The next token is seen and not taken. -/
theorem reads_peek? (o : Option Token) : Reads peek? [] [o] o := by
  intro input rest hts hrest
  rw [List.map_eq_nil_iff.1 hts, List.nil_append, ← List.mem_singleton.1 hrest]
  rfl

/-- A token that `p` accepts is taken. -/
theorem reads_next?_some {p : Token → Option α} {t : Token} {a : α} (h : p t = some a)
    (next : List (Option Token)) : Reads (next? p) [t] next (some a) := by
  intro input rest hts _
  obtain ⟨l, rfl, rfl⟩ := List.map_eq_singleton_iff.1 hts
  simp [next?, StateT.run, h]

/-- A token that `p` does not accept is left. -/
theorem reads_next?_none {p : Token → Option α} {next : List (Option Token)}
    (h : ∀ o ∈ next, o.bind p = none) : Reads (next? p) [] next none := by
  intro input rest hts hrest
  rw [List.map_eq_nil_iff.1 hts, List.nil_append]
  -- At the end of the input nothing is taken either.
  cases rest with
  | nil => rfl
  | cons l rest =>
    have hl : p l.token = none := h _ hrest
    simp [next?, StateT.run, hl]

/-- A token is taken, whatever it is. -/
theorem reads_skip (t : Token) (next : List (Option Token)) : Reads skip [t] next () := by
  intro input rest hts _
  obtain ⟨l, rfl, -⟩ := List.map_eq_singleton_iff.1 hts
  rfl

/-- A symbol is taken where it stands. -/
theorem reads_symbol?_true (s : String) (next : List (Option Token)) :
    Reads (symbol? s) [.symbol s] next true :=
  (reads_next?_some (a := ()) (by simp) next).map Option.isSome

/-- A symbol is not taken where it does not stand. -/
theorem reads_symbol?_false {s : String} {next : List (Option Token)} (h : NoSymbol s next) :
    Reads (symbol? s) [] next false := by
  refine Reads.map (a := none) (reads_next?_none fun o ho => ?_) Option.isSome
  cases o with
  | none => rfl
  | some t =>
    have ht : t ≠ .symbol s := by
      rintro rfl
      exact h ho
    simp [ht]

theorem reads_symbol (s : String) (next : List (Option Token)) :
    Reads (symbol s) [.symbol s] next () :=
  (reads_symbol?_true s _).bind_cons (reads_pure () next)

/-- A keyword is taken where it stands. -/
theorem reads_keyword?_true {k : String} {t : Token} (h : t.isKeyword k = true)
    (next : List (Option Token)) : Reads (keyword? k) [t] next true :=
  (reads_next?_some (a := ()) (by simp [h]) next).map Option.isSome

/-- A keyword is not taken where it does not stand. -/
theorem reads_keyword?_false {k : String} {next : List (Option Token)} (h : NoKeyword k next) :
    Reads (keyword? k) [] next false := by
  refine Reads.map (a := none) (reads_next?_none fun o ho => ?_) Option.isSome
  cases o with
  | none => rfl
  | some t =>
    have ht : t.isKeyword k = false := h _ ho
    simp [ht]

theorem reads_anyKeyword?_false {ks : List String} {next : List (Option Token)}
    (h : ∀ k ∈ ks, NoKeyword k next) : Reads (anyKeyword? ks) [] next false := by
  refine Reads.map (a := none) (reads_next?_none fun o ho => ?_) Option.isSome
  cases o with
  | none => rfl
  | some t =>
    have ht : ∀ k ∈ ks, t.isKeyword k = false := fun k hk => h k hk _ ho
    simpa using ht

theorem reads_keyword {k : String} {t : Token} (h : t.isKeyword k = true)
    (next : List (Option Token)) : Reads (keyword k) [t] next () :=
  (reads_keyword?_true h _).bind_cons (reads_pure () next)

/-- Two keywords are taken where both stand. -/
theorem reads_keywords?_true {k l : String} {t u : Token} (ht : t.isKeyword k = true)
    (hu : u.isKeyword l = true) (next : List (Option Token)) :
    Reads (keywords? [k, l]) [t, u] next true := by
  intro input rest hts _
  obtain ⟨a, tail, rfl, rfl, htail⟩ := List.map_eq_cons_iff.1 hts
  obtain ⟨b, rfl, rfl⟩ := List.map_eq_singleton_iff.1 htail
  simp [keywords?, StateT.run, ht, hu]

/-- Keywords are left where the first of them does not stand. -/
theorem reads_keywords?_false {k : String} {ks : List String} {next : List (Option Token)}
    (h : NoKeyword k next) : Reads (keywords? (k :: ks)) [] next false := by
  intro input rest hts hrest
  rw [List.map_eq_nil_iff.1 hts, List.nil_append]
  cases rest with
  | nil => rfl
  | cons l rest =>
    have hl : l.token.isKeyword k = false := h _ hrest
    simp [keywords?, StateT.run, hl]

theorem reads_atSymbol_false {s : String} {next : List (Option Token)} (h : NoSymbol s next) :
    Reads (atSymbol s) [] next false := by
  intro input rest hts hrest
  rw [List.map_eq_nil_iff.1 hts, List.nil_append]
  have hne : rest.head?.map Located.token ≠ some (.symbol s) := fun he => h (he ▸ hrest)
  simp [atSymbol, peek?, StateT.run, bind, StateT.bind, Except.bind, hne]
  rfl

theorem reads_atSymbol_true (s : String) : Reads (atSymbol s) [] [some (.symbol s)] true := by
  refine (reads_peek? (some (.symbol s))).bind_nil ?_
  simpa using reads_pure true [some (.symbol s)]

end TokenReader

/-! ## Choices

A choice goes the one way where what it asks for stands (`_then`), and the other way where something
else does (`_else`, and `_other` where the token that stands there is known). -/

open TokenReader

/-- Where the keyword stands, the first branch is read behind it. -/
theorem Reads.keyword?_then {k : String} {t : Token} {p q : TokenReader α} {us : List Token}
    {next : List (Option Token)} {a : α} (h : t.isKeyword k = true) (hr : Reads p us next a) :
    Reads (do if ← keyword? k then p else q) (t :: us) next a :=
  (reads_keyword?_true h _).bind_cons hr

/-- Where the keyword does not stand, the second branch is read. -/
theorem Reads.keyword?_else {k : String} {p q : TokenReader α} {us : List Token}
    {next : List (Option Token)} {a : α} (h : NoKeyword k (heads us next))
    (hr : Reads q us next a) : Reads (do if ← keyword? k then p else q) us next a :=
  (reads_keyword?_false h).bind_nil hr

/-- Where both keywords stand, the first branch is read behind them. -/
theorem Reads.keywords?_then {k l : String} {t u : Token} {p q : TokenReader α} {us : List Token}
    {next : List (Option Token)} {a : α} (ht : t.isKeyword k = true) (hu : u.isKeyword l = true)
    (hr : Reads p us next a) :
    Reads (do if ← keywords? [k, l] then p else q) (t :: u :: us) next a :=
  (reads_keywords?_true ht hu _).bind hr

/-- Where the first keyword does not stand, the second branch is read. -/
theorem Reads.keywords?_else {k : String} {ks : List String} {p q : TokenReader α}
    {us : List Token} {next : List (Option Token)} {a : α} (h : NoKeyword k (heads us next))
    (hr : Reads q us next a) : Reads (do if ← keywords? (k :: ks) then p else q) us next a :=
  (reads_keywords?_false h).bind_nil hr

/-- A choice goes the other way where the second of its keywords does not stand. -/
theorem Reads.keywords?_else_second {k l : String} {t u : Token} {p q : TokenReader α}
    {us : List Token} {next : List (Option Token)} {a : α} (hu : u.isKeyword l = false)
    (hr : Reads q (t :: u :: us) next a) :
    Reads (do if ← keywords? [k, l] then p else q) (t :: u :: us) next a := by
  intro input rest hts hrest
  -- Two words are asked for, and the second is another one: neither is taken.
  have hleft : (keywords? [k, l]).run (input ++ rest) = .ok (false, input ++ rest) := by
    obtain ⟨x, tail, rfl, -, htail⟩ := List.map_eq_cons_iff.1 hts
    obtain ⟨y, tail', rfl, rfl, -⟩ := List.map_eq_cons_iff.1 htail
    simp [keywords?, StateT.run, hu]
  rw [Reader.run_bind_of_ok hleft]
  exact hr input rest hts hrest

/-- A choice goes the other way where another token stands. -/
theorem Reads.keyword?_other {k : String} {t : Token} {p q : TokenReader α} {us : List Token}
    {next : List (Option Token)} {a : α} (ht : t.isKeyword k = false)
    (hr : Reads q (t :: us) next a) :
    Reads (do if ← keyword? k then p else q) (t :: us) next a :=
  Reads.keyword?_else (noKeyword_heads ht us next) hr

theorem Reads.keywords?_other {k : String} {ks : List String} {t : Token} {p q : TokenReader α}
    {us : List Token} {next : List (Option Token)} {a : α} (ht : t.isKeyword k = false)
    (hr : Reads q (t :: us) next a) :
    Reads (do if ← keywords? (k :: ks) then p else q) (t :: us) next a :=
  Reads.keywords?_else (noKeyword_heads ht us next) hr

/-- Where the symbol stands, the first branch is read behind it. -/
theorem Reads.symbol?_then {s : String} {p q : TokenReader α} {us : List Token}
    {next : List (Option Token)} {a : α} (hr : Reads p us next a) :
    Reads (do if ← symbol? s then p else q) (.symbol s :: us) next a :=
  (reads_symbol?_true s _).bind_cons hr

/-- Where the symbol does not stand, the second branch is read. -/
theorem Reads.symbol?_else {s : String} {p q : TokenReader α} {us : List Token}
    {next : List (Option Token)} {a : α} (h : NoSymbol s (heads us next))
    (hr : Reads q us next a) : Reads (do if ← symbol? s then p else q) us next a :=
  (reads_symbol?_false h).bind_nil hr

/-! ## Loops -/

/-- A loop with enough steps takes the tokens `ts`, and comes from `s` to `s'`. -/
def ReadsLoop (step : σ → TokenReader (Option σ)) (ts : List Token) (next : List (Option Token))
    (s s' : σ) : Prop :=
  ∀ (fuel : Nat) (input rest : List Located), input.map Located.token = ts →
    rest.head?.map Located.token ∈ next → (input ++ rest).length < fuel →
      (Reader.iterateUpTo step fuel s).run (input ++ rest) = .ok (s', rest)

/-- A loop ends with a step that says so. -/
theorem ReadsLoop.stop {step : σ → TokenReader (Option σ)} {ts : List Token}
    {next : List (Option Token)} {s : σ} (h : Reads (step s) ts next none) :
    ReadsLoop step ts next s s := by
  intro fuel input rest hts hrest hfuel
  obtain ⟨n, rfl⟩ : ∃ n, fuel = n + 1 := ⟨fuel - 1, by omega⟩
  rw [Reader.iterateUpTo, Reader.run_bind_of_ok (h input rest hts hrest)]
  rfl

/-- A loop goes on behind a step that takes a token at least. -/
theorem ReadsLoop.step {step : σ → TokenReader (Option σ)} {t : Token} {l m : List Token}
    {next : List (Option Token)} {a b c : σ} (h : Reads (step a) (t :: l) (heads m next) (some b))
    (hloop : ReadsLoop step m next b c) : ReadsLoop step (t :: l ++ m) next a c := by
  intro fuel input rest hts hrest hfuel
  obtain ⟨n, rfl⟩ : ∃ n, fuel = n + 1 := ⟨fuel - 1, by omega⟩
  obtain ⟨i₁, i₂, rfl, h₁, h₂⟩ := List.map_eq_append_iff.1 hts
  -- The step takes a token at least, so a step less is enough for what is left.
  have hlen : i₁.length = l.length + 1 := by
    rw [← List.length_map (f := Located.token), h₁]
    rfl
  have hstep := h i₁ (i₂ ++ rest) h₁ (mem_heads h₂ hrest)
  rw [List.append_assoc, Reader.iterateUpTo, Reader.run_bind_of_ok hstep]
  refine hloop n i₂ rest h₂ hrest ?_
  simp only [List.length_append] at hfuel ⊢
  omega

/-- A loop has steps enough. -/
theorem ReadsLoop.iterate {step : σ → TokenReader (Option σ)} {ts : List Token}
    {next : List (Option Token)} {s s' : σ} (h : ReadsLoop step ts next s s') :
    Reads (Reader.iterate step s) ts next s' :=
  fun input rest hts hrest => h _ input rest hts hrest (Nat.lt_succ_self _)

/-! ## Names and lists -/

/-- An unquoted word is read as a name. -/
theorem reads_name (n : String) (next : List (Option Token)) :
    Reads Name.read [.word n false] next ⟨n, none⟩ :=
  (reads_next?_some (p := Name.ofToken?) rfl _).bind_cons (reads_pure _ next)

/-- A name without dots is read as a name of one part. -/
theorem reads_dotted (n : String) {next : List (Option Token)} (h : NoSymbol "." next) :
    Reads Name.readDotted [.word n false] next [⟨n, none⟩] := by
  refine (reads_name n _).bind_cons (Reads.bind_nil (a := []) ?_ (reads_pure _ next))
  exact (ReadsLoop.stop (Reads.symbol?_else h (reads_pure none next))).iterate

/-- The tokens of several items, with a comma between two of them. -/
def commaTokens (items : List (List Token)) : List Token :=
  [Token.symbol ","].intercalate items

/-- The tokens of items that stand behind another one. -/
theorem commaTokens_cons (item : List Token) (items : List (List Token)) :
    commaTokens (item :: items) = item ++ items.flatMap (.symbol "," :: ·) := by
  induction items generalizing item with
  | nil => simp [commaTokens]
  | cons item' items ih =>
    have hcons : commaTokens (item :: item' :: items)
        = item ++ [.symbol ","] ++ commaTokens (item' :: items) := by
      simp [commaTokens, List.intercalate_cons_cons]
    rw [hcons, ih item']
    simp

/-- What stands behind an item of a list: a comma, or what stands behind the list. -/
theorem heads_flatMap_comma (xs : List β) (toks : β → List Token) (next : List (Option Token)) :
    ∀ o ∈ heads (xs.flatMap fun x => .symbol "," :: toks x) next,
      o ∈ some (.symbol ",") :: next := by
  cases xs with
  | nil => exact fun o ho => List.mem_cons_of_mem _ ho
  | cons x xs =>
    intro o ho
    rw [List.mem_singleton.1 ho]
    exact List.mem_cons_self

/-- A list of items with commas between them is read item by item. -/
theorem reads_commaSeparated {item : TokenReader α} {toks : β → List Token} {value : β → α}
    {next : List (Option Token)} (hnext : NoSymbol "," next) {xs : List β} (hne : xs ≠ [])
    (hitem : ∀ x ∈ xs, Reads item (toks x) (some (.symbol ",") :: next) (value x)) :
    Reads (commaSeparated item) (commaTokens (xs.map toks)) next (xs.map value) := by
  -- The items behind the first one are collected in reverse.
  have hloop : ∀ (ys : List β) (done : List α), (∀ y ∈ ys, y ∈ xs) →
      ReadsLoop (fun items => do
        if ← symbol? "," then
          let a ← item
          pure (some (a :: items))
        else pure none) (ys.flatMap fun y => .symbol "," :: toks y) next done
        ((ys.map value).reverse ++ done) := by
    intro ys
    induction ys with
    | nil => exact fun done _ => ReadsLoop.stop (Reads.symbol?_else hnext (reads_pure none next))
    | cons y ys ih =>
      intro done hys
      have hy := (hitem y (hys y List.mem_cons_self)).mono (heads_flatMap_comma ys toks next)
      have hrest := ih (value y :: done) fun z hz => hys z (List.mem_cons_of_mem y hz)
      have hstep := Reads.symbol?_then (s := ",") (q := pure none)
        (hy.map fun a => some (a :: done))
      simpa using ReadsLoop.step hstep hrest
  cases xs with
  | nil => exact absurd rfl hne
  | cons x xs =>
    have hx := (hitem x List.mem_cons_self).mono (heads_flatMap_comma xs toks next)
    have hrest := (hloop xs [] fun y hy => List.mem_cons_of_mem x hy).iterate
    rw [List.map_cons, commaTokens_cons, List.flatMap_map]
    refine Reads.bind hx (Reads.bind_last hrest ?_)
    simpa using reads_pure (value x :: xs.map value) next

end ProtoSchema.Sql
