import ProtoSchema.Proofs.Wire.ReadBack

/-!
# Bytes that a reader takes

A reader that succeeds takes bytes from the front of the input, and it takes the same bytes when
something else follows them. `Consumes r P` says so of `r`, and that `P` holds of the value and of
the bytes. A loop is unfolded step by step: when every step that goes on takes a byte at least, it
goes on behind a step as it would have started there.

Key results:
* `Reader.run_iterate_of_some` — a loop behind its first step
* `Consumes.bind`, `consumes_iterate` — readers in a row, and the steps of a loop
-/

namespace ProtoSchema

/-! ## Loops, step by step -/

namespace Reader

variable {τ ε σ : Type} {step : σ → Reader τ ε (Option σ)} {s s' : σ} {input rest : List τ}

/-- Every step that goes on takes a symbol at least. -/
def Advances (step : σ → Reader τ ε (Option σ)) : Prop :=
  ∀ s input s' rest, (step s).run input = .ok (some s', rest) → rest.length < input.length

/-- A loop that has more steps than there are symbols does not run out of them. -/
theorem run_iterateUpTo_of_lt (hstep : Advances step) {fuel fuel' : Nat}
    (hfuel : input.length < fuel) (hfuel' : input.length < fuel') (s : σ) :
    (iterateUpTo step fuel s).run input = (iterateUpTo step fuel' s).run input := by
  induction fuel generalizing fuel' s input with
  | zero => omega
  | succ fuel ih =>
    -- The two runs take the same step, and a step that goes on leaves a shorter input, so both
    -- amounts of fuel still suffice for it.
    obtain ⟨fuel', rfl⟩ : ∃ n, fuel' = n + 1 := ⟨fuel' - 1, by omega⟩
    simp only [iterateUpTo, StateT.run_bind]
    cases hrun : (step s).run input with
    | error e => rfl
    | ok p =>
      obtain ⟨o, rest⟩ := p
      cases o with
      | none => rfl
      | some s' =>
        have hlt := hstep s input s' rest hrun
        have hrest : rest.length < fuel := by omega
        have hrest' : rest.length < fuel' := by omega
        exact ih hrest hrest' s'

/-- A loop goes on behind its first step as it would have started there. -/
theorem run_iterate_of_some (hstep : Advances step)
    (h : (step s).run input = .ok (some s', rest)) :
    (iterate step s).run input = (iterate step s').run rest := by
  have hlt := hstep s input s' rest h
  show (iterateUpTo step (input.length + 1) s).run input
    = (iterateUpTo step (rest.length + 1) s').run rest
  rw [iterateUpTo, run_bind_of_ok h]
  exact run_iterateUpTo_of_lt hstep hlt (by omega) s'

/-- A loop whose first step fails does so too. -/
theorem run_iterate_of_error {e : ε} (h : (step s).run input = .error e) :
    (iterate step s).run input = .error e := by
  show (iterateUpTo step (input.length + 1) s).run input = _
  rw [iterateUpTo, StateT.run_bind, h]
  rfl

end Reader

namespace Wire

variable {α β σ : Type}

section Iterate

variable {step : σ → ByteReader (Option σ)} {s s' s'' : σ} {bs cs : List UInt8}

/-- A loop stops with its first step. -/
theorem Takes.iterate_none (h : Takes (step s) bs none) : Takes (Reader.iterate step s) bs s :=
  fun rest => Reader.run_iterate_of_none (h rest)

/-- A loop goes on behind its first step. -/
theorem Takes.iterate_some (hstep : Reader.Advances step) (h : Takes (step s) bs (some s'))
    (h' : Takes (Reader.iterate step s') cs s'') :
    Takes (Reader.iterate step s) (bs ++ cs) s'' := by
  intro rest
  rw [List.append_assoc, Reader.run_iterate_of_some hstep (h (cs ++ rest))]
  exact h' rest

/-- A loop fails behind its first step. -/
theorem Takes.iterate_exhausts (hstep : Reader.Advances step) (h : Takes (step s) bs (some s'))
    (h' : Exhausts (Reader.iterate step s') cs) :
    Exhausts (Reader.iterate step s) (bs ++ cs) := by
  intro rest
  rw [List.append_assoc, Reader.run_iterate_of_some hstep (h (cs ++ rest))]
  exact h' rest

/-- A loop fails in its first step. -/
theorem Exhausts.iterate (h : Exhausts (step s) bs) : Exhausts (Reader.iterate step s) bs := by
  intro rest
  obtain ⟨e, he, hfault⟩ := h rest
  exact ⟨e, Reader.run_iterate_of_error he, hfault⟩

end Iterate

/-! ## Values and the bytes they are read from -/

/-- From the front of an input a reader takes the same bytes, whatever they are said to be. -/
theorem Takes.append_inj {r : ByteReader α} {a b : α} {bs cs xs ys : List UInt8} (h : Takes r bs a)
    (h' : Takes r cs b) (heq : bs ++ xs = cs ++ ys) : bs = cs := by
  have hrun := h xs
  rw [heq, h' ys] at hrun
  obtain ⟨-, rfl⟩ := Prod.mk.inj (Except.ok.inj hrun)
  exact List.append_cancel_right heq

/-- Where `r` succeeds, it takes bytes from the front of the input, whatever follows them, and `P`
holds of its value and of these bytes. -/
def Consumes (r : ByteReader α) (P : α → List UInt8 → Prop) : Prop :=
  ∀ input a rest, r.run input = .ok (a, rest) → ∃ bs, input = bs ++ rest ∧ Takes r bs a ∧ P a bs

section Consumes

variable {r : ByteReader α} {P P' : α → List UInt8 → Prop} {Q : β → List UInt8 → Prop}

/-- A reader that reads nothing takes no bytes. -/
theorem consumes_pure {a : α} (h : P a []) : Consumes (pure a) P := by
  rintro input _ _ ⟨⟩
  exact ⟨[], rfl, takes_pure a, h⟩

/-- A reader that fails takes no bytes in any case that succeeds. -/
theorem consumes_fault (f : DecodeFault) (P : α → List UInt8 → Prop) : Consumes (fault f) P := by
  rintro input a rest ⟨⟩

/-- Less may be said. -/
theorem Consumes.mono (h : Consumes r P) (hP : ∀ a bs, P a bs → P' a bs) : Consumes r P' := by
  intro input a rest hr
  obtain ⟨bs, hinput, htakes, ha⟩ := h input a rest hr
  exact ⟨bs, hinput, htakes, hP a bs ha⟩

/-- What holds where `r` succeeds holds of the bytes that it is known to take. -/
theorem Consumes.of_takes (h : Consumes r P) {bs : List UInt8} {a : α} (htakes : Takes r bs a) :
    P a bs := by
  obtain ⟨cs, hinput, -, ha⟩ := h (bs ++ []) a [] (htakes [])
  have heq : bs = cs := List.append_cancel_right hinput
  rwa [heq]

/-- A second reader takes more bytes. -/
theorem Consumes.bind {f : α → ByteReader β} (hr : Consumes r P)
    (hf : ∀ a bs, P a bs → Consumes (f a) fun b cs => Q b (bs ++ cs)) : Consumes (r >>= f) Q := by
  intro input b rest h
  obtain ⟨a, mid, hfirst, hsecond⟩ := Reader.run_bind_eq_ok h
  obtain ⟨bs, rfl, htakes, ha⟩ := hr input a mid hfirst
  obtain ⟨cs, rfl, htakes', hb⟩ := hf a bs ha mid b rest hsecond
  exact ⟨bs ++ cs, by rw [List.append_assoc], htakes.bind htakes', hb⟩

/-- A value is made of what is read. -/
theorem Consumes.map (hr : Consumes r P) {f : α → β} (hf : ∀ a bs, P a bs → Q (f a) bs) :
    Consumes (r >>= fun a => pure (f a)) Q := by
  refine hr.bind fun a bs ha => consumes_pure ?_
  rw [List.append_nil]
  exact hf a bs ha

/-- What is read may be dropped. -/
theorem Consumes.discard (hr : Consumes r P) : Consumes (discard r) fun _ bs => ∃ a, P a bs :=
  hr.map (f := fun _ => PUnit.unit) fun a _ ha => ⟨a, ha⟩

/-- Other words for an error leave the bytes that are taken as they are. -/
theorem Consumes.mapError (h : Consumes r P) (f : DecodeError → DecodeError) :
    Consumes (Reader.mapError f r) P := by
  intro input a rest hr
  have hr' : (r input).mapError f = .ok (a, rest) := hr
  cases hi : r input with
  | error e =>
    rw [hi] at hr'
    cases hr'
  | ok p =>
    rw [hi] at hr'
    -- A success passes through the translation of errors unchanged.
    obtain rfl : p = (a, rest) := Except.ok.inj hr'
    obtain ⟨bs, hinput, htakes, ha⟩ := h input a rest hi
    exact ⟨bs, hinput, htakes.mapError f, ha⟩

/-- Counting gives the number of bytes that are taken. -/
theorem Consumes.counted (h : Consumes r P) :
    Consumes (Reader.counted r) fun p bs => p.2 = bs.length ∧ Takes r bs p.1 ∧ P p.1 bs := by
  intro input p rest hr
  have hr' : (r input).map (fun q => ((q.1, input.length - q.2.length), q.2)) = .ok (p, rest) := hr
  cases hi : r input with
  | error e =>
    rw [hi] at hr'
    cases hr'
  | ok q =>
    rw [hi] at hr'
    obtain ⟨rfl, rfl⟩ := Prod.mk.inj (Except.ok.inj hr')
    obtain ⟨bs, rfl, htakes, ha⟩ := h input q.1 q.2 hi
    -- The count is the difference of two lengths, and what lies between them is `bs`.
    have hcount : (bs ++ q.2).length - q.2.length = bs.length := by
      rw [List.length_append]
      omega
    refine ⟨bs, rfl, ?_, hcount, htakes, ha⟩
    rw [hcount]
    exact htakes.counted

/-- A number of bytes is taken as it is. -/
theorem consumes_take (count : Nat) (e : DecodeError) :
    Consumes (Reader.take count e) fun a bs => a = bs ∧ bs.length = count := by
  intro input taken rest h
  have h' : (if (input.take count).length < count then .error e
      else .ok (input.take count, input.drop count)) = Except.ok (taken, rest) := h
  split at h'
  · cases h'
  · next hlength =>
    obtain ⟨rfl, rfl⟩ := Prod.mk.inj (Except.ok.inj h')
    -- The reader refuses a short input, so `count` bytes were there to be taken.
    have htaken : (input.take count).length = count := by
      rw [List.length_take] at hlength ⊢
      omega
    refine ⟨input.take count, (List.take_append_drop count input).symm, ?_, rfl, htaken⟩
    have htakes := takes_take (input.take count) e
    rwa [htaken] at htakes

/-- A step that takes bytes where it goes on takes a byte at least. -/
theorem advances_of_consumes {step : σ → ByteReader (Option σ)}
    (h : ∀ s, Consumes (step s) fun o bs => o.isSome → bs ≠ []) : Reader.Advances step := by
  intro s input s' rest hrun
  obtain ⟨bs, rfl, -, hne⟩ := h s input (some s') rest hrun
  have hpos : 0 < bs.length := List.length_pos_iff.2 (hne rfl)
  rw [List.length_append]
  omega

/-- The bytes that the steps of a loop take, from the state `s` on: `P s bs s'` is to hold where a
step stops, and to be kept from behind a step that goes on to where it started. -/
theorem consumes_iterate {step : σ → ByteReader (Option σ)} {P : σ → List UInt8 → σ → Prop}
    (hadvances : Reader.Advances step)
    (hstep : ∀ s, Consumes (step s) fun o bs =>
      match o with
      | none => P s bs s
      | some s' => ∀ cs s'', P s' cs s'' → P s (bs ++ cs) s'') (s : σ) :
    Consumes (Reader.iterate step s) fun s' bs => P s bs s' := by
  intro input
  -- By induction on the length of the input: a step that goes on leaves less of it.
  induction hlength : input.length using Nat.strongRecOn generalizing input s with
  | ind length ih =>
    intro t rest h
    cases hrun : (step s).run input with
    | error e =>
      rw [Reader.run_iterate_of_error hrun] at h
      cases h
    | ok p =>
      obtain ⟨o, mid⟩ := p
      cases o with
      | none =>
        obtain ⟨bs, rfl, htakes, hP⟩ := hstep s input none mid hrun
        rw [Reader.run_iterate_of_none hrun] at h
        cases h
        exact ⟨bs, rfl, htakes.iterate_none, hP⟩
      | some s' =>
        have hlt : mid.length < length := hlength ▸ hadvances s input s' mid hrun
        obtain ⟨bs, rfl, htakes, hP⟩ := hstep s input (some s') mid hrun
        rw [Reader.run_iterate_of_some hadvances hrun] at h
        obtain ⟨cs, rfl, htakes', hP'⟩ := ih mid.length hlt s' mid rfl t rest h
        exact ⟨bs ++ cs, by rw [List.append_assoc], htakes.iterate_some hadvances htakes',
          hP cs t hP'⟩

end Consumes

end Wire

end ProtoSchema
