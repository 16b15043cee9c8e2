/-!
# Readers

A reader takes what it needs from the front of a list of symbols and leaves the rest, or fails.
Readers are the common base of the wire format (symbols are bytes), the tokenizer (characters) and
the statement reader (tokens).

Key results:
* `Reader.run_bind_of_ok`, `Reader.run_bind_eq_ok` — two readers in a row
* `Reader.run_iterate_of_none` — a loop whose first step stops leaves the input as it is
* `Reader.run_counted` — counting changes neither the value nor the rest
-/

namespace ProtoSchema

/-- Reads values from the front of a list of `τ`, or fails with an `ε`. -/
abbrev Reader (τ ε : Type) := StateT (List τ) (Except ε)

namespace Reader

variable {τ ε α β σ : Type}

/-- Fails with `e`. -/
def fail (e : ε) : Reader τ ε α :=
  fun _ => .error e

/-- Looks at the first symbol without taking it. -/
def peek? : Reader τ ε (Option τ) :=
  fun input => .ok (input.head?, input)

/-- Takes the first symbol, if there is one. -/
def next? : Reader τ ε (Option τ) :=
  fun input => .ok (input.head?, input.tail)

/-- Takes exactly `n` symbols, or fails with `e` when fewer are left. -/
def take (n : Nat) (e : ε) : Reader τ ε (List τ) :=
  fun input =>
    let taken := input.take n
    if taken.length < n then .error e else .ok (taken, input.drop n)

/-- Changes the error that `r` fails with. -/
def mapError (f : ε → ε) (r : Reader τ ε α) : Reader τ ε α :=
  fun input => (r input).mapError f

/-- Runs `r`; where it fails, takes nothing and gives `none`. -/
def attempt (r : Reader τ ε α) : Reader τ ε (Option α) :=
  fun input =>
    match r input with
    | .ok (a, rest) => .ok (some a, rest)
    | .error _ => .ok (none, input)

/-- Runs `r` and also gives the number of symbols it took. -/
def counted (r : Reader τ ε α) : Reader τ ε (α × Nat) :=
  fun input =>
    (r input).map fun (a, rest) => ((a, input.length - rest.length), rest)

/-- Repeats `step` until it gives `none`, at most `fuel` times. -/
def iterateUpTo (step : σ → Reader τ ε (Option σ)) : Nat → σ → Reader τ ε σ
  | 0, s => pure s
  | fuel + 1, s => do
    match ← step s with
    | none => pure s
    -- One unit of fuel for each step that goes on.
    | some s' => iterateUpTo step fuel s'

/-- Repeats `step` until it gives `none`. Each step that goes on is to take a symbol at least, so
that one step more than there are symbols is enough. -/
def iterate (step : σ → Reader τ ε (Option σ)) (s : σ) : Reader τ ε σ :=
  fun input => iterateUpTo step (input.length + 1) s input

/-- One or more values of `item`, as long as `more` says that another one follows. -/
def separated (item : Reader τ ε α) (more : Reader τ ε Bool) : Reader τ ε (List α) := do
  let first ← item
  let rest ← iterate (fun items => do
    if ← more then
      let a ← item
      pure (some (a :: items))
    else pure none) []
  pure (first :: rest.reverse)

/-- Failing does not depend on the input. -/
@[simp] theorem run_fail (e : ε) (input : List τ) :
    (fail e : Reader τ ε α).run input = .error e := rfl

/-- After a reader that succeeds, the next one goes on with what was left. -/
theorem run_bind_of_ok {r : Reader τ ε α} {f : α → Reader τ ε β} {input rest : List τ} {a : α}
    (h : r.run input = .ok (a, rest)) : (r >>= f).run input = (f a).run rest := by
  rw [StateT.run_bind, h]
  rfl

/-- A reader that succeeds behind another one goes on with what that one left. -/
theorem run_bind_eq_ok {r : Reader τ ε α} {f : α → Reader τ ε β} {input rest : List τ} {b : β}
    (h : (r >>= f).run input = .ok (b, rest)) :
    ∃ a mid, r.run input = .ok (a, mid) ∧ (f a).run mid = .ok (b, rest) := by
  rw [StateT.run_bind] at h
  cases hr : r.run input with
  | error e =>
    rw [hr] at h
    cases h
  | ok p =>
    rw [hr] at h
    exact ⟨p.1, p.2, rfl, h⟩

/-- A loop whose first step stops leaves the input as that step does. -/
theorem run_iterate_of_none {step : σ → Reader τ ε (Option σ)} {s : σ} {input rest : List τ}
    (h : (step s).run input = .ok (none, rest)) :
    (iterate step s).run input = .ok (s, rest) := by
  show (iterateUpTo step (input.length + 1) s).run input = _
  rw [iterateUpTo, run_bind_of_ok h]
  rfl

/-- Counting changes neither the value nor the rest. -/
theorem run_counted {r : Reader τ ε α} {input rest : List τ} {a : α}
    (h : r.run input = .ok (a, rest)) :
    (counted r).run input = .ok ((a, input.length - rest.length), rest) := by
  have h' : r input = .ok (a, rest) := h
  simp [counted, StateT.run, h', Except.map]

end Reader

end ProtoSchema
