import Mathlib.Data.List.Basic
import Mathlib.Data.List.Chain
import ProtoSchema.Sql.TokenReader

/-!
# Dotted names

The tokens that a dotted name is read from: names with dots between them. A dotted name is written
as its tokens are, and where one ends the other tokens of a statement cannot belong to it.

Key results:
* `IsDotted.toList_dotted` — a dotted name is written as its tokens are
* `IsDotted.append_eq_append` — there is one way only to part tokens in front of a dotted name
-/

namespace ProtoSchema.Sql

/-! ## Tokens of names -/

namespace Token

/-- A token as statements write it: a name with its quotes, anything else as it is. -/
def written (t : Token) : List Char :=
  (((Name.ofToken? t).map Name.text).getD t.text).toList

/-- Whether a token is read as a name. -/
def isName (t : Token) : Bool :=
  (Name.ofToken? t).isSome

/-- Keywords are read as names where names are asked for. -/
theorem isName_of_isKeyword {k : String} {t : Token} (h : t.isKeyword k = true) :
    t.isName = true := by
  unfold isKeyword at h
  split at h
  · rfl
  · cases h

/-- A word is one keyword only. -/
theorem eq_of_isKeyword {k k' : String} {t : Token} (h : t.isKeyword k = true)
    (h' : t.isKeyword k' = true) : k = k' := by
  unfold isKeyword at h h'
  split at h
  · apply String.toList_injective
    exact (beq_iff_eq.1 h).symm.trans (beq_iff_eq.1 h')
  · cases h

/-- A symbol is no name. -/
theorem ne_symbol_of_isName {t : Token} (h : t.isName = true) (s : String) : t ≠ symbol s := by
  rintro rfl
  cases h

end Token

/-! ## Names with dots between them -/

/-- The tokens are these names with dots between them. -/
inductive IsDotted : List Token → List Name → Prop where
  | single {t : Token} {n : Name} (h : Name.ofToken? t = some n) : IsDotted [t] [n]
  | cons {t : Token} {n : Name} {ts : List Token} {ns : List Name} (h : Name.ofToken? t = some n)
      (hrest : IsDotted ts ns) : IsDotted (t :: .symbol "." :: ts) (n :: ns)

/-- What is read as a name is one. -/
theorem Name.isName_of_ofToken? {t : Token} {n : Name} (h : Name.ofToken? t = some n) :
    t.isName = true := by
  rw [Token.isName, h]
  rfl

namespace IsDotted

variable {ts us : List Token} {ns ms : List Name}

/-- A dotted name is written as its tokens are. -/
theorem toList_dotted (h : IsDotted ts ns) :
    (Name.dotted ns).toList = ts.flatMap Token.written := by
  have hwritten : ∀ {t n}, Name.ofToken? t = some n → n.text.toList = t.written := by
    intro t n ht
    rw [Token.written, ht]
    rfl
  rw [Name.dotted, String.toList_intercalate]
  induction h with
  | single h => simp [hwritten h]
  | @cons t n ts ns h hrest ih =>
    -- More names follow, so a point is written behind the first.
    obtain ⟨m, ns, rfl⟩ : ∃ m ns', ns = m :: ns' := by
      cases hrest <;> exact ⟨_, _, rfl⟩
    rw [List.map_cons, List.map_cons, List.map_cons, List.map_cons, List.intercalate_cons_cons,
      ← List.map_cons, ← List.map_cons, ih, hwritten h]
    simp [Token.written, Name.ofToken?, Token.text]

/-- All tokens are names and dots. -/
theorem forall_mem (h : IsDotted ts ns) : ∀ t ∈ ts, t.isName = true ∨ t = .symbol "." := by
  induction h with
  | single h => simp [Name.isName_of_ofToken? h]
  | cons h hrest ih => simpa [Name.isName_of_ofToken? h] using ih

/-- No token but a dot is a symbol. -/
theorem symbol_notMem (h : IsDotted ts ns) {s : String} (hs : s ≠ ".") : .symbol s ∉ ts := by
  intro hmem
  rcases h.forall_mem _ hmem with hname | hdot
  · cases hname
  · exact hs (Token.symbol.inj hdot)

/-- No two names follow each other. -/
theorem isChain (h : IsDotted ts ns) :
    ts.IsChain fun t u => ¬(t.isName = true ∧ u.isName = true) := by
  induction h with
  | single h => simp
  | @cons t n ts ns h hrest ih =>
    -- Between two names there is always a point, which is no name.
    have hdot : (Token.symbol ".").isName = false := rfl
    refine List.isChain_cons_cons.2 ⟨by simp [hdot], ?_⟩
    rw [List.isChain_cons]
    exact ⟨by simp [hdot], ih⟩

/-- The first token is a name. -/
theorem exists_cons (h : IsDotted ts ns) : ∃ t us, ts = t :: us ∧ t.isName = true := by
  cases h with
  | single h => exact ⟨_, _, rfl, Name.isName_of_ofToken? h⟩
  | cons h hrest => exact ⟨_, _, rfl, Name.isName_of_ofToken? h⟩

/-- A name in front of a dotted name does not belong to one. -/
theorem ne_append (hts : IsDotted ts ns) (hus : IsDotted us ms) {t : Token}
    (ht : t.isName = true) (front : List Token) : ts ≠ front ++ t :: us := by
  rintro rfl
  obtain ⟨u, us, rfl, hu⟩ := hus.exists_cons
  have hchain := (List.isChain_append.1 hts.isChain).2.1
  exact (List.isChain_cons_cons.1 hchain).1 ⟨ht, hu⟩

/-- There is one way only to part a list into what stands in front of a name, the name, and a
dotted name. -/
theorem append_eq_append {front front' ts' : List Token} {ns' : List Name}
    (hts : IsDotted ts ns) (hts' : IsDotted ts' ns') {t t' : Token} (ht : t.isName = true)
    (ht' : t'.isName = true) (h : front ++ t :: ts = front' ++ t' :: ts') :
    front = front' ∧ t = t' ∧ ts = ts' := by
  -- If one front were longer, its name would stand inside the other dotted name.
  rcases List.append_eq_append_iff.1 h with ⟨more, hfront, hback⟩ | ⟨more, hfront, hback⟩
  · cases more with
    | nil =>
      cases hback
      exact ⟨by simpa using hfront.symm, rfl, rfl⟩
    | cons u more =>
      cases hback
      exact absurd rfl (hts.ne_append hts' ht' more)
  · cases more with
    | nil =>
      cases hback
      exact ⟨by simpa using hfront, rfl, rfl⟩
    | cons u more =>
      cases hback
      exact absurd rfl (hts'.ne_append hts ht more)

end IsDotted

end ProtoSchema.Sql
