import Mathlib.Logic.Basic
import ProtoSchema.Proofs.Sql.DottedNames
import ProtoSchema.Proofs.Sql.Scanning

/-!
# The texts of tokens

A token is written with characters of the text that it was scanned from, in their order. So names
that are read from a text are together no longer than it.

Key results:
* `isScanned_of_scan` — all that scanning can yield
* `tokensUpTo_written` — all tokens of a text
-/

namespace ProtoSchema.Sql

/-! ## Quoted texts -/

/-- The text with every quote `q` written twice. -/
def doubleQuotes (q : Char) (s : List Char) : List Char :=
  s.flatMap fun c => if c = q then [c, c] else [c]

theorem doubleQuotes_cons_self (q : Char) (s : List Char) :
    doubleQuotes q (q :: s) = q :: q :: doubleQuotes q s := by
  simp [doubleQuotes]

theorem doubleQuotes_cons_of_ne {q c : Char} (h : c ≠ q) (s : List Char) :
    doubleQuotes q (c :: s) = c :: doubleQuotes q s := by
  simp [doubleQuotes, h]

/-- What stands in front of a closing quote is the text with its quotes doubled. -/
theorem readQuoted_eq_some {q : Char} {s text rest : List Char}
    (h : readQuoted q s = some (text, rest)) : s = doubleQuotes q text ++ q :: rest := by
  fun_induction readQuoted q s generalizing text rest with
  | case1 => cases h
  | case2 =>
    cases h
    rfl
  | case3 => cases h
  -- Two quotes in a row stand for one, and the reading goes on.
  | case4 r ih =>
    obtain ⟨⟨text, rest⟩, hr, hp⟩ := Option.map_eq_some_iff.1 h
    cases hp
    rw [doubleQuotes_cons_self, ih hr]
    rfl
  | case5 =>
    cases h
    rfl
  | case6 c d r hc ih =>
    obtain ⟨⟨text, rest⟩, hr, hp⟩ := Option.map_eq_some_iff.1 h
    cases hp
    rw [doubleQuotes_cons_of_ne hc, ih hr]
    rfl

/-- A name is written with some of its quotes doubled. -/
theorem requote_sublist (q previous : Char) (s : List Char) :
    (requote q previous s).Sublist (doubleQuotes q s) := by
  fun_induction requote q previous s with
  | case1 => exact List.Sublist.refl _
  | case2 previous c h =>
    obtain ⟨rfl, -⟩ := h
    rw [doubleQuotes_cons_self]
    exact List.Sublist.refl _
  | case3 previous c h =>
    by_cases hc : c = q
    · rw [hc, doubleQuotes_cons_self]
      exact (List.nil_sublist _).cons_cons q
    · rw [doubleQuotes_cons_of_ne hc]
      exact List.Sublist.refl _
  | case4 d r ih =>
    rw [doubleQuotes_cons_self]
    exact (ih.cons q).cons_cons q
  | case5 previous r h ih =>
    -- A pair of quotes stands for itself, though it was written as four.
    rw [doubleQuotes_cons_self, doubleQuotes_cons_self]
    exact (((ih.cons q).cons q).cons_cons q).cons_cons q
  | case6 previous d r h hd ih =>
    rw [doubleQuotes_cons_self]
    exact (ih.cons_cons q).cons_cons q
  | case7 previous c d r h ih =>
    rw [doubleQuotes_cons_of_ne h]
    exact ih.cons_cons c

/-- A quoted text is written with characters that were read for it. -/
theorem sublist_of_readQuoted {q : Char} {s text rest : List Char}
    (h : readQuoted q s = some (text, rest)) :
    (q :: requote q '\x00' text ++ [q] ++ rest).Sublist (q :: s) := by
  rw [readQuoted_eq_some h, List.append_assoc, List.singleton_append, List.cons_append]
  exact ((requote_sublist q _ text).append (List.Sublist.refl _)).cons_cons q

/-! ## Comments and numbers -/

/-- What follows a comment is the end of the text. -/
theorem skipComment_sublist {depth : Nat} {s rest : List Char}
    (h : skipComment depth s = some rest) : rest.Sublist s := by
  fun_induction skipComment depth s with
  | case1 => cases h
  | case2 => cases h
  | case3 =>
    cases h
    exact ((List.Sublist.refl _).cons _).cons _
  | case4 r depth ih => exact ((ih h).cons _).cons _
  | case5 depth r ih => exact ((ih h).cons _).cons _
  | case6 depth c d r h₁ h₂ ih => exact (ih h).cons _

/-- The digits at the front of a text are its front. -/
theorem prefix_digitsAtFront (s : List Char) : digitsAtFront s <+: s := by
  fun_induction digitsAtFront s with
  | case1 => exact List.nil_prefix
  | case2 => exact List.prefix_refl _
  | case3 => exact List.nil_prefix
  | case4 c d r h ih => exact (List.prefix_cons_inj c).2 ih
  | case5 => exact List.nil_prefix

/-- An exponent is the front of the text that it is read from. -/
theorem readExponent_append (s : List Char) : (readExponent s).1 ++ (readExponent s).2 = s := by
  cases s with
  | nil => rfl
  | cons e r =>
    unfold readExponent
    dsimp only
    by_cases he : (e = 'e' || e = 'E') = true
    · rw [if_pos he]
      -- The sign and the digits are each a front of what is left; without digits nothing is taken.
      generalize hsign : r.take _ = sign
      have hrest := List.prefix_iff_eq_append.1 (hsign ▸ List.take_prefix _ r)
      have hdigits := List.prefix_iff_eq_append.1
        (List.takeWhile_prefix (l := r.drop sign.length) Char.isDigit)
      split
      · rfl
      · rw [List.append_assoc, hdigits, List.cons_append, hrest]
    · rw [if_neg he]
      rfl

/-- The digits at the front of a text, with a point and digits behind them, if there is one. -/
def mantissa (s : List Char) : List Char :=
  digitsAtFront s ++
    match s.drop (digitsAtFront s).length with
    | '.' :: r => '.' :: digitsAtFront r
    | _ => []

/-- A number is a mantissa with an exponent and a mark behind it. -/
theorem readNumber_eq (s : List Char) :
    readNumber s =
      let (exponent, rest) := readExponent (s.drop (mantissa s).length)
      let long := rest.take (if rest.head? = some 'L' then 1 else 0)
      (mantissa s ++ exponent ++ long, rest.drop long.length) := rfl

/-- The mantissa of a number is the front of the text. -/
theorem prefix_mantissa (s : List Char) : mantissa s <+: s := by
  have hwhole := List.prefix_iff_eq_append.1 (prefix_digitsAtFront s)
  unfold mantissa
  generalize digitsAtFront s = whole at hwhole
  generalize s.drop whole.length = behind at hwhole
  rw [← hwhole, List.prefix_append_right_inj]
  -- A point behind the whole digits is taken with the digits that follow it.
  split
  · exact (List.prefix_cons_inj '.').2 (prefix_digitsAtFront _)
  · exact List.nil_prefix

/-- A number is the front of the text that it is read from. -/
theorem readNumber_append (s : List Char) : (readNumber s).1 ++ (readNumber s).2 = s := by
  have hmantissa := List.prefix_iff_eq_append.1 (prefix_mantissa s)
  have hexponent := readExponent_append (s.drop (mantissa s).length)
  rw [readNumber_eq]
  generalize readExponent _ = parts at hexponent ⊢
  obtain ⟨exponent, rest⟩ := parts
  dsimp only at hexponent ⊢
  generalize hlong : rest.take _ = long
  have hrest := List.prefix_iff_eq_append.1 (hlong ▸ List.take_prefix _ rest)
  -- Mantissa, exponent and suffix are taken one behind the other, each from the front.
  rw [List.append_assoc, List.append_assoc, hrest, hexponent, hmantissa]

/-- Where a number starts, its first digit or its point is read. -/
theorem readNumber_ne_nil {c : Char} {r : List Char}
    (h : (c.isDigit || (c = '.' && startsWithDigit r)) = true) : (readNumber (c :: r)).1 ≠ [] := by
  -- The first character alone gives the mantissa one: a digit, or the point in front of one.
  have hmantissa : mantissa (c :: r) ≠ [] := by
    unfold mantissa
    by_cases hc : c.isDigit = true
    · rw [digitsAtFront_cons hc]
      exact fun h => nomatch h
    · obtain rfl : c = '.' := by simp_all
      have hnone : digitsAtFront ('.' :: r) = [] := by cases r <;> rfl
      rw [hnone]
      exact fun h => nomatch h
  rw [readNumber_eq]
  simp [hmantissa]

/-! ## Tokens -/

/-- What the character `c` with `r` behind it may be scanned as: a token or nothing, in front of
what is left of `r`. -/
inductive IsScanned (c : Char) (r : List Char) : Option Token → List Char → Prop where
  /-- A blank or a comment. -/
  | skipped {rest : List Char} (hrest : rest.Sublist r) : IsScanned c r none rest
  /-- A name or literal between quotes. -/
  | quoted {t : Token} {text rest : List Char} (ht : t.written = c :: requote c '\x00' text ++ [c])
      (hread : readQuoted c r = some (text, rest)) : IsScanned c r (some t) rest
  /-- A token that is written as it is read. -/
  | plain {t : Token} {back rest : List Char} (ht : t.written = c :: back)
      (hback : back ++ rest = r) : IsScanned c r (some t) rest

section

variable {c : Char} {r rest : List Char} {t : Option Token}

/-- A literal or a quoted name, if its closing quote stands in the text. -/
theorem isScanned_quoted (token : String → Token) {part : OpenPart}
    (htoken : ∀ text, (token (String.ofList text)).written = c :: requote c '\x00' text ++ [c])
    (h : (match readQuoted c r with
      | some (s, rest) => .ok (some (token (String.ofList s)), rest)
      | none => .error part) = Except.ok (t, rest)) : IsScanned c r t rest := by
  cases hread : readQuoted c r with
  | none =>
    rw [hread] at h
    cases h
  | some parts =>
    rw [hread] at h
    cases h
    exact .quoted (htoken _) hread

/-- A word, a placeholder or an operator, which takes all characters that belong to it. -/
theorem isScanned_takeWhile (token : String → Token) (p : Char → Bool)
    (htoken : ∀ text, (token (String.ofList text)).written = text) :
    IsScanned c r (some (token (String.ofList (c :: r.takeWhile p))))
      (r.drop (r.takeWhile p).length) :=
  .plain (htoken _) (List.prefix_iff_eq_append.1 (List.takeWhile_prefix p))

/-- A number, which has its first character at least. -/
theorem isScanned_number (h : (c.isDigit || (c = '.' && startsWithDigit r)) = true) :
    IsScanned c r (some (.number (String.ofList (readNumber (c :: r)).1)))
      (readNumber (c :: r)).2 := by
  have happend := readNumber_append (c :: r)
  have hne := readNumber_ne_nil h
  have hwritten : ∀ text : List Char, (Token.number (String.ofList text)).written = text := by
    simp [Token.written, Name.ofToken?, Token.text]
  -- The text of the number starts with `c`, since it is not empty and a front of `c :: r`.
  generalize readNumber (c :: r) = parts at happend hne ⊢
  obtain ⟨number, rest⟩ := parts
  cases number with
  | nil => exact absurd rfl hne
  | cons d back =>
    obtain ⟨rfl, hback⟩ := List.cons.inj happend
    exact .plain (hwritten _) hback

/-- A comment that goes on to the end of the line. -/
theorem isScanned_lineComment (p : Char → Bool) :
    IsScanned c r none ((r.dropWhile p).drop 1) :=
  .skipped ((List.drop_sublist _ _).trans (List.dropWhile_sublist _))

/-- A comment that is closed, if it is. -/
theorem isScanned_comment
    (h : (match skipComment 0 (r.drop 1) with
      | some rest => .ok (none, rest)
      | none => .error OpenPart.comment) = Except.ok (t, rest)) : IsScanned c r t rest := by
  cases hrest : skipComment 0 (r.drop 1) with
  | none =>
    rw [hrest] at h
    cases h
  | some behind =>
    rw [hrest] at h
    cases h
    exact .skipped ((skipComment_sublist hrest).trans (List.drop_sublist _ _))

/-- All that scanning can yield. -/
theorem isScanned_of_scan (h : scan c r = .ok (t, rest)) : IsScanned c r t rest := by
  have hword : ∀ text : List Char, (Token.word (String.ofList text) false).written = text := by
    simp [Token.written, Name.ofToken?]
  have hplaceholder : ∀ text : List Char,
      (Token.placeholder (String.ofList text)).written = text := by
    simp [Token.written, Name.ofToken?, Token.text]
  have hsymbol : ∀ text : List Char, (Token.symbol (String.ofList text)).written = text := by
    simp [Token.written, Name.ofToken?, Token.text]
  -- The cases are those of `scan`, in its order: each kind of token has its lemma above.
  unfold scan at h
  by_cases hblank : isSeparator c = true
  · rw [if_pos hblank] at h
    cases h
    exact .skipped (List.Sublist.refl _)
  rw [if_neg hblank] at h
  by_cases hliteral : c = '\''
  · rw [if_pos hliteral] at h
    subst hliteral
    exact isScanned_quoted .literal (by simp [Token.written, Name.ofToken?, Name.text]) h
  rw [if_neg hliteral] at h
  by_cases hquoted : c = '"'
  · rw [if_pos hquoted] at h
    subst hquoted
    exact isScanned_quoted (.word · true) (by simp [Token.written, Name.ofToken?, Name.text]) h
  rw [if_neg hquoted] at h
  by_cases hname : isNameStart c = true
  · rw [if_pos hname] at h
    cases h
    exact isScanned_takeWhile (.word · false) isNamePart hword
  rw [if_neg hname] at h
  by_cases hnumber : (c.isDigit || (c = '.' && startsWithDigit r)) = true
  · rw [if_pos hnumber] at h
    cases h
    exact isScanned_number hnumber
  rw [if_neg hnumber] at h
  by_cases hdollar : c = '$'
  · rw [if_pos hdollar] at h
    cases h
    exact isScanned_takeWhile .placeholder isPlaceholderPart hplaceholder
  rw [if_neg hdollar] at h
  by_cases hline : (c = '-' && r.head? = some '-') = true
  · rw [if_pos hline] at h
    cases h
    exact isScanned_lineComment _
  rw [if_neg hline] at h
  by_cases hcomment : (c = '/' && r.head? = some '*') = true
  · rw [if_pos hcomment] at h
    exact isScanned_comment h
  rw [if_neg hcomment] at h
  by_cases hoperator : isOperatorStart c = true
  · rw [if_pos hoperator] at h
    cases h
    exact isScanned_takeWhile .symbol isOperatorPart hsymbol
  rw [if_neg hoperator] at h
  split at h
  · cases h
    exact .plain (hsymbol _) (List.take_append_drop 1 r)
  · cases h
    exact .plain (hsymbol _) rfl

/-- Scanning goes on. -/
theorem IsScanned.length_le (h : IsScanned c r t rest) : rest.length ≤ r.length := by
  cases h with
  | skipped hrest => exact hrest.length_le
  | quoted _ hread => exact (readQuoted_length hread).le
  | plain _ hback =>
    rw [← hback, List.length_append]
    omega

/-- A token is written with something. -/
theorem IsScanned.written_ne_nil {t : Token} (h : IsScanned c r (some t) rest) :
    t.written ≠ [] := by
  cases h with
  | quoted ht => simp [ht]
  | plain ht => simp [ht]

/-- What a token is written with and what follows it were read. -/
theorem IsScanned.sublist (h : IsScanned c r t rest) :
    (t.toList.flatMap Token.written ++ rest).Sublist (c :: r) := by
  cases h with
  | skipped hrest => exact hrest.cons c
  | quoted ht hread => simpa [ht] using sublist_of_readQuoted hread
  | plain ht hback => simp [ht, hback]

end

/-- A text that is cut into tokens has at most one from its first scan, and those of the rest. -/
theorem tokensUpTo_cons_eq_ok {fuel : Nat} {p : Position} {c : Char} {r : List Char}
    {located : List Located} (h : tokensUpTo (fuel + 1) p (c :: r) = .ok located) :
    ∃ t rest behind more, scan c r = .ok (t, rest) ∧ tokensUpTo fuel behind rest = .ok more
      ∧ located = (t.map (⟨·, p⟩)).toList ++ more := by
  rw [tokensUpTo] at h
  cases hscan : scan c r with
  | error part =>
    rw [hscan] at h
    cases h
  | ok result =>
    obtain ⟨t, rest⟩ := result
    rw [hscan] at h
    dsimp only at h
    generalize p.after _ = behind at h
    cases hrest : tokensUpTo fuel behind rest with
    | error e =>
      rw [hrest] at h
      cases h
    | ok more =>
      rw [hrest] at h
      obtain rfl := Except.ok.inj h
      refine ⟨t, rest, behind, more, rfl, hrest, ?_⟩
      cases t <;> rfl

/-- All that a text is cut into. -/
theorem tokensUpTo_written {fuel : Nat} {p : Position} {s : List Char} {located : List Located}
    (h : tokensUpTo fuel p s = .ok located) :
    (∀ l ∈ located, l.token.written ≠ [])
      ∧ (located.flatMap fun l => l.token.written).Sublist s := by
  induction fuel generalizing p s located with
  | zero =>
    cases h
    exact ⟨by simp, List.nil_sublist s⟩
  | succ fuel ih =>
    cases s with
    | nil =>
      cases h
      exact ⟨by simp, List.nil_sublist []⟩
    | cons c r =>
      obtain ⟨t, rest, behind, more, hscan, hrest, rfl⟩ := tokensUpTo_cons_eq_ok h
      have hscanned := isScanned_of_scan hscan
      obtain ⟨hmore, hmoreSublist⟩ := ih hrest
      -- The text of the first token and that of the rest are taken from parts that follow each
      -- other.
      have hall := ((List.Sublist.refl (t.toList.flatMap Token.written)).append
        hmoreSublist).trans hscanned.sublist
      cases t with
      | none => exact ⟨hmore, by simpa using hall⟩
      | some t => exact ⟨by simpa using ⟨hscanned.written_ne_nil, hmore⟩, by simpa using hall⟩

end ProtoSchema.Sql
