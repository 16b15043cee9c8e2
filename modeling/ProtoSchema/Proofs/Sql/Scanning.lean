import ProtoSchema.Sql.Literal
import ProtoSchema.Sql.Scan

/-!
# Scanning a text put together from parts

A script is written part by part, so its tokens are found part by part. `Scans s ts next` says that
the text `s` is cut into the tokens `ts` wherever a character that `next` accepts stands behind it.

Key results:
* `Scans.append` — the tokens of two parts follow each other
* `scans_name`, `scans_quote`, `scans_digits` — each of these is one token
* `scans_plainTokens` — the tokens of a text of words, blanks and marks can be computed
* `Scans.tokens_eq` — what a whole text is cut into
-/

namespace ProtoSchema.Sql

/-- The text `s` is cut into the tokens `ts` wherever a character that `next` accepts, or with
`next none` the end of the script, stands behind it. -/
def Scans (s : List Char) (ts : List Token) (next : Option Char → Prop) : Prop :=
  ∀ (rest : List Char) (fuel : Nat) (p : Position), next rest.head? → (s ++ rest).length ≤ fuel →
    ∃ located fuel' p', rest.length ≤ fuel' ∧ located.map Located.token = ts ∧
      tokensUpTo fuel p (s ++ rest) = (tokensUpTo fuel' p' rest).map (located ++ ·)

/-- Anything may stand behind. -/
def anyNext : Option Char → Prop := fun _ => True

/-- What ends a name: any character that a name cannot go on with. -/
def endsName : Option Char → Prop := fun o => ∀ c ∈ o, isNamePart c = false

/-! ## Putting parts together -/

theorem scans_nil (next : Option Char → Prop) : Scans [] [] next := by
  intro rest fuel p _ hfuel
  refine ⟨[], fuel, p, hfuel, rfl, ?_⟩
  cases h : tokensUpTo fuel p rest <;> simp [h, Except.map]

/-- The tokens of two parts follow each other. -/
theorem Scans.append {s u : List Char} {ts us : List Token} {next next' : Option Char → Prop}
    (hs : Scans s ts next) (hu : Scans u us next')
    (hnext : ∀ o, next' o → next (u.head?.or o)) : Scans (s ++ u) (ts ++ us) next' := by
  intro rest fuel p hrest hfuel
  have hhead : next (u ++ rest).head? := by
    rw [List.head?_append]
    exact hnext _ hrest
  -- The steps and the place that the first part leaves are those the second part starts from.
  obtain ⟨l₁, fuel₁, p₁, hfuel₁, hl₁, h₁⟩ := hs (u ++ rest) fuel p hhead (by simpa using hfuel)
  obtain ⟨l₂, fuel₂, p₂, hfuel₂, hl₂, h₂⟩ := hu rest fuel₁ p₁ hrest hfuel₁
  refine ⟨l₁ ++ l₂, fuel₂, p₂, hfuel₂, by rw [List.map_append, hl₁, hl₂], ?_⟩
  rw [List.append_assoc, h₁, h₂]
  cases tokensUpTo fuel₂ p₂ rest <;> simp [Except.map]

/-- A part may be followed by less than it tolerates. -/
theorem Scans.mono {s : List Char} {ts : List Token} {next next' : Option Char → Prop}
    (hs : Scans s ts next) (h : ∀ o, next' o → next o) : Scans s ts next' :=
  fun rest fuel p hrest hfuel => hs rest fuel p (h _ hrest) hfuel

/-- A text that is scanned in one go. -/
theorem scans_of_scan {c : Char} {r : List Char} {t : Option Token} {next : Option Char → Prop}
    (h : ∀ rest, next rest.head? → scan c (r ++ rest) = .ok (t, rest)) :
    Scans (c :: r) t.toList next := by
  intro rest fuel p hrest hfuel
  obtain ⟨n, rfl⟩ : ∃ n, fuel = n + 1 := ⟨fuel - 1, by simp at hfuel; omega⟩
  have hn : rest.length ≤ n := by simp at hfuel; omega
  have hscan := h rest hrest
  -- How much was taken only matters for the place of the next token.
  let taken := (c :: (r ++ rest)).take ((r ++ rest).length + 1 - rest.length)
  cases t with
  | none =>
    refine ⟨[], n, p.after taken, hn, rfl, ?_⟩
    simp only [List.cons_append, tokensUpTo, hscan]
    rfl
  | some t =>
    refine ⟨[⟨t, p⟩], n, p.after taken, hn, rfl, ?_⟩
    simp only [List.cons_append, tokensUpTo, hscan]
    rfl

/-- The tokens of a whole text. -/
theorem Scans.tokens_eq {s : List Char} {ts : List Token} {next : Option Char → Prop}
    (hs : Scans s ts next) (hend : next none) :
    ∃ located, tokens s = .ok located ∧ located.map Located.token = ts := by
  obtain ⟨located, fuel, p, -, hl, h⟩ := hs [] s.length {} hend (by simp)
  refine ⟨located, ?_, hl⟩
  -- Nothing stands behind the text, so nothing is added to its tokens.
  have hnil : tokensUpTo fuel p [] = .ok [] := by cases fuel <;> rfl
  rw [List.append_nil, hnil] at h
  rw [tokens, h]
  simp [Except.map]

/-! ## Single tokens -/

/-- A blank yields no token. -/
theorem scans_separator {c : Char} (h : isSeparator c = true) : Scans [c] [] anyNext :=
  scans_of_scan (t := none) fun rest _ => by simp [scan, h]

/-- The marks that are tokens of their own whatever stands around them. -/
def marks : List Char := ['(', ')', ',', ';', '[', ']']

/-- A mark is a token of its own. -/
theorem scans_mark {c : Char} (h : c ∈ marks) :
    Scans [c] [.symbol (String.ofList [c])] anyNext := by
  refine scans_of_scan (t := some _) fun rest _ => ?_
  simp only [marks, List.mem_cons, List.not_mem_nil, or_false] at h
  rcases h with rfl | rfl | rfl | rfl | rfl | rfl <;> rfl

/-- What stands behind the blank in the code table is no blank. -/
theorem isSeparator_of_lt {c : Char} (h : ' '.toNat < c.toNat) : isSeparator c = false := by
  have hblank : c ≠ ' ' := by
    rintro rfl
    omega
  -- The other blanks are control characters, which come before the space.
  have hcontrol : ¬c ≤ '\r' := by
    intro hle
    have hcode : c.toNat ≤ '\r'.toNat := hle
    have hr : '\r'.toNat ≤ ' '.toNat := by decide
    omega
  simp [isSeparator, hblank, hcontrol]

/-- Names start behind the digits and most marks of the code table. -/
theorem lt_of_isNameStart {c : Char} (h : isNameStart c = true) : '@'.toNat < c.toNat := by
  have hA : 'A'.val.toNat = 65 := rfl
  have ha : 'a'.val.toNat = 97 := rfl
  unfold isNameStart Char.isAlpha Char.isUpper Char.isLower at h
  simp only [Bool.or_eq_true, Bool.and_eq_true, decide_eq_true_eq, GE.ge, UInt32.le_iff_toNat_le,
    hA, ha] at h
  show 64 < c.val.toNat
  -- Capital letters, small letters, the underscore, and all that is outside the code table.
  rcases h with ((⟨h, -⟩ | ⟨h, -⟩) | rfl) | h
  · omega
  · omega
  · decide
  · exact Nat.lt_trans (by decide) h

/-- A letter is none of the characters in front of the letters. -/
theorem ne_of_isNameStart {c d : Char} (h : isNameStart c = true) (hd : d.toNat ≤ '@'.toNat) :
    c ≠ d := by
  rintro rfl
  have := lt_of_isNameStart h
  omega

theorem isSeparator_of_isNameStart {c : Char} (h : isNameStart c = true) :
    isSeparator c = false :=
  isSeparator_of_lt (Nat.lt_trans (by decide) (lt_of_isNameStart h))

/-- Taking what satisfies `p` takes all of a part that does, and no more. -/
theorem takeWhile_append_of_all {α : Type} {p : α → Bool} {l rest : List α}
    (hl : ∀ a ∈ l, p a = true) (hrest : ∀ a ∈ rest.head?, p a = false) :
    (l ++ rest).takeWhile p = l := by
  rw [List.takeWhile_append_of_pos hl]
  cases rest with
  | nil => simp
  | cons a rest => simp [hrest a rfl]

/-- A word is one token where no character behind it belongs to it. -/
theorem scans_name {c : Char} {r : List Char} (hc : isNameStart c = true)
    (hr : ∀ d ∈ r, isNamePart d = true) :
    Scans (c :: r) [.word (String.ofList (c :: r)) false] endsName := by
  refine scans_of_scan (t := some _) fun rest hrest => ?_
  have htake := takeWhile_append_of_all hr hrest
  simp [scan, isSeparator_of_isNameStart hc, ne_of_isNameStart hc (d := '\'') (by decide),
    ne_of_isNameStart hc (d := '"') (by decide), hc, htake]

/-- Letters, digits and underscores, of which the first is no digit, are one token. -/
theorem scans_identifier {w : List Char}
    (hstart : w.head?.any (fun c => c.isAlpha || c = '_') = true)
    (hall : ∀ c ∈ w, (c.isAlphanum || c = '_') = true) :
    Scans w [.word (String.ofList w) false] endsName := by
  have hpart : ∀ c : Char, (c.isAlphanum || c = '_') = true → isNamePart c = true := by
    intro c hc
    simp only [Char.isAlphanum, Bool.or_eq_true, decide_eq_true_eq] at hc
    rcases hc with (hc | hc) | hc <;> simp [isNamePart, isNameStart, hc]
  cases w with
  | nil => cases hstart
  | cons c r =>
    rw [List.head?_cons, Option.any_some] at hstart
    have hc : isNameStart c = true := by
      rw [isNameStart, hstart, Bool.true_or]
    exact scans_name hc fun d hd => hpart d (hall d (List.mem_cons_of_mem c hd))

/-! ## Literals -/

/-- A character that is no quote belongs to the text between the quotes. -/
theorem readQuoted_cons_of_ne {q c : Char} (h : c ≠ q) (r : List Char) :
    readQuoted q (c :: r) = (readQuoted q r).map fun (s, rest) => (c :: s, rest) := by
  cases r with
  | nil => simp [readQuoted, h]
  | cons d r => rw [readQuoted, if_neg h]

/-- What is written with doubled quotes is read back up to the closing quote. -/
theorem readQuoted_doubled (s : List Char) {rest : List Char} (hrest : rest.head? ≠ some '\'') :
    readQuoted '\'' (doubled s ++ '\'' :: rest) = some (s, rest) := by
  induction s with
  | nil =>
    -- The closing quote is not doubled, since no quote follows it.
    cases rest with
    | nil => rfl
    | cons d r =>
      have hd : d ≠ '\'' := fun h => hrest (by rw [h]; rfl)
      simp [doubled, readQuoted, hd]
  | cons c s ih =>
    by_cases hc : c = '\''
    · have hdoubled : doubled (c :: s) = '\'' :: '\'' :: doubled s := by simp [doubled, hc]
      rw [hdoubled, List.cons_append, List.cons_append, readQuoted, if_pos rfl, if_pos rfl, ih, hc]
      rfl
    · have hdoubled : doubled (c :: s) = c :: doubled s := by simp [doubled, hc]
      rw [hdoubled, List.cons_append, readQuoted_cons_of_ne hc, ih]
      rfl

/-- What ends a literal: anything but another quote. -/
def endsLiteral : Option Char → Prop := fun o => o ≠ some '\''

/-- Behind an opening quote, the scanner reads up to the end of the literal. -/
theorem scan_quote (s : String) {rest : List Char} (hrest : endsLiteral rest.head?) :
    scan '\'' (doubled s.toList ++ ['\''] ++ rest) = .ok (some (.literal s), rest) := by
  have hread := readQuoted_doubled s.toList hrest
  rw [List.append_assoc, List.singleton_append]
  simp [scan, isSeparator, hread]

/-- A quoted text is one literal, whatever it holds. -/
theorem scans_quote (s : String) : Scans (quote s).toList [.literal s] endsLiteral := by
  rw [toList_quote]
  exact scans_of_scan (t := some _) fun rest hrest => scan_quote s hrest

/-! ## Numbers -/

/-- What ends a number of digits only. -/
def endsNumber : Option Char → Prop := fun o => ∀ c ∈ o, isNamePart c = false ∧ c ≠ '.'

/-- Digits stand between the slash and the colon of the code table. -/
theorem toNat_of_isDigit {c : Char} (h : c.isDigit = true) :
    '/'.toNat < c.toNat ∧ c.toNat < ':'.toNat := by
  have h0 : '0'.val.toNat = 48 := rfl
  have h9 : '9'.val.toNat = 57 := rfl
  simp only [Char.isDigit, Bool.and_eq_true, decide_eq_true_eq, GE.ge, UInt32.le_iff_toNat_le,
    h0, h9] at h
  show 47 < c.val.toNat ∧ c.val.toNat < 58
  omega

/-- No name starts with a digit. -/
theorem isNameStart_of_isDigit {c : Char} (h : c.isDigit = true) : isNameStart c = false := by
  rw [Bool.eq_false_iff]
  intro hc
  have hlt := lt_of_isNameStart hc
  have hdigit := (toNat_of_isDigit h).2
  have hle : ':'.toNat ≤ '@'.toNat := by decide
  omega

/-- A digit is none of the characters in front of the digits. -/
theorem ne_of_isDigit {c d : Char} (h : c.isDigit = true) (hd : d.toNat ≤ '/'.toNat) : c ≠ d := by
  rintro rfl
  have := (toNat_of_isDigit h).1
  omega

theorem isSeparator_of_isDigit {c : Char} (h : c.isDigit = true) : isSeparator c = false :=
  isSeparator_of_lt (Nat.lt_trans (by decide) (toNat_of_isDigit h).1)

/-- A digit at the front is one of the digits at the front. -/
theorem digitsAtFront_cons {c : Char} (h : c.isDigit = true) (r : List Char) :
    digitsAtFront (c :: r) = c :: digitsAtFront r := by
  cases r <;> simp [digitsAtFront, h]

/-- The digits at the front end where a number of digits does. -/
theorem digitsAtFront_append {s rest : List Char} (hs : ∀ c ∈ s, c.isDigit = true)
    (hrest : endsNumber rest.head?) : digitsAtFront (s ++ rest) = s := by
  induction s with
  | nil =>
    -- Two characters are looked at, since an underscore may stand between digits.
    match rest with
    | [] => rfl
    | [c] =>
      have hc := (hrest c rfl).1
      simp only [isNamePart, Bool.or_eq_false_iff] at hc
      simp [digitsAtFront, hc.1.2]
    | c :: d :: r =>
      have hc := (hrest c rfl).1
      simp only [isNamePart, isNameStart, Bool.or_eq_false_iff] at hc
      simp [digitsAtFront, hc.1.2, hc.1.1.1.2]
  | cons c s ih =>
    rw [List.cons_append, digitsAtFront_cons (hs c List.mem_cons_self),
      ih fun d hd => hs d (List.mem_cons_of_mem c hd)]

/-- No exponent and no `L` stand behind a number of digits. -/
theorem readExponent_of_endsNumber {rest : List Char} (hrest : endsNumber rest.head?) :
    readExponent rest = ([], rest) := by
  cases rest with
  | nil => rfl
  | cons c r =>
    have hc := (hrest c rfl).1
    have he : c ≠ 'e' := by
      rintro rfl
      exact absurd hc (by decide)
    have hE : c ≠ 'E' := by
      rintro rfl
      exact absurd hc (by decide)
    simp [readExponent, he, hE]

/-- A number of digits is read up to what ends it. -/
theorem readNumber_digits {s rest : List Char} (hs : ∀ c ∈ s, c.isDigit = true)
    (hrest : endsNumber rest.head?) : readNumber (s ++ rest) = (s, rest) := by
  have hfront := digitsAtFront_append hs hrest
  have hexponent := readExponent_of_endsNumber hrest
  simp only [readNumber, hfront, List.drop_left]
  cases rest with
  | nil => simp [readExponent]
  | cons c r =>
    -- What ends a number is no point, no exponent and no `L`.
    obtain ⟨hpart, hpoint⟩ := hrest c rfl
    have hlong : c ≠ 'L' := by
      rintro rfl
      exact absurd hpart (by decide)
    simp [hexponent, hpoint, hlong]

/-- A number of digits is one token. -/
theorem scans_digits {s : List Char} (hne : s ≠ []) (hs : ∀ c ∈ s, c.isDigit = true) :
    Scans s [.number (String.ofList s)] endsNumber := by
  cases s with
  | nil => exact absurd rfl hne
  | cons c r =>
    refine scans_of_scan (t := some _) fun rest hrest => ?_
    have hc : c.isDigit = true := hs c List.mem_cons_self
    -- The whole text is the number: nothing behind it goes on with one.
    have hread : readNumber (c :: (r ++ rest)) = (c :: r, rest) := readNumber_digits hs hrest
    simp [scan, isSeparator_of_isDigit hc, ne_of_isDigit hc (d := '\'') (by decide),
      ne_of_isDigit hc (d := '"') (by decide), isNameStart_of_isDigit hc, hc, hread]

/-! ## Texts of words, blanks and marks -/

/-- The token of a word that has been read so far, if there is any. -/
def wordTokens (word : List Char) : List Token :=
  if word.isEmpty then [] else [.word (String.ofList word) false]

/-- The tokens of a text of words, blanks and marks; `word` stands directly in front of it. -/
def plainTokens : (word : List Char) → List Char → List Token
  | word, [] => wordTokens word
  | word, c :: r =>
    if isNamePart c then plainTokens (word ++ [c]) r
    else wordTokens word ++ (if isSeparator c then [] else [.symbol (String.ofList [c])])
      ++ plainTokens [] r

/-- Whether a text consists of words, blanks and marks; `inWord` says whether a word stands in front
of it, `cut` whether its last word may go on behind it. -/
def isPlainText (cut : Bool) : (inWord : Bool) → List Char → Bool
  | inWord, [] => !cut || !inWord
  | inWord, c :: r =>
    if isNamePart c then (inWord || isNameStart c) && isPlainText cut true r
    else (isSeparator c || marks.contains c) && isPlainText cut false r

/-- Whether a text may stand as a word, or is empty. -/
def IsWord (word : List Char) : Prop :=
  ∀ c r, word = c :: r → isNameStart c = true ∧ ∀ d ∈ r, isNamePart d = true

/-- A word goes on with what belongs to names. -/
theorem IsWord.concat {word : List Char} {c : Char} (hword : IsWord word)
    (hc : isNamePart c = true) (hstart : word = [] → isNameStart c = true) :
    IsWord (word ++ [c]) := by
  intro d r hd
  cases word with
  | nil =>
    cases hd
    exact ⟨hstart rfl, by simp⟩
  | cons e w =>
    cases hd
    obtain ⟨he, hw⟩ := hword _ _ rfl
    refine ⟨he, fun d hd => ?_⟩
    rcases List.mem_append.1 hd with hd | hd
    · exact hw d hd
    · rwa [List.mem_singleton.1 hd]

/-- A word is one token, and the empty text is none. -/
theorem scans_wordTokens {word : List Char} (hword : IsWord word) :
    Scans word (wordTokens word) endsName := by
  cases word with
  | nil => exact scans_nil _
  | cons c r =>
    obtain ⟨hc, hr⟩ := hword c r rfl
    exact scans_name hc hr

/-- A blank or a mark, of which only the mark is a token. -/
theorem scans_blankOrMark {c : Char} (h : (isSeparator c || marks.contains c) = true) :
    Scans [c] (if isSeparator c then [] else [.symbol (String.ofList [c])]) anyNext := by
  by_cases hsep : isSeparator c = true
  · rw [if_pos hsep]
    exact scans_separator hsep
  · rw [if_neg hsep]
    exact scans_mark (by simpa [hsep] using h)

/-- The tokens of a text of words, blanks and marks can be computed. -/
theorem scans_plainTokens (cut : Bool) (s : List Char) (word : List Char) (hword : IsWord word)
    (hs : isPlainText cut (!word.isEmpty) s = true) :
    Scans (word ++ s) (plainTokens word s) (if cut then anyNext else endsName) := by
  -- The word in front grows with each character that belongs to it, and is cut off by any other.
  induction s generalizing word with
  | nil =>
    cases word with
    | nil => exact scans_nil _
    | cons c r =>
      have hcut : cut = false := by simpa [isPlainText] using hs
      rw [hcut, List.append_nil]
      exact scans_wordTokens hword
  | cons c s ih =>
    by_cases hpart : isNamePart c = true
    · simp only [isPlainText, hpart, if_true, Bool.and_eq_true] at hs
      have hempty : (word ++ [c]).isEmpty = false := by cases word <;> rfl
      have hstart : word = [] → isNameStart c = true := by
        rintro rfl
        simpa using hs.1
      rw [plainTokens, if_pos hpart, List.append_cons]
      exact ih (word ++ [c]) (hword.concat hpart hstart) (by rw [hempty]; exact hs.2)
    · have hpart : isNamePart c = false := by simpa using hpart
      rw [isPlainText, if_neg (by simp [hpart]), Bool.and_eq_true] at hs
      have hrest := ih [] (fun _ _ h => nomatch h) hs.2
      rw [plainTokens, if_neg (by simp [hpart]), List.append_cons]
      refine ((scans_wordTokens hword).append (scans_blankOrMark hs.1) ?_).append hrest
        fun _ _ => trivial
      intro o _ d hd
      cases hd
      exact hpart

/-- What a phrase of the grammar is cut into: words, blanks and marks of which the last is none of
a word. -/
theorem scans_phrase {s : String} {ts : List Token} (hs : isPlainText true false s.toList = true)
    (hts : plainTokens [] s.toList = ts) : Scans s.toList ts anyNext := by
  rw [← hts]
  exact scans_plainTokens true s.toList [] (fun _ _ h => nomatch h) hs

/-- What a phrase of the grammar that ends with a word is cut into. -/
theorem scans_words {s : String} {ts : List Token} (hs : isPlainText false false s.toList = true)
    (hts : plainTokens [] s.toList = ts) : Scans s.toList ts endsName := by
  rw [← hts]
  exact scans_plainTokens false s.toList [] (fun _ _ h => nomatch h) hs

example : plainTokens [] ") ON DELETE ".toList
    = [.symbol ")", .word "ON" false, .word "DELETE" false] := by decide

end ProtoSchema.Sql
