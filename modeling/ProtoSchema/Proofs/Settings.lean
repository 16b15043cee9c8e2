import Mathlib.Data.List.TakeWhile
import ProtoSchema.Options

/-!
# The settings of a parameter

A parameter is understood when each of its segments is a setting: it is cut at its first equals
sign, and what stands behind is a value for the key in front. Then the last value of each key
counts, and a key without a value keeps its default; otherwise the first segment that is no setting
is reported.

Key results:
* `isCut_iff`, `latest_cons` — a segment has one key and one value, which later ones replace
* `ofSegment_eq_error_iff`, `exists_ofSegment_iff` — exactly when a segment is a setting
* `segments_append`, `parse_append` — settings may be added at the end of a parameter
* `parse_grammar` — the parameters that are understood, and what is made of any
-/

namespace ProtoSchema

open Text (trim isBlank)

/-! ## Segments -/

/-- A segment is cut at its first equals sign. -/
def IsCut (segment before after : List Char) : Prop :=
  segment = before ++ '=' :: after ∧ '=' ∉ before

/-- A segment with an equals sign is cut in one way. -/
theorem isCut_iff {segment before after : List Char} :
    IsCut segment before after ↔ '=' ∈ segment ∧ segment.takeWhile (· ≠ '=') = before
      ∧ (segment.dropWhile (· ≠ '=')).tail = after := by
  constructor
  · rintro ⟨rfl, hbefore⟩
    have hall : ∀ c ∈ before, decide (c ≠ '=') = true := by
      intro c hc
      exact decide_eq_true fun h => hbefore (h ▸ hc)
    refine ⟨by simp, ?_, ?_⟩
    · rw [List.takeWhile_append_of_pos hall]
      simp
    · rw [List.dropWhile_append_of_pos hall]
      simp
  · rintro ⟨hmem, rfl, rfl⟩
    have hnot : '=' ∉ segment.takeWhile (· ≠ '=') := by
      intro h
      simpa using List.mem_takeWhile_imp h
    refine ⟨?_, hnot⟩
    -- What is dropped starts with the equals sign, since the segment has one.
    cases hdrop : segment.dropWhile (· ≠ '=') with
    | nil =>
      have hall := List.dropWhile_eq_nil_iff.1 hdrop '=' hmem
      simp at hall
    | cons c rest =>
      have hc : c = '=' := by
        have hhead := List.head?_dropWhile_not (· ≠ '=') segment
        rw [hdrop] at hhead
        simpa using hhead
      have happend := List.takeWhile_append_dropWhile (p := (· ≠ '=')) (l := segment)
      rw [hdrop, hc] at happend
      exact happend.symm

/-- Every segment with an equals sign is cut somewhere. -/
theorem exists_isCut {segment : List Char} (h : '=' ∈ segment) :
    ∃ before after, IsCut segment before after :=
  ⟨_, _, isCut_iff.2 ⟨h, rfl, rfl⟩⟩

/-- A segment gives a key a value, both without the blanks around them. -/
def Assigns (segment : List Char) (key : String) (value : List Char) : Prop :=
  ∃ before after, IsCut segment before after ∧ trim before = key.toList ∧ trim after = value

/-- A segment gives a value to the key in front of its first equals sign, and to no other. -/
theorem assigns_iff_of_isCut {segment before after value : List Char} {key : String}
    (h : IsCut segment before after) :
    Assigns segment key value ↔ trim before = key.toList ∧ trim after = value := by
  refine ⟨?_, fun hvalue => ⟨before, after, h, hvalue⟩⟩
  rintro ⟨before', after', h', hkey, hvalue⟩
  -- A segment is cut in one way only.
  obtain ⟨-, hbefore, hafter⟩ := isCut_iff.1 h
  obtain ⟨-, hbefore', hafter'⟩ := isCut_iff.1 h'
  rw [← hbefore, ← hafter, hbefore', hafter']
  exact ⟨hkey, hvalue⟩

/-- A segment that is understood: it has an equals sign, a name for the schema document is not
blank, and the value for verification is one of two words. -/
structure IsSetting (segment : List Char) : Prop where
  equalsSign : '=' ∈ segment
  schemaFile : ∀ value, Assigns segment "schema_file" value → value ≠ []
  verify : ∀ value, Assigns segment "verify" value → value = "true".toList ∨ value = "false".toList

/-- What is wrong with a segment. The value that is no truth value is reported with its blanks. -/
inductive Offends (segment : List Char) : OptionFault → Prop
  | notKeyValue (h : '=' ∉ segment) : Offends segment (.notKeyValue (String.ofList segment))
  | emptySchemaFile (h : Assigns segment "schema_file" []) : Offends segment .emptySchemaFile
  | notTruthValue {before after : List Char} (hcut : IsCut segment before after)
      (hkey : trim before = "verify".toList) (htrue : trim after ≠ "true".toList)
      (hfalse : trim after ≠ "false".toList) :
      Offends segment (.notTruthValue (String.ofList after))

/-- The first segment that is no setting has a fault. -/
def FirstOffends (segments : List (List Char)) (fault : OptionFault) : Prop :=
  ∃ front segment back, segments = front ++ segment :: back ∧ (∀ s ∈ front, IsSetting s)
    ∧ Offends segment fault

/-- The first offence is in the first segment, or behind it if that is a setting. -/
theorem firstOffends_cons {segment : List Char} {segments : List (List Char)}
    {fault : OptionFault} :
    FirstOffends (segment :: segments) fault
      ↔ Offends segment fault ∨ IsSetting segment ∧ FirstOffends segments fault := by
  constructor
  -- The segments in front of the offence are none, or start with the first segment.
  · rintro ⟨front, s, back, hsplit, hfront, hs⟩
    cases front with
    | nil =>
      obtain ⟨rfl, -⟩ := List.cons.inj hsplit
      exact .inl hs
    | cons s' front =>
      obtain ⟨rfl, hrest⟩ := List.cons.inj hsplit
      obtain ⟨hfirst, hfront⟩ := List.forall_mem_cons.1 hfront
      exact .inr ⟨hfirst, front, s, back, hrest, hfront, hs⟩
  · rintro (hs | ⟨hfirst, front, s, back, rfl, hfront, hs⟩)
    · exact ⟨[], segment, segments, rfl, List.forall_mem_nil _, hs⟩
    · exact ⟨segment :: front, s, back, rfl, List.forall_mem_cons.2 ⟨hfirst, hfront⟩, hs⟩

/-- The value of a key: the last one that a segment gives it, or its default where none does. -/
def Latest (key : String) (segments : List (List Char)) (default value : List Char) : Prop :=
  (∃ front segment back, segments = front ++ segment :: back ∧ Assigns segment key value
      ∧ ∀ other ∈ back, ∀ v, ¬Assigns other key v)
    ∨ (∀ segment ∈ segments, ∀ v, ¬Assigns segment key v) ∧ value = default

/-- Without settings a key has its default. -/
theorem latest_nil {key : String} {default value : List Char} :
    Latest key [] default value ↔ value = default := by
  simp [Latest]

/-- The value that a segment gives a key is the default for the segments behind it. -/
theorem latest_cons {key : String} {segment before after : List Char}
    {segments : List (List Char)} {default value : List Char} (h : IsCut segment before after) :
    Latest key (segment :: segments) default value
      ↔ Latest key segments (if trim before = key.toList then trim after else default) value := by
  -- A segment is cut in one way, so what it assigns is known.
  have hassigns : ∀ v, Assigns segment key v ↔ trim before = key.toList ∧ trim after = v :=
    fun _ => assigns_iff_of_isCut h
  constructor
  -- The last assignment is this segment, or stands behind it, or there is none.
  · rintro (⟨front, s, back, hsplit, hs, hback⟩ | ⟨hnone, rfl⟩)
    · cases front with
      | nil =>
        obtain ⟨rfl, rfl⟩ := List.cons.inj hsplit
        obtain ⟨hkey, hvalue⟩ := (hassigns value).1 hs
        exact .inr ⟨hback, by rw [if_pos hkey, hvalue]⟩
      | cons s' front =>
        obtain ⟨rfl, hrest⟩ := List.cons.inj hsplit
        exact .inl ⟨front, s, back, hrest, hs, hback⟩
    · have hkey : trim before ≠ key.toList := by
        intro hkey
        exact hnone segment List.mem_cons_self _ ((hassigns _).2 ⟨hkey, rfl⟩)
      exact .inr ⟨fun s hs => hnone s (List.mem_cons_of_mem _ hs), by rw [if_neg hkey]⟩
  -- The value of this segment takes the place of the default.
  · rintro (⟨front, s, back, rfl, hs, hback⟩ | ⟨hnone, rfl⟩)
    · exact .inl ⟨segment :: front, s, back, rfl, hs, hback⟩
    · by_cases hkey : trim before = key.toList
      · rw [if_pos hkey]
        exact .inl ⟨[], segment, segments, rfl, (hassigns _).2 ⟨hkey, rfl⟩, hnone⟩
      · rw [if_neg hkey]
        refine .inr ⟨?_, rfl⟩
        rw [List.forall_mem_cons]
        exact ⟨fun v hv => hkey ((hassigns v).1 hv).1, hnone⟩

/-! ## One setting -/

namespace Setting

/-- A truth value is written in one way. -/
theorem truthValue?_eq_some_iff {text : List Char} {b : Bool} :
    truthValue? text = some b ↔ text = (toString b).toList := by
  unfold truthValue?
  -- The two words are tried one after the other.
  by_cases htrue : text = "true".toList
  · rw [if_pos htrue, htrue]
    cases b <;> decide
  · rw [if_neg htrue]
    by_cases hfalse : text = "false".toList
    · rw [if_pos hfalse, hfalse]
      cases b <;> decide
    · rw [if_neg hfalse]
      cases b
      · exact iff_of_false nofun hfalse
      · exact iff_of_false nofun htrue

/-- Two texts are truth values, and no others. -/
theorem truthValue?_eq_none_iff {text : List Char} :
    truthValue? text = none ↔ text ≠ "true".toList ∧ text ≠ "false".toList := by
  rw [Option.eq_none_iff_forall_ne_some]
  simp only [Ne, truthValue?_eq_some_iff, Bool.forall_bool]
  exact and_comm

variable {segment before after : List Char}

/-- The setting of a segment, by what stands on either side of its first equals sign. -/
theorem ofSegment_of_isCut (h : IsCut segment before after) :
    ofSegment segment =
      if trim before = "schema_file".toList then
        if trim after = [] then .error .emptySchemaFile
        else .ok (.schemaFile (String.ofList (trim after)))
      else if trim before = "verify".toList then
        match truthValue? (trim after) with
        | some b => .ok (.verify b)
        | none => .error (.notTruthValue (String.ofList after))
      else .ok (.unknown (String.ofList (trim before))) := by
  -- The parts around the first sign are the key and the value.
  obtain ⟨hmem, rfl, rfl⟩ := isCut_iff.1 h
  simp only [ofSegment, key, value, List.contains_eq_mem, hmem, decide_true, Bool.not_true,
    Bool.false_eq_true, ↓reduceIte, List.isEmpty_iff]
  rfl

/-- A segment without an equals sign is no setting. -/
theorem ofSegment_of_notMem (h : '=' ∉ segment) :
    ofSegment segment = .error (.notKeyValue (String.ofList segment)) := by
  simp [ofSegment, h]

/-- A segment is refused for exactly one reason. -/
theorem ofSegment_eq_error_iff {fault : OptionFault} :
    ofSegment segment = .error fault ↔ Offends segment fault := by
  constructor
  · intro h
    -- A segment with a sign is cut, and fails for its key or its value.
    by_cases hmem : '=' ∈ segment
    · obtain ⟨before, after, hcut⟩ := exists_isCut hmem
      rw [ofSegment_of_isCut hcut] at h
      split at h
      · next hkey =>
        split at h
        · next hblank =>
          cases h
          exact .emptySchemaFile ⟨before, after, hcut, hkey, hblank⟩
        · cases h
      · split at h
        · next hkey =>
          split at h
          · cases h
          · next hnone =>
            cases h
            obtain ⟨htrue, hfalse⟩ := truthValue?_eq_none_iff.1 hnone
            exact .notTruthValue hcut hkey htrue hfalse
        · cases h
    · rw [ofSegment_of_notMem hmem] at h
      cases h
      exact .notKeyValue hmem
  -- Each offence leads to its own branch.
  · rintro (hmem | ⟨before, after, hcut, hkey, hblank⟩ | ⟨hcut, hkey, htrue, hfalse⟩)
    · exact ofSegment_of_notMem hmem
    · rw [ofSegment_of_isCut hcut, if_pos hkey, if_pos hblank]
    · have hkeys : "verify".toList ≠ "schema_file".toList := by decide
      have hnone := truthValue?_eq_none_iff.2 ⟨htrue, hfalse⟩
      rw [ofSegment_of_isCut hcut, hkey, if_neg hkeys, if_pos rfl, hnone]

/-- A segment that is refused is no setting, and any other is one. -/
theorem exists_ofSegment_iff :
    (∃ setting, ofSegment segment = .ok setting) ↔ IsSetting segment := by
  constructor
  · rintro ⟨setting, h⟩
    have hnot : ∀ fault, ¬Offends segment fault := by
      intro fault hfault
      rw [ofSegment_eq_error_iff.2 hfault] at h
      cases h
    refine ⟨?_, ?_, ?_⟩
    · by_contra hmem
      exact hnot _ (.notKeyValue hmem)
    · rintro _ hvalue rfl
      exact hnot _ (.emptySchemaFile hvalue)
    · rintro value ⟨before, after, hcut, hkey, rfl⟩
      by_contra hvalue
      rw [not_or] at hvalue
      exact hnot _ (.notTruthValue hcut hkey hvalue.1 hvalue.2)
  · rintro ⟨hmem, hschema, hverify⟩
    cases hsegment : ofSegment segment with
    | ok setting => exact ⟨setting, rfl⟩
    | error fault =>
      -- Each reason to refuse the segment is one of the three conditions.
      rcases ofSegment_eq_error_iff.1 hsegment with hnot | hblank | ⟨hcut, hkey, htrue, hfalse⟩
      · exact absurd hmem hnot
      · exact absurd rfl (hschema [] hblank)
      · rcases hverify _ ⟨_, _, hcut, hkey, rfl⟩ with h | h
        · exact absurd h htrue
        · exact absurd h hfalse

end Setting

/-! ## Parameters -/

namespace Options

/-- The options `o` are what the segments say, where `defaults` stand for what they do not say. -/
structure IsReadFrom (o defaults : Options) (segments : List (List Char)) : Prop where
  schemaFile : Latest "schema_file" segments defaults.schemaFile.toList o.schemaFile.toList
  verify : Latest "verify" segments (toString defaults.verify).toList (toString o.verify).toList

/-- Without segments the defaults hold. -/
theorem isReadFrom_nil {o defaults : Options} : o.IsReadFrom defaults [] ↔ o = defaults := by
  constructor
  · rintro ⟨hfile, hverify⟩
    rw [latest_nil, String.toList_inj] at hfile hverify
    have hb : o.verify = defaults.verify := by
      revert hverify
      cases o.verify <;> cases defaults.verify <;> decide
    cases o
    cases defaults
    simp_all
  · rintro rfl
    exact ⟨latest_nil.2 rfl, latest_nil.2 rfl⟩

/-- A setting in front takes the place of a default. -/
theorem isReadFrom_cons {o defaults : Options} {segment : List Char} {segments : List (List Char)}
    {setting : Setting} (h : Setting.ofSegment segment = .ok setting) :
    o.IsReadFrom defaults (segment :: segments)
      ↔ o.IsReadFrom (defaults.apply setting) segments := by
  have hmem : '=' ∈ segment := (Setting.exists_ofSegment_iff.1 ⟨setting, h⟩).equalsSign
  obtain ⟨before, after, hcut⟩ := exists_isCut hmem
  -- The two keys are different, so a setting changes one option at most.
  have hkeys : "schema_file".toList ≠ "verify".toList := by decide
  rw [Setting.ofSegment_of_isCut hcut] at h
  have hcons : o.IsReadFrom defaults (segment :: segments)
      ↔ Latest "schema_file" segments
          (if trim before = "schema_file".toList then trim after else defaults.schemaFile.toList)
          o.schemaFile.toList
        ∧ Latest "verify" segments
          (if trim before = "verify".toList then trim after else (toString defaults.verify).toList)
          (toString o.verify).toList := by
    rw [← latest_cons hcut, ← latest_cons hcut]
    exact ⟨fun h => ⟨h.schemaFile, h.verify⟩, fun h => ⟨h.1, h.2⟩⟩
  have happly : o.IsReadFrom (defaults.apply setting) segments
      ↔ Latest "schema_file" segments (defaults.apply setting).schemaFile.toList o.schemaFile.toList
        ∧ Latest "verify" segments (toString (defaults.apply setting).verify).toList
          (toString o.verify).toList :=
    ⟨fun h => ⟨h.schemaFile, h.verify⟩, fun h => ⟨h.1, h.2⟩⟩
  rw [hcons, happly]
  split at h
  · next hkey =>
    split at h
    · cases h
    · cases h
      rw [if_pos hkey, if_neg (hkey ▸ hkeys), apply, String.toList_ofList]
  · next hother =>
    rw [if_neg hother]
    split at h
    · next hkey =>
      split at h
      · next b hb =>
        cases h
        rw [if_pos hkey, apply, Setting.truthValue?_eq_some_iff.1 hb]
      · cases h
    · next hkey =>
      cases h
      rw [if_neg hkey, apply]

/-- Segments are understood when each of them is, and then the latest values hold. -/
theorem ofSegments_eq_ok_iff {defaults o : Options} {segments : List (List Char)} :
    (ofSegments defaults segments).value = .ok o
      ↔ (∀ s ∈ segments, IsSetting s) ∧ o.IsReadFrom defaults segments := by
  induction segments generalizing defaults with
  | nil =>
    rw [isReadFrom_nil, eq_comm (a := o)]
    simp [ofSegments]
  | cons segment segments ih =>
    rw [ofSegments, List.forall_mem_cons, ← Setting.exists_ofSegment_iff]
    cases h : Setting.ofSegment segment with
    -- A segment that is no setting stops the reading.
    | error fault => simp
    | ok setting =>
      rw [isReadFrom_cons h]
      simpa using ih

/-- Otherwise the fault is that of the first segment that is not understood. -/
theorem ofSegments_eq_error_iff {defaults : Options} {segments : List (List Char)}
    {fault : OptionFault} :
    (ofSegments defaults segments).value = .error fault ↔ FirstOffends segments fault := by
  induction segments generalizing defaults with
  | nil => simp [ofSegments, FirstOffends]
  | cons segment segments ih =>
    -- The first segment offends, or what follows it does.
    rw [ofSegments, firstOffends_cons, ← Setting.ofSegment_eq_error_iff,
      ← Setting.exists_ofSegment_iff]
    cases h : Setting.ofSegment segment with
    | error fault' => simp
    | ok setting => simpa using ih

/-- The options of a parameter, where `defaults` stand for what it does not say. -/
def parseWith (defaults : Options) (parameter : String) : Except OptionFault Options :=
  (ofSegments defaults (segments parameter.toList)).value

/-- The segments around a comma are those in front of it and those behind. -/
theorem segments_append (p q : List Char) :
    segments (p ++ ',' :: q) = segments p ++ segments q := by
  rw [segments, List.splitOn_append_cons_self, List.map_append, List.filter_append]
  rfl

/-- A text without commas and without blanks around it is a segment. -/
theorem segments_eq_singleton {s : List Char} (hne : s ≠ []) (hcomma : ',' ∉ s)
    (htrim : trim s = s) : segments s = [s] := by
  have hkept : s.isEmpty = false := by simpa using hne
  rw [segments, List.splitOn_eq_singleton hcomma, List.map_singleton, htrim]
  simp [hkept]

/-- Settings may be added at the end of a parameter. What was said before stands for the defaults,
and a fault in it is reported first. -/
theorem parse_append (parameter : Option String) (more : String) :
    (parse (some (parameter.getD "" ++ "," ++ more))).value
      = match (parse parameter).value with
        | .error fault => .error fault
        | .ok o => parseWith o more := by
  -- The comma ends the last segment of the parameter and starts the first new one.
  have hlist : (parameter.getD "" ++ "," ++ more).toList
      = (parameter.getD "").toList ++ ',' :: more.toList := by simp
  rw [parse, parse, Option.getD_some, hlist, segments_append, ofSegments_append]
  rfl

/-- A name for the schema document and a truth value for verification, written as settings. -/
theorem parse_written {name : String} (hne : name ≠ "") (hcomma : ',' ∉ name.toList)
    (hfirst : ∀ c ∈ name.toList.head?, isBlank c = false)
    (hlast : ∀ c ∈ name.toList.getLast?, isBlank c = false) (b : Bool) :
    (parse (some ("schema_file=" ++ name ++ "," ++ ("verify=" ++ toString b)))).value
      = .ok ⟨name, b⟩ := by
  have hnil : name.toList ≠ [] := by simpa using hne
  have htrim : trim name.toList = name.toList := Text.trim_eq_self hfirst hlast
  have htext : ("schema_file=" ++ name).toList = "schema_file".toList ++ '=' :: name.toList := by
    simp
  -- A name without commas makes one segment.
  have hsegment : segments ("schema_file=" ++ name).toList = [("schema_file=" ++ name).toList] := by
    rw [htext]
    refine segments_eq_singleton (by simp) (by simpa using hcomma) (Text.trim_eq_self ?_ ?_)
    · intro c hc
      cases hc
      decide
    · -- The last character of the segment is that of the name, which is not empty.
      intro c hc
      rw [List.getLast?_append, List.getLast?_cons_of_ne_nil hnil] at hc
      refine hlast c ?_
      rw [List.getLast?_eq_some_getLast hnil] at hc ⊢
      exact hc
  -- The sign behind the key is the first one, whatever the name holds.
  have hcut : IsCut ("schema_file=" ++ name).toList "schema_file".toList name.toList :=
    ⟨htext, by decide⟩
  have hkey : trim "schema_file".toList = "schema_file".toList := by decide
  have hsetting : Setting.ofSegment ("schema_file=" ++ name).toList = .ok (.schemaFile name) := by
    rw [Setting.ofSegment_of_isCut hcut, if_pos hkey, htrim, if_neg hnil, String.ofList_toList]
  have hfile : (parse (some ("schema_file=" ++ name))).value = .ok { schemaFile := name } := by
    rw [parse, Option.getD_some, hsegment, ofSegments, hsetting]
    rfl
  -- The second setting is read behind the first one.
  have happend := parse_append (some ("schema_file=" ++ name)) ("verify=" ++ toString b)
  rw [Option.getD_some, hfile] at happend
  rw [happend]
  cases b <;> rfl

/-- A parameter is understood exactly when each of its segments is a setting. Then the last value of
each key counts, and a key without a value keeps its default; otherwise the fault is that of the
first segment that is no setting. A parameter in front of a comma is read first, and what it says
stands for the defaults of the other. Every name without commas and without blanks around it can be
given to the schema document. -/
theorem parse_grammar :
    (∀ (defaults : Options) (p : String),
      ((∃ o, parseWith defaults p = .ok o) ↔ ∀ s ∈ segments p.toList, IsSetting s)
      ∧ (∀ o, parseWith defaults p = .ok o ↔ (∀ s ∈ segments p.toList, IsSetting s)
        ∧ o.IsReadFrom defaults (segments p.toList))
      ∧ ∀ fault, parseWith defaults p = .error fault ↔ FirstOffends (segments p.toList) fault)
    ∧ (∀ p, (parse (some p)).value = parseWith {} p)
    ∧ (∀ a b : String, (parse (some (a ++ "," ++ b))).value = match (parse (some a)).value with
      | .error fault => .error fault
      | .ok o => parseWith o b)
    ∧ ∀ (n : String) (v : Bool), n ≠ "" → ',' ∉ n.toList →
      (∀ c ∈ n.toList.head?, isBlank c = false) → (∀ c ∈ n.toList.getLast?, isBlank c = false) →
      (parse (some ("schema_file=" ++ n ++ ",verify=" ++ toString v))).value = .ok ⟨n, v⟩ := by
  refine ⟨fun defaults p => ⟨⟨?_, fun hall => ?_⟩, fun o => ofSegments_eq_ok_iff,
    fun fault => ofSegments_eq_error_iff⟩, fun _ => rfl, fun a b => parse_append (some a) b,
    fun n v hne hcomma hfirst hlast => ?_⟩
  · rintro ⟨o, ho⟩
    exact (ofSegments_eq_ok_iff.1 ho).1
  · cases h : parseWith defaults p with
    | ok o => exact ⟨o, rfl⟩
    | error fault =>
      -- A segment that is at fault would be no setting.
      obtain ⟨front, s, back, hsplit, -, hs⟩ := ofSegments_eq_error_iff.1 h
      have hmem : s ∈ segments p.toList := by simp [hsplit]
      obtain ⟨setting, hok⟩ := Setting.exists_ofSegment_iff.2 (hall s hmem)
      rw [Setting.ofSegment_eq_error_iff.2 hs] at hok
      cases hok
  · have htext : "schema_file=" ++ n ++ ",verify=" ++ toString v
        = "schema_file=" ++ n ++ "," ++ ("verify=" ++ toString v) := by
      have hcomma : ",verify=" = "," ++ "verify=" := rfl
      rw [hcomma, ← String.append_assoc, ← String.append_assoc]
    rw [htext]
    exact parse_written hne hcomma hfirst hlast v

/-- A name with an equals sign and blanks inside it, a value that is replaced, and a segment that is
no setting in front of another one. -/
theorem parse_grammar_repeated :
    (parse (some ("schema_file=" ++ "a = b" ++ ",verify=" ++ toString true))).value
      = .ok ⟨"a = b", true⟩
    ∧ Options.IsReadFrom ⟨"x=y", false⟩ {}
      (segments " verify = true ,, schema_file = x=y ,paths=,verify=false".toList)
    ∧ FirstOffends (segments "verify=true, paths ,verify=yes".toList) (.notKeyValue "paths") := by
  obtain ⟨hgrammar, -, -, hwritten⟩ := parse_grammar
  -- Blanks, empty segments, an unknown key and repeated keys.
  have hread : parseWith {} " verify = true ,, schema_file = x=y ,paths=,verify=false"
      = .ok ⟨"x=y", false⟩ := by decide +kernel
  have hrefused : parseWith {} "verify=true, paths ,verify=yes"
      = .error (.notKeyValue "paths") := by decide +kernel
  have hfirst : ∀ c ∈ "a = b".toList.head?, isBlank c = false := by
    rintro _ ⟨⟩
    rfl
  have hlast : ∀ c ∈ "a = b".toList.getLast?, isBlank c = false := by
    rintro _ ⟨⟩
    rfl
  exact ⟨hwritten "a = b" true (by decide) (by decide) hfirst hlast,
    (((hgrammar {} _).2.1 _).1 hread).2, ((hgrammar {} _).2.2 _).1 hrefused⟩

end Options

end ProtoSchema
