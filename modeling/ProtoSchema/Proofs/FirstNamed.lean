/-!
# The first of each name

Definitions with a name that was used before are left out, and so are those without a name.
`firstNamed name taken xs` keeps the others, where the names `taken` are used before the list
starts.

Key results:
* `firstNamed_append` — a list may be taken part by part
* `firstNamed_eq_filter` — names used before only remove elements
* `map_name_firstNamed` — the names that are left are the names without repetitions
* `firstNamed_eq_self_iff` — nothing is left out when all names are distinct
-/

namespace ProtoSchema

variable {α β : Type}

/-- The elements whose name is neither empty, nor taken, nor the name of one before. -/
def firstNamed (name : α → String) : (taken : List String) → List α → List α
  | _, [] => []
  | taken, x :: xs =>
    if name x = "" ∨ name x ∈ taken then firstNamed name taken xs
    else x :: firstNamed name (taken ++ [name x]) xs

/-- An element without a name of its own is left out. -/
theorem firstNamed_cons_of_taken {name : α → String} {taken : List String} {x : α}
    (h : name x = "" ∨ name x ∈ taken) (xs : List α) :
    firstNamed name taken (x :: xs) = firstNamed name taken xs := by
  rw [firstNamed, if_pos h]

/-- An element with a name of its own is kept, and its name is taken from there on. -/
theorem firstNamed_cons_of_new {name : α → String} {taken : List String} {x : α}
    (h : ¬(name x = "" ∨ name x ∈ taken)) (xs : List α) :
    firstNamed name taken (x :: xs) = x :: firstNamed name (taken ++ [name x]) xs := by
  rw [firstNamed, if_neg h]

/-- A list may be taken part by part: what the first part keeps is taken for the second. -/
theorem firstNamed_append (name : α → String) (taken : List String) (xs ys : List α) :
    firstNamed name taken (xs ++ ys) = firstNamed name taken xs
      ++ firstNamed name (taken ++ (firstNamed name taken xs).map name) ys := by
  induction xs generalizing taken with
  | nil => simp [firstNamed]
  | cons x xs ih =>
    -- Whether `x` is kept is decided before `ys` is looked at.
    by_cases h : name x = "" ∨ name x ∈ taken
    · rw [List.cons_append, firstNamed_cons_of_taken h, firstNamed_cons_of_taken h, ih]
    · rw [List.cons_append, firstNamed_cons_of_new h, firstNamed_cons_of_new h, ih]
      simp

/-- Only which names are taken matters, not in which order or how often. -/
theorem firstNamed_congr {name : α → String} {taken taken' : List String}
    (h : ∀ n, n ∈ taken ↔ n ∈ taken') (xs : List α) :
    firstNamed name taken xs = firstNamed name taken' xs := by
  induction xs generalizing taken taken' with
  | nil => rfl
  | cons x xs ih =>
    -- The two lists of taken names go on having the same members.
    have hnext : ∀ n, n ∈ taken ++ [name x] ↔ n ∈ taken' ++ [name x] := by
      simp [h]
    rw [firstNamed, firstNamed, ih h, ih hnext]
    simp only [h]

/-- Names used before only remove elements. -/
theorem firstNamed_append_taken (name : α → String) (taken more : List String) (xs : List α) :
    firstNamed name (taken ++ more) xs
      = (firstNamed name more xs).filter fun x => name x ∉ taken := by
  induction xs generalizing more with
  | nil => rfl
  | cons x xs ih =>
    -- An element is left out for having no name, or one that was met or taken.
    by_cases hmore : name x = "" ∨ name x ∈ more
    · have hall : name x = "" ∨ name x ∈ taken ++ more := hmore.imp id (List.mem_append_right _)
      rw [firstNamed_cons_of_taken hall, firstNamed_cons_of_taken hmore, ih]
    · rw [firstNamed_cons_of_new hmore, List.filter_cons, ← ih]
      by_cases htaken : name x ∈ taken
      · -- The name is taken already, so that taking it again changes nothing.
        have hall : name x = "" ∨ name x ∈ taken ++ more := .inr (List.mem_append_left _ htaken)
        rw [firstNamed_cons_of_taken hall, if_neg (by simpa using htaken)]
        exact firstNamed_congr (fun n => by simp; grind) xs
      · have hnew : ¬(name x = "" ∨ name x ∈ taken ++ more) := by
          simp only [List.mem_append]
          exact fun h => hmore (h.imp id fun h => h.resolve_left htaken)
        rw [firstNamed_cons_of_new hnew, if_pos (by simpa using htaken), List.append_assoc]

/-- Names that were taken before only leave out more elements. -/
theorem firstNamed_eq_filter (name : α → String) (taken : List String) (xs : List α) :
    firstNamed name taken xs = (firstNamed name [] xs).filter fun x => name x ∉ taken := by
  rw [← firstNamed_append_taken, List.append_nil]

/-- Elements with the names of their images are kept where the images are. -/
theorem map_firstNamed (name : β → String) (f : α → β) (taken : List String) (xs : List α) :
    (firstNamed (fun x => name (f x)) taken xs).map f = firstNamed name taken (xs.map f) := by
  induction xs generalizing taken with
  | nil => rfl
  | cons x xs ih =>
    by_cases h : name (f x) = "" ∨ name (f x) ∈ taken
    · have hx : firstNamed (fun x => name (f x)) taken (x :: xs)
          = firstNamed (fun x => name (f x)) taken xs := by rw [firstNamed, if_pos h]
      rw [hx, List.map_cons, firstNamed_cons_of_taken h, ih]
    · have hx : firstNamed (fun x => name (f x)) taken (x :: xs)
          = x :: firstNamed (fun x => name (f x)) (taken ++ [name (f x)]) xs := by
        rw [firstNamed, if_neg h]
      rw [hx, List.map_cons, List.map_cons, firstNamed_cons_of_new h, ih]

/-- The names that are left are the names that are neither empty nor taken, without repetitions. -/
theorem map_name_firstNamed (name : α → String) (taken : List String) (xs : List α) :
    (firstNamed name taken xs).map name
      = ((xs.map name).filter fun n => n ≠ "" ∧ n ∉ taken).eraseDups := by
  induction xs generalizing taken with
  | nil => rfl
  | cons x xs ih =>
    by_cases h : name x = "" ∨ name x ∈ taken
    · have hfilter : ¬(name x ≠ "" ∧ name x ∉ taken) := by
        rintro ⟨hne, hnot⟩
        exact h.elim hne hnot
      rw [firstNamed_cons_of_taken h, ih, List.map_cons, List.filter_cons,
        if_neg (by simpa using hfilter)]
    · rw [not_or] at h
      rw [firstNamed_cons_of_new (by simpa using h), List.map_cons, ih, List.map_cons,
        List.filter_cons, if_pos (by simpa using h), List.eraseDups_cons, List.filter_filter]
      congr 2
      -- Without `name x` in front, it is left out among the taken names or as a repetition.
      refine List.filter_congr fun n _ => ?_
      by_cases hn : n = name x <;> simp [hn]

/-- The names that are left are distinct, and none of them was taken. -/
theorem nodup_names_firstNamed (name : α → String) (taken : List String) (xs : List α) :
    ((firstNamed name taken xs).map name).Nodup
      ∧ ∀ n ∈ (firstNamed name taken xs).map name, n ∉ taken := by
  induction xs generalizing taken with
  | nil => exact ⟨List.nodup_nil, fun n hn => absurd hn List.not_mem_nil⟩
  | cons x xs ih =>
    by_cases h : name x = "" ∨ name x ∈ taken
    · rw [firstNamed_cons_of_taken h]
      exact ih taken
    -- Behind an element that is kept its name counts as taken.
    · obtain ⟨hnodup, hnot⟩ := ih (taken ++ [name x])
      rw [firstNamed_cons_of_new h, List.map_cons, List.nodup_cons]
      refine ⟨⟨fun hx => hnot _ hx (by simp), hnodup⟩, ?_⟩
      intro n hn
      rcases List.mem_cons.1 hn with rfl | hn
      · exact fun hx => h (.inr hx)
      · exact fun hx => hnot n hn (List.mem_append_left _ hx)

/-- Where all names are distinct and none is taken, only elements without a name are left out. -/
theorem firstNamed_of_nodup {name : α → String} {taken : List String} {xs : List α}
    (h : (taken ++ (xs.filter (name · ≠ "")).map name).Nodup) :
    firstNamed name taken xs = xs.filter (name · ≠ "") := by
  induction xs generalizing taken with
  | nil => rfl
  | cons x xs ih =>
    by_cases hx : name x = ""
    · have hfilter : (x :: xs).filter (name · ≠ "") = xs.filter (name · ≠ "") := by simp [hx]
      rw [hfilter] at h ⊢
      rw [firstNamed_cons_of_taken (.inl hx), ih h]
    · have hfilter : (x :: xs).filter (name · ≠ "") = x :: xs.filter (name · ≠ "") := by simp [hx]
      rw [hfilter] at h ⊢
      -- A name that is taken would be there twice.
      have hnot : name x ∉ taken := by
        intro hmem
        exact (List.nodup_append.1 h).2.2 _ hmem _ List.mem_cons_self rfl
      rw [firstNamed_cons_of_new (by simp [hx, hnot]), ih (by simpa using h)]

/-- Nothing is left out when every element has a name of its own. -/
theorem firstNamed_eq_self_iff {name : α → String} {xs : List α} :
    firstNamed name [] xs = xs ↔ "" ∉ xs.map name ∧ (xs.map name).Nodup := by
  constructor
  · intro h
    -- The names that are left are distinct and not empty.
    have hnames := map_name_firstNamed name [] xs
    have hnodup := (nodup_names_firstNamed name [] xs).1
    rw [h] at hnames hnodup
    refine ⟨fun hempty => ?_, hnodup⟩
    rw [hnames, List.mem_eraseDups, List.mem_filter] at hempty
    simp at hempty
  · rintro ⟨hne, hnodup⟩
    -- There is no element without a name to be left out.
    have hall : xs.filter (name · ≠ "") = xs := by
      rw [List.filter_eq_self]
      intro x hx
      simpa using fun hempty : name x = "" => hne (List.mem_map.2 ⟨x, hx, hempty⟩)
    have h : ([] ++ (xs.filter (name · ≠ "")).map name).Nodup := by rwa [hall]
    rw [firstNamed_of_nodup h, hall]

/-- Elements are left out, nothing else. -/
theorem firstNamed_sublist (name : α → String) (taken : List String) (xs : List α) :
    (firstNamed name taken xs).Sublist xs := by
  induction xs generalizing taken with
  | nil => exact List.Sublist.refl []
  | cons x xs ih =>
    by_cases h : name x = "" ∨ name x ∈ taken
    · rw [firstNamed_cons_of_taken h]
      exact (ih taken).cons x
    · rw [firstNamed_cons_of_new h]
      exact (ih _).cons_cons x

/-- No list gets longer. -/
theorem length_firstNamed_le (name : α → String) (taken : List String) (xs : List α) :
    (firstNamed name taken xs).length ≤ xs.length :=
  (firstNamed_sublist name taken xs).length_le

/-- Nothing is left out of two lists when nothing is left out of either, the names of the first
being taken for the second. -/
theorem firstNamed_append_eq_self_iff {name : α → String} {taken : List String} {xs ys : List α} :
    firstNamed name taken (xs ++ ys) = xs ++ ys ↔ firstNamed name taken xs = xs
      ∧ firstNamed name (taken ++ (firstNamed name taken xs).map name) ys = ys := by
  rw [firstNamed_append]
  constructor
  · intro h
    -- Neither part is longer than its list, so both have the whole length.
    have hlength := congrArg List.length h
    have hxs := length_firstNamed_le name taken xs
    have hys := length_firstNamed_le name (taken ++ (firstNamed name taken xs).map name) ys
    rw [List.length_append, List.length_append] at hlength
    exact List.append_inj h (by omega)
  · rintro ⟨hxs, hys⟩
    rw [hys, hxs]

/-- Every name is taken in the end. -/
theorem mem_names_firstNamed {name : α → String} {taken : List String} {xs : List α} {x : α}
    (hx : x ∈ xs) (hne : name x ≠ "") (hnot : name x ∉ taken) :
    name x ∈ (firstNamed name taken xs).map name := by
  rw [map_name_firstNamed, List.mem_eraseDups, List.mem_filter]
  exact ⟨List.mem_map_of_mem hx, by simpa using ⟨hne, hnot⟩⟩

/-- Where every name is taken, nothing is kept. -/
theorem firstNamed_eq_nil {name : α → String} {taken : List String} {xs : List α}
    (h : ∀ x ∈ xs, name x = "" ∨ name x ∈ taken) : firstNamed name taken xs = [] := by
  induction xs with
  | nil => rfl
  | cons x xs ih =>
    rw [firstNamed_cons_of_taken (h x List.mem_cons_self)]
    exact ih fun y hy => h y (List.mem_cons_of_mem x hy)

end ProtoSchema
