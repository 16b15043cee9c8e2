import Mathlib.Algebra.GroupWithZero.Nat
import Mathlib.Data.List.Flatten
import Mathlib.Data.List.Nodup
import Mathlib.Data.List.Perm.Subperm

/-!
# Lists that count as much

Where the elements of one list are no larger than those of another, and together not smaller, they
are equal in size. So it is with the parts of a list that belong to different keys, and with a list
that is a part of another one.

Key results:
* `forall₂_eq_of_sum_le` — sizes pairwise and in sum
* `flatMap_filter_subperm`, `eq_of_map_fst_eq` — the parts of a list by their keys
* `eq_of_sublist_of_length_flatMap` — a part that is the whole
-/

namespace ProtoSchema

/-- Where no value is larger than its counterpart and the sums are not smaller, all are equal. -/
theorem forall₂_eq_of_sum_le {α β : Type} {r : α → β → Prop} {f : α → Nat} {g : β → Nat}
    {as : List α} {bs : List β} (h : List.Forall₂ r as bs) (hle : ∀ a b, r a b → g b ≤ f a)
    (hsum : (as.map f).sum ≤ (bs.map g).sum) :
    List.Forall₂ (fun a b => r a b ∧ g b = f a) as bs := by
  -- Of each tail the sums are in order, too.
  have hsums : ∀ {as bs}, List.Forall₂ r as bs → (bs.map g).sum ≤ (as.map f).sum := by
    intro as bs h
    induction h with
    | nil => exact Nat.le_refl _
    | cons hab _ ih =>
      have := hle _ _ hab
      simp only [List.map_cons, List.sum_cons]
      omega
  induction h with
  | nil => exact .nil
  | cons hab hrest ih =>
    -- A head that is smaller could not be made good by the tail.
    have hhead := hle _ _ hab
    have htail := hsums hrest
    simp only [List.map_cons, List.sum_cons] at hsum
    exact .cons ⟨hab, by omega⟩ (ih (by omega))

/-- The parts of a list that belong to distinct keys are together no more than the list. -/
theorem flatMap_filter_subperm {κ ν : Type} [DecidableEq κ] {keys : List κ} (hkeys : keys.Nodup)
    (pairs : List (κ × ν)) :
    (keys.flatMap fun k => pairs.filter (·.1 = k)).Subperm pairs := by
  induction keys generalizing pairs with
  | nil => exact List.nil_subperm
  | cons k keys ih =>
    obtain ⟨hnew, hkeys⟩ := List.nodup_cons.1 hkeys
    -- The parts of the other keys belong to what is left without the first.
    have hrest : (keys.flatMap fun l => pairs.filter (·.1 = l))
        = keys.flatMap fun l => (pairs.filter fun p => !decide (p.1 = k)).filter (·.1 = l) := by
      refine List.flatMap_congr fun l hl => ?_
      rw [List.filter_filter]
      refine List.filter_congr fun p _ => ?_
      have hne : l ≠ k := fun h => hnew (h ▸ hl)
      by_cases hp : p.1 = l <;> simp [hp, hne]
    rw [List.flatMap_cons, hrest]
    exact ((List.Subperm.refl _).append (ih hkeys _)).trans (List.filter_append_perm _ _).subperm

/-- The part of a key is found again among the parts of distinct keys. -/
theorem filter_flatMap_filter {κ ν : Type} [DecidableEq κ] {keys : List κ} (hkeys : keys.Nodup)
    {k : κ} (hk : k ∈ keys) (pairs : List (κ × ν)) :
    (keys.flatMap fun l => pairs.filter (·.1 = l)).filter (·.1 = k) = pairs.filter (·.1 = k) := by
  -- The parts of other keys have no pair with this one.
  have hother : ∀ {l}, l ≠ k → (pairs.filter (·.1 = l)).filter (·.1 = k) = [] := by
    intro l hl
    rw [List.filter_filter, List.filter_eq_nil_iff]
    rintro p - hp
    simp only [Bool.and_eq_true, decide_eq_true_eq] at hp
    exact hl (hp.2.symm.trans hp.1)
  induction keys with
  | nil => cases hk
  | cons l keys ih =>
    obtain ⟨hnew, hkeys⟩ := List.nodup_cons.1 hkeys
    rw [List.flatMap_cons, List.filter_append]
    by_cases hl : l = k
    -- The key does not come again, so the other parts are left out.
    · have hrest : (keys.flatMap fun l => pairs.filter (·.1 = l)).filter (·.1 = k) = [] := by
        rw [List.filter_flatMap, List.flatMap_eq_nil_iff]
        exact fun m hm => hother fun h => hnew (hl ▸ h ▸ hm)
      rw [hrest, List.append_nil, hl, List.filter_filter]
      simp
    · have hmem : k ∈ keys := (List.mem_cons.1 hk).resolve_left (Ne.symm hl)
      rw [hother hl, List.nil_append, ih hkeys hmem]

/-- Lists with the same keys in order and the same part for each key are the same. -/
theorem eq_of_map_fst_eq {κ ν : Type} [DecidableEq κ] {xs ys : List (κ × ν)}
    (hkeys : xs.map Prod.fst = ys.map Prod.fst)
    (hparts : ∀ k ∈ xs.map Prod.fst, xs.filter (·.1 = k) = ys.filter (·.1 = k)) : xs = ys := by
  induction xs generalizing ys with
  | nil => exact (List.map_eq_nil_iff.1 hkeys.symm).symm
  | cons x xs ih =>
    obtain ⟨y, ys, rfl, hyx, hrest⟩ := List.map_eq_cons_iff.1 hkeys.symm
    -- The first pairs head the parts of their key, so they are equal.
    have hfirst := hparts x.1 List.mem_cons_self
    rw [List.filter_cons_of_pos (by simp), List.filter_cons_of_pos (by simpa using hyx)] at hfirst
    obtain ⟨rfl, -⟩ := List.cons.inj hfirst
    rw [ih hrest.symm fun k hk => ?_]
    have hpart := hparts k (List.mem_cons_of_mem _ hk)
    -- Without them the parts of all keys are still the same.
    by_cases hx : x.1 = k
    · rw [List.filter_cons_of_pos (by simpa using hx),
        List.filter_cons_of_pos (by simpa using hx)] at hpart
      exact (List.cons.inj hpart).2
    · rwa [List.filter_cons_of_neg (by simpa using hx),
        List.filter_cons_of_neg (by simpa using hx)] at hpart

/-- A part of a list whose elements all count is the list where it counts as much. -/
theorem eq_of_sublist_of_length_flatMap {α β : Type} {f : α → List β} {xs ys : List α}
    (h : xs.Sublist ys) (hne : ∀ y ∈ ys, f y ≠ [])
    (hlen : (ys.flatMap f).length ≤ (xs.flatMap f).length) : xs = ys := by
  induction h with
  | slnil => rfl
  | @cons xs ys y hsub ih =>
    have hy := List.length_pos_iff.2 (hne y List.mem_cons_self)
    have hle := (hsub.flatMap f).length_le
    rw [List.flatMap_cons, List.length_append] at hlen
    omega
  | @cons_cons xs ys y hsub ih =>
    rw [List.flatMap_cons, List.flatMap_cons, List.length_append, List.length_append] at hlen
    rw [ih (fun z hz => hne z (List.mem_cons_of_mem y hz)) (by omega)]

/-! ## Lists up to an element -/

/-- A front without the element `a` stands in front of the first `a`. -/
theorem exists_append_of_notMem {α : Type} {front back as bs : List α} {a : α}
    (h : front ++ back = as ++ a :: bs) (ha : a ∉ front) : ∃ more, as = front ++ more := by
  rcases List.append_eq_append_iff.1 h with ⟨more, has, -⟩ | ⟨more, hfront, hback⟩
  · exact ⟨more, has⟩
  -- If `front` were longer than `as`, the element `a` would be in it.
  · cases more with
    | nil => exact ⟨[], by simpa using hfront.symm⟩
    | cons b more =>
      cases hback
      exact absurd (hfront ▸ List.mem_append_right as List.mem_cons_self) ha

/-- What stands in front of the first `a` of a list is the same, however the list is written. -/
theorem eq_of_append_cons_eq {α : Type} {as bs as' bs' : List α} {a : α}
    (h : as ++ a :: bs = as' ++ a :: bs') (ha : a ∉ as) (ha' : a ∉ as') : as = as' := by
  obtain ⟨more, hmore⟩ := exists_append_of_notMem h ha
  obtain ⟨more', hmore'⟩ := exists_append_of_notMem h.symm ha'
  rw [hmore, List.append_assoc, List.self_eq_append_right, List.append_eq_nil_iff] at hmore'
  rw [hmore, hmore'.1, List.append_nil]

/-! ## Lists side by side -/

/-- A part of a list has the counterpart of each of its elements. -/
theorem exists_sublist_of_forall₂ {α β : Type} {r : α → β → Prop} {xs ys : List α} {bs : List β}
    (hsub : xs.Sublist ys) (h : List.Forall₂ r ys bs) :
    ∃ as, as.Sublist bs ∧ List.Forall₂ r xs as := by
  -- What is left out of one list is left out of the other.
  induction hsub generalizing bs with
  | slnil => exact ⟨[], List.nil_sublist bs, .nil⟩
  | cons y _ ih =>
    cases h with
    | cons _ h =>
      obtain ⟨as, has, hr⟩ := ih h
      exact ⟨as, has.cons _, hr⟩
  | cons_cons y _ ih =>
    cases h with
    | cons hy h =>
      obtain ⟨as, has, hr⟩ := ih h
      exact ⟨_ :: as, has.cons_cons _, .cons hy hr⟩

/-- Where elements are related by way of what stands between them. -/
theorem forall₂_comp {α β γ : Type} {r : α → β → Prop} {s : β → γ → Prop} {t : α → γ → Prop}
    (h : ∀ a b c, r a b → s b c → t a c) {as : List α} {bs : List β} {cs : List γ}
    (hr : List.Forall₂ r as bs) (hs : List.Forall₂ s bs cs) : List.Forall₂ t as cs := by
  induction hr generalizing cs with
  | nil =>
    cases hs
    exact .nil
  | cons hab _ ih =>
    cases hs with
    | cons hbc hs => exact .cons (h _ _ _ hab hbc) (ih hs)

/-- A list whose elements belong to a front of two lists has a part for each of them. -/
theorem exists_append_of_forall₂_prefix {α β : Type} {r : α → β → Prop} {front as bs : List α}
    {cs : List β} (hfront : front <+: as ++ bs) (h : List.Forall₂ r front cs) :
    ∃ n m cs₁ cs₂, cs = cs₁ ++ cs₂ ∧ List.Forall₂ r (as.take n) cs₁
      ∧ List.Forall₂ r (bs.take m) cs₂ := by
  rw [List.prefix_iff_eq_take.1 hfront, List.take_append] at h
  -- The front is a front of each part, and `cs` is cut at the same place.
  have hflip : List.Forall₂ (flip r) cs
      (as.take front.length ++ bs.take (front.length - as.length)) := List.Forall₂.flip h
  exact ⟨_, _, _, _, (List.take_append_drop _ cs).symm,
    (List.forall₂_take_append _ _ _ hflip).flip, (List.forall₂_drop_append _ _ _ hflip).flip⟩

end ProtoSchema
