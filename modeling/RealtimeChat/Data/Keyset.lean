import Mathlib.Data.List.Sort
import Mathlib.Data.List.Perm.Basic
import Mathlib.Data.List.Perm.Subperm

/-! Sorting by a key, latest first, and walking a sorted list page by page.

A page is cut from what lies strictly below the last key of the page before. Where
a page ends between two elements with equal keys, those beyond the cut are lost;
nothing else is, and nothing comes twice (`Descending.walk_perm_iff`). -/
namespace Data

/-- A way to sort by descending key. Which of two elements with equal keys comes
first is its own business. -/
structure Descending (α : Type) (key : α → Nat) where
  sort : List α → List α
  perm : ∀ l, (sort l).Perm l
  ordered : ∀ l, (sort l).Pairwise fun a b => key b ≤ key a

/-- Elements with equal keys stay in order. -/
def Descending.stable (α : Type) (key : α → Nat) : Descending α key where
  sort := List.insertionSort fun a b => key b ≤ key a
  perm := List.perm_insertionSort _
  ordered l := by
    have : Std.Total fun a b : α => key b ≤ key a := ⟨fun a b => Nat.le_total _ _⟩
    have : IsTrans α fun a b => key b ≤ key a := ⟨fun _ _ _ h h' => Nat.le_trans h' h⟩
    exact List.pairwise_insertionSort _ l

/-- The values, largest first. -/
def latestFirst (values : List Nat) : List Nat := values.insertionSort (· ≥ ·)

theorem latestFirst_eq {values sorted : List Nat} (hperm : values.Perm sorted)
    (hsorted : sorted.Pairwise (· ≥ ·)) : latestFirst values = sorted := by
  have : Std.Total fun a b : Nat => a ≥ b := ⟨fun a b => Nat.le_total b a⟩
  have : IsTrans Nat fun a b => a ≥ b := ⟨fun _ _ _ h h' => Nat.le_trans h' h⟩
  apply List.Perm.eq_of_pairwise (fun a b _ _ h h' => Nat.le_antisymm h' h)
  · exact List.pairwise_insertionSort _ _
  · exact hsorted
  · exact (List.perm_insertionSort _ _).trans hperm

/-- Where a page of `size` ends and another follows, the value changes. -/
def Untied (size : Nat) (values : List Nat) : Prop :=
  ∀ k, 0 < k → k * size < values.length → values[k * size - 1]? ≠ values[k * size]?

theorem untied_of_length_le {size : Nat} {values : List Nat} (h : values.length ≤ size) :
    Untied size values := by
  intro k hk hlt
  have : size ≤ k * size := Nat.le_mul_of_pos_left size hk
  omega

/-- The first page's end, and all later ones. -/
theorem untied_iff_drop {size : Nat} {values : List Nat} (hsize : 0 < size)
    (h : size < values.length) : Untied size values ↔
      values[size - 1]? ≠ values[size]? ∧ Untied size (values.drop size) := by
  constructor
  · intro hu
    refine ⟨by simpa using hu 1 Nat.one_pos (by simpa using h), fun k hk hlt => ?_⟩
    rw [List.length_drop] at hlt
    have hnext := hu (k + 1) (Nat.succ_pos k) (by rw [Nat.succ_mul]; omega)
    have hpos : 0 < k * size := Nat.mul_pos hk hsize
    rw [List.getElem?_drop, List.getElem?_drop]
    rw [Nat.succ_mul] at hnext
    rwa [show size + (k * size - 1) = k * size + size - 1 by omega, Nat.add_comm size]
  · intro h' k hk hlt
    obtain ⟨hfirst, hu⟩ := h'
    obtain ⟨k, rfl⟩ : ∃ j, k = j + 1 := ⟨k - 1, by omega⟩
    rw [Nat.succ_mul] at hlt ⊢
    cases Nat.eq_zero_or_pos k with
    | inl hzero =>
      subst hzero
      simpa using hfirst
    | inr hpos =>
      have hlater := hu k hpos (by rw [List.length_drop]; omega)
      have hpos : 0 < k * size := Nat.mul_pos hpos hsize
      rw [List.getElem?_drop, List.getElem?_drop] at hlater
      rwa [show size + (k * size - 1) = k * size + size - 1 by omega, Nat.add_comm size] at hlater

namespace Descending
variable {α : Type} {key : α → Nat} (D : Descending α key)

/-- Whatever it does with equal keys, the keys come in one order only. -/
theorem map_key (l : List α) : (D.sort l).map key = latestFirst (l.map key) :=
  (latestFirst_eq ((D.perm l).map key).symm (List.pairwise_map.mpr (D.ordered l))).symm

/-- Page after page of `size` elements, each from below the last key of the one before,
until a page is the last. `none` if that takes more than `fuel` pages. -/
def walk (size : Nat) : Nat → List α → Option (List α)
  | 0, _ => none
  | fuel + 1, l =>
    let found := D.sort l
    if size < found.length then
      match (found.take size).getLast? with
      | some last => (walk size fuel (l.filter fun a => decide (key a < key last))).map
          (found.take size ++ ·)
      | none => none
    else some found

/-- A page that is not the last: it ends with `last`, and `back` is what it leaves. -/
structure Cut (size : Nat) (l front : List α) (last : α) (back : List α) : Prop where
  sort : D.sort l = (front ++ [last]) ++ back
  length : (front ++ [last]).length = size
  page : ∀ a ∈ front ++ [last], key last ≤ key a
  left : ∀ a ∈ back, key a ≤ key last

variable {D} {size : Nat}

theorem exists_cut (hsize : 0 < size) {l : List α} (h : size < (D.sort l).length) :
    ∃ front last back, D.Cut size l front last back := by
  have hlength : ((D.sort l).take size).length = size := by
    rw [List.length_take]
    omega
  rcases List.eq_nil_or_concat ((D.sort l).take size) with hnil | ⟨front, last, hpage⟩
  · rw [hnil, List.length_nil] at hlength
    omega
  · have hsort : D.sort l = (front ++ [last]) ++ (D.sort l).drop size := by
      rw [← List.concat_eq_append, ← hpage, List.take_append_drop]
    refine ⟨front, last, (D.sort l).drop size, hsort, ?_, ?_, ?_⟩
    · rw [← List.concat_eq_append, ← hpage, hlength]
    · intro a ha
      have hordered := D.ordered l
      rw [hsort, List.append_assoc, List.pairwise_append] at hordered
      rcases List.mem_append.mp ha with ha | ha
      · exact hordered.2.2 a ha last (by simp)
      · rw [List.mem_singleton.mp ha]
    · intro a ha
      have hordered := D.ordered l
      rw [hsort, List.pairwise_append] at hordered
      exact hordered.2.2 last (by simp) a ha

namespace Cut
variable {l front back : List α} {last : α} (h : D.Cut size l front last back)

include h

theorem walk (fuel : Nat) (hlt : size < (D.sort l).length) : D.walk size (fuel + 1) l =
    (D.walk size fuel (l.filter fun a => decide (key a < key last))).map ((front ++ [last]) ++ ·) := by
  have htake : (D.sort l).take size = front ++ [last] := by
    rw [h.sort, ← h.length, List.take_left]
  simp only [Descending.walk, hlt, htake, if_true, List.getLast?_append, List.getLast?_singleton,
    Option.some_or]

/-- What is below the cursor all lies beyond the page. -/
theorem rest : (l.filter fun a => decide (key a < key last)).Perm
    (back.filter fun a => decide (key a < key last)) := by
  have hpage : (front ++ [last]).filter (fun a => decide (key a < key last)) = [] := by
    apply List.filter_eq_nil_iff.mpr
    intro a ha
    simpa using h.page a ha
  have hsorted := ((D.perm l).filter fun a => decide (key a < key last)).symm
  rwa [h.sort, List.filter_append, hpage, List.nil_append] at hsorted

theorem length_rest : (l.filter fun a => decide (key a < key last)).length < l.length := by
  rw [h.rest.length_eq, ← (D.perm l).length_eq, h.sort, List.length_append]
  have hle := List.length_filter_le (fun a => decide (key a < key last)) back
  have : 0 < (front ++ [last]).length := by simp
  omega

theorem values : latestFirst (l.map key) = (front ++ [last]).map key ++ back.map key := by
  rw [← D.map_key, h.sort, List.map_append]

theorem values_last : (latestFirst (l.map key))[size - 1]? = some (key last) := by
  rw [h.values, ← h.length, List.getElem?_append_left (by simp), List.map_append,
    List.length_append, List.length_singleton, Nat.add_sub_cancel, List.getElem?_append_right (by simp)]
  simp

theorem values_next : (latestFirst (l.map key))[size]? = (back.map key)[0]? := by
  rw [h.values, List.getElem?_append_right (by rw [List.length_map, h.length]), List.length_map,
    h.length, Nat.sub_self]

theorem ordered_back : back.Pairwise fun a b => key b ≤ key a := by
  have hordered := D.ordered l
  rw [h.sort, List.pairwise_append] at hordered
  exact hordered.2.1

/-- If the value changes at the cut, nothing is lost there. -/
theorem all_below (hne : some (key last) ≠ (back.map key)[0]?) :
    ∀ a ∈ back, key a < key last := by
  have hordered := h.ordered_back
  have hleft := h.left
  cases back with
  | nil => simp
  | cons b rest =>
    have hb : key b < key last := by
      refine Nat.lt_of_le_of_ne (hleft b List.mem_cons_self) fun heq => hne ?_
      simp [heq]
    intro a ha
    rcases List.mem_cons.mp ha with rfl | ha
    · exact hb
    · exact Nat.lt_of_le_of_lt ((List.pairwise_cons.mp hordered).1 a ha) hb

end Cut

theorem walk_last {l : List α} (fuel : Nat) (h : ¬ size < (D.sort l).length) :
    D.walk size (fuel + 1) l = some (D.sort l) := by
  simp only [walk, h, if_false]

/-- The walk comes to an end. -/
theorem exists_walk (hsize : 0 < size) {fuel : Nat} {l : List α} (h : l.length < fuel) :
    ∃ out, D.walk size fuel l = some out := by
  induction fuel generalizing l with
  | zero => exact absurd h (Nat.not_lt_zero _)
  | succ fuel ih =>
    by_cases hmore : size < (D.sort l).length
    · obtain ⟨front, last, back, hcut⟩ := exists_cut hsize hmore
      obtain ⟨out, hout⟩ := ih (Nat.lt_of_lt_of_le hcut.length_rest (Nat.le_of_lt_succ h))
      rw [hcut.walk fuel hmore, hout]
      exact ⟨_, rfl⟩
    · exact ⟨_, walk_last fuel hmore⟩

/-- What is returned is part of the list, and latest first. -/
theorem walk_ordered (hsize : 0 < size) {fuel : Nat} {l out : List α}
    (h : D.walk size fuel l = some out) :
    out.Subperm l ∧ out.Pairwise fun a b => key b ≤ key a := by
  induction fuel generalizing l out with
  | zero => cases h
  | succ fuel ih =>
    by_cases hmore : size < (D.sort l).length
    · obtain ⟨front, last, back, hcut⟩ := exists_cut hsize hmore
      rw [hcut.walk fuel hmore] at h
      obtain ⟨rest, hrest, rfl⟩ := Option.map_eq_some_iff.mp h
      obtain ⟨hpart, hordered⟩ := ih hrest
      have hbelow : ∀ a ∈ rest, key a < key last := by
        intro a ha
        have hmem := hpart.subset ha
        simpa using (List.mem_filter.mp hmem).2
      constructor
      · have hpage : ((front ++ [last]) ++ rest).Subperm ((front ++ [last]) ++ back) := by
          refine (List.subperm_append_left _).mpr (hpart.trans ?_)
          exact hcut.rest.subperm.trans List.filter_sublist.subperm
        rw [← hcut.sort] at hpage
        exact hpage.trans (D.perm l).subperm
      · refine List.pairwise_append.mpr ⟨?_, hordered, fun a ha b hb => ?_⟩
        · have hsorted := D.ordered l
          rw [hcut.sort] at hsorted
          exact (List.pairwise_append.mp hsorted).1
        · exact Nat.le_of_lt (Nat.lt_of_lt_of_le (hbelow b hb) (hcut.page a ha))
    · rw [walk_last fuel hmore] at h
      obtain rfl := Option.some.inj h
      exact ⟨(D.perm l).subperm, D.ordered l⟩

/-- **A walk is complete** exactly if the key changes at every page's end. -/
theorem walk_perm_iff (hsize : 0 < size) {fuel : Nat} {l out : List α}
    (h : D.walk size fuel l = some out) :
    out.Perm l ↔ Untied size (latestFirst (l.map key)) := by
  have hlength : ∀ l : List α, (latestFirst (l.map key)).length = l.length := fun l => by
    rw [← D.map_key, List.length_map, (D.perm l).length_eq]
  induction fuel generalizing l out with
  | zero => cases h
  | succ fuel ih =>
    by_cases hmore : size < (D.sort l).length
    · obtain ⟨front, last, back, hcut⟩ := exists_cut hsize hmore
      rw [hcut.walk fuel hmore] at h
      obtain ⟨rest, hrest, rfl⟩ := Option.map_eq_some_iff.mp h
      have hlong : size < (latestFirst (l.map key)).length := by
        rw [hlength, ← (D.perm l).length_eq]
        exact hmore
      rw [untied_iff_drop hsize hlong, hcut.values_last, hcut.values_next]
      have hwhole : ((front ++ [last]) ++ back).Perm l := hcut.sort ▸ D.perm l
      have hdrop : (latestFirst (l.map key)).drop size = back.map key := by
        rw [hcut.values, ← hcut.length, ← List.length_map key, List.drop_left]
      by_cases htied : some (key last) = (back.map key)[0]?
      · -- The cut goes through equal keys: the first one beyond it is lost.
        refine iff_of_false (fun hperm => ?_) fun hu => hu.1 htied
        have hrestPerm : rest.Perm back := by
          exact (List.perm_append_left_iff _).mp (hperm.trans hwhole.symm)
        obtain ⟨b, hb⟩ : ∃ b, back[0]? = some b := by
          rw [List.getElem?_map] at htied
          cases hb : back[0]? with
          | none => simp [hb] at htied
          | some b => exact ⟨b, rfl⟩
        have hkey : key b = key last := by
          rw [List.getElem?_map, hb] at htied
          exact (Option.some.inj htied).symm
        have hmem := (walk_ordered hsize hrest).1.subset
          (hrestPerm.mem_iff.mpr (List.mem_of_getElem? hb))
        have hlt : key b < key last := by simpa using (List.mem_filter.mp hmem).2
        omega
      · have hbelow : back.filter (fun a => decide (key a < key last)) = back := by
          apply List.filter_eq_self.mpr
          intro a ha
          simpa using hcut.all_below htied a ha
        have hback := hcut.rest
        rw [hbelow] at hback
        have hvalues : latestFirst ((l.filter fun a => decide (key a < key last)).map key) =
            (latestFirst (l.map key)).drop size := by
          rw [hdrop]
          exact latestFirst_eq (hback.map key) (List.pairwise_map.mpr hcut.ordered_back)
        rw [and_iff_right htied, ← hvalues]
        refine Iff.trans ?_ (ih hrest)
        constructor
        · intro hperm
          exact ((List.perm_append_left_iff _).mp (hperm.trans hwhole.symm)).trans hback.symm
        · intro hperm
          exact ((hperm.trans hback).append_left _).trans hwhole
    · rw [walk_last fuel hmore] at h
      obtain rfl := Option.some.inj h
      refine iff_of_true (D.perm l) (untied_of_length_le ?_)
      rw [hlength, ← (D.perm l).length_eq]
      exact Nat.le_of_not_lt hmore

/-! ### Page by page -/

section Pages

/-- The pages of a walk. -/
def pages (D : Descending α key) (size : Nat) : Nat → List α → Option (List (List α))
  | 0, _ => none
  | fuel + 1, l =>
    let found := D.sort l
    if size < found.length then
      match (found.take size).getLast? with
      | some last => (pages D size fuel (l.filter fun a => decide (key a < key last))).map
          (found.take size :: ·)
      | none => none
    else some [found]

/-- The last elements of the pages that others follow. -/
def ends : List (List α) → List α
  | [] => []
  | [_] => []
  | page :: rest => page.getLast?.toList ++ ends rest

theorem ends_cons {page : List α} {rest : List (List α)} (h : rest ≠ []) :
    ends (page :: rest) = page.getLast?.toList ++ ends rest := by
  cases rest with
  | nil => exact absurd rfl h
  | cons next rest => rfl

theorem Cut.pages {l front back : List α} {last : α} (h : D.Cut size l front last back)
    (fuel : Nat) (hlt : size < (D.sort l).length) : D.pages size (fuel + 1) l =
      (D.pages size fuel (l.filter fun a => decide (key a < key last))).map
        ((front ++ [last]) :: ·) := by
  have htake : (D.sort l).take size = front ++ [last] := by
    rw [h.sort, ← h.length, List.take_left]
  simp only [Descending.pages, hlt, htake, if_true, List.getLast?_append, List.getLast?_singleton,
    Option.some_or]

theorem pages_last {l : List α} (fuel : Nat) (h : ¬ size < (D.sort l).length) :
    D.pages size (fuel + 1) l = some [D.sort l] := by
  simp only [pages, h, if_false]

/-- A page takes `size` elements off what is left. -/
theorem Cut.length_rest_le {l front back : List α} {last : α} (h : D.Cut size l front last back) :
    (l.filter fun a => decide (key a < key last)).length + size ≤ l.length := by
  rw [h.rest.length_eq, ← (D.perm l).length_eq, h.sort, List.length_append, h.length]
  have hle := List.length_filter_le (fun a => decide (key a < key last)) back
  omega

/-- One page more than the elements fill is enough. -/
theorem exists_pages (hsize : 0 < size) {fuel : Nat} {l : List α} (h : l.length / size < fuel) :
    ∃ out, D.pages size fuel l = some out := by
  induction fuel generalizing l with
  | zero => exact absurd h (Nat.not_lt_zero _)
  | succ fuel ih =>
    by_cases hmore : size < (D.sort l).length
    · obtain ⟨front, last, back, hcut⟩ := exists_cut hsize hmore
      have hlt : (l.filter fun a => decide (key a < key last)).length / size < fuel := by
        have hle : (l.filter fun a => decide (key a < key last)).length / size + 1 ≤
            l.length / size := by
          rw [← Nat.add_div_right _ hsize]
          exact Nat.div_le_div_right hcut.length_rest_le
        omega
      obtain ⟨out, hout⟩ := ih hlt
      rw [hcut.pages fuel hmore, hout]
      exact ⟨_, rfl⟩
    · exact ⟨_, pages_last fuel hmore⟩

/-- By induction on the pages: the last one, or a cut and the pages below it. -/
@[elab_as_elim] theorem pages_induction (hsize : 0 < size)
    {motive : (fuel : Nat) → (l : List α) → (out : List (List α)) →
      D.pages size fuel l = some out → Prop}
    (last : ∀ fuel l h (_ : ¬ size < (D.sort l).length), motive (fuel + 1) l [D.sort l] h)
    (cut : ∀ fuel l front last back rest h (_ : D.Cut size l front last back)
      (_ : size < (D.sort l).length)
      (hrest : D.pages size fuel (l.filter fun a => decide (key a < key last)) = some rest),
      motive fuel (l.filter fun a => decide (key a < key last)) rest hrest →
      motive (fuel + 1) l ((front ++ [last]) :: rest) h)
    {fuel : Nat} {l : List α} {out : List (List α)} (h : D.pages size fuel l = some out) :
    motive fuel l out h := by
  induction fuel generalizing l out with
  | zero => cases h
  | succ fuel ih =>
    by_cases hmore : size < (D.sort l).length
    · obtain ⟨front, a, back, hcut⟩ := exists_cut hsize hmore
      have heq := h
      rw [hcut.pages fuel hmore] at heq
      obtain ⟨rest, hrest, rfl⟩ := Option.map_eq_some_iff.mp heq
      exact cut fuel l front a back rest h hcut hmore hrest (ih hrest)
    · have heq := h
      rw [pages_last fuel hmore] at heq
      obtain rfl := Option.some.inj heq
      exact last fuel l h hmore

variable {fuel : Nat} {l : List α} {out : List (List α)}

theorem pages_ne_nil (hsize : 0 < size) (h : D.pages size fuel l = some out) : out ≠ [] := by
  induction h using pages_induction hsize with
  | last fuel l h hlast => simp
  | cut fuel l front last back rest h hcut hmore hrest ih => simp

/-- The pages are cut from the list. -/
theorem mem_of_pages (hsize : 0 < size) (h : D.pages size fuel l = some out) :
    ∀ page ∈ out, ∀ a ∈ page, a ∈ l := by
  induction h using pages_induction hsize with
  | last fuel l h hlast =>
    intro page hpage a ha
    obtain rfl := List.mem_singleton.mp hpage
    exact (D.perm l).mem_iff.mp ha
  | cut fuel l front last back rest h hcut hmore hrest ih =>
    intro page hpage a ha
    rcases List.mem_cons.mp hpage with rfl | hpage
    · apply (D.perm l).mem_iff.mp
      rw [hcut.sort]
      exact List.mem_append_left back ha
    · exact (List.mem_filter.mp (ih page hpage a ha)).1

/-- Every later page is below every earlier one. -/
theorem pages_ordered (hsize : 0 < size) (h : D.pages size fuel l = some out) :
    out.Pairwise fun p q => ∀ a ∈ p, ∀ b ∈ q, key b < key a := by
  induction h using pages_induction hsize with
  | last fuel l h hlast => exact List.pairwise_singleton _ _
  | cut fuel l front last back rest h hcut hmore hrest ih =>
    refine List.pairwise_cons.mpr ⟨fun q hq a ha b hb => ?_, ih⟩
    have hbelow := (List.mem_filter.mp (mem_of_pages hsize hrest q hq b hb)).2
    exact Nat.lt_of_lt_of_le (of_decide_eq_true hbelow) (hcut.page a ha)

theorem mem_of_ends {a : α} (h : a ∈ ends out) : ∃ page ∈ out, a ∈ page := by
  induction out with
  | nil => cases h
  | cons page rest ih =>
    cases rest with
    | nil => cases h
    | cons next rest =>
      rw [ends_cons (List.cons_ne_nil _ _), List.mem_append, Option.mem_toList] at h
      rcases h with hlast | hrest
      · exact ⟨page, List.mem_cons_self, List.mem_of_getLast? hlast⟩
      · obtain ⟨q, hq, ha⟩ := ih hrest
        exact ⟨q, List.mem_cons_of_mem _ hq, ha⟩

/-- The ends of the pages get lower and lower. -/
theorem ends_decreasing (h : out.Pairwise fun p q => ∀ a ∈ p, ∀ b ∈ q, key b < key a) :
    (ends out).Pairwise fun a b => key b < key a := by
  induction out with
  | nil => exact .nil
  | cons page rest ih =>
    cases rest with
    | nil => exact .nil
    | cons next rest =>
      obtain ⟨hpage, hrest⟩ := List.pairwise_cons.mp h
      rw [ends_cons (List.cons_ne_nil _ _)]
      cases hlast : page.getLast? with
      | none => exact ih hrest
      | some last =>
        refine List.pairwise_cons.mpr ⟨fun b hb => ?_, ih hrest⟩
        obtain ⟨q, hq, hbq⟩ := mem_of_ends hb
        exact hpage q hq last (List.mem_of_getLast? hlast) b hbq

/-- **Nothing is left out** but what has the key of a page's end. -/
theorem pages_complete (hsize : 0 < size) (h : D.pages size fuel l = some out) {a : α}
    (ha : a ∈ l) : (∃ page ∈ out, a ∈ page) ∨ ∃ b ∈ ends out, key a = key b := by
  induction h using pages_induction hsize with
  | last fuel l h hlast => exact .inl ⟨_, List.mem_singleton_self _, (D.perm l).mem_iff.mpr ha⟩
  | cut fuel l front last back rest h hcut hmore hrest ih =>
    have hends : ends ((front ++ [last]) :: rest) = last :: ends rest := by
      rw [ends_cons (pages_ne_nil hsize hrest), List.getLast?_append, List.getLast?_singleton]
      rfl
    rw [hends]
    have hmem : a ∈ (front ++ [last]) ++ back := by
      rw [← hcut.sort]
      exact (D.perm l).mem_iff.mpr ha
    rcases List.mem_append.mp hmem with hpage | hback
    · exact .inl ⟨_, List.mem_cons_self, hpage⟩
    · rcases Nat.lt_or_eq_of_le (hcut.left a hback) with hlt | heq
      · rcases ih (List.mem_filter.mpr ⟨ha, decide_eq_true hlt⟩) with ⟨page, hpage, hin⟩ | ⟨b, hb, heq⟩
        · exact .inl ⟨page, List.mem_cons_of_mem _ hpage, hin⟩
        · exact .inr ⟨b, List.mem_cons_of_mem _ hb, heq⟩
      · exact .inr ⟨last, List.mem_cons_self, heq⟩

end Pages

end Descending

end Data
