import Mathlib.Data.List.Basic
import RealtimeChat.Data.Trim

/-! Removing what stands between two marks, and trimming.

`remove` does what replacing `<[^>]*>` by nothing does, globally: the first opening mark
with a closing mark after it goes, with everything up to the first closing mark, and the
scan continues behind that. The rest of a text cannot close up to a new span, since what
is kept before a span has no opening mark in it (`span_induction`). -/
namespace Data.Spans

section
variable {α : Type} (opening closing : α)

/-- An opening mark is followed later by a closing one. -/
def HasSpan (s : List α) : Prop := [opening, closing].Sublist s

instance [DecidableEq α] : DecidablePred (HasSpan opening closing) := fun s =>
  inferInstanceAs (Decidable ([opening, closing].Sublist s))

section
variable [DecidableEq α]

/-- From an opening mark on, symbols are held back, latest first: the next closing mark
drops them, and the end lets them through. -/
def scan : Option (List α) → List α → List α
  | none, [] => []
  | some held, [] => held.reverse
  | none, c :: rest => if c = opening then scan (some [c]) rest else c :: scan none rest
  | some held, c :: rest => if c = closing then scan none rest else scan (some (c :: held)) rest

def remove (s : List α) : List α := scan opening closing none s

end

variable {opening closing} {s front rest : List α}

/-! ### Where the spans are -/

theorem hasSpan_cons (c : α) : HasSpan opening closing (c :: rest) ↔
    HasSpan opening closing rest ∨ c = opening ∧ closing ∈ rest := by
  rw [HasSpan, List.sublist_cons_iff, ← HasSpan]
  refine or_congr_right ⟨fun h => ?_, fun h => ?_⟩
  · obtain ⟨r, heq, hr⟩ := h
    cases heq
    exact ⟨rfl, List.singleton_sublist.mp hr⟩
  · obtain ⟨rfl, h⟩ := h
    exact ⟨_, rfl, List.singleton_sublist.mpr h⟩

theorem hasSpan_cons_opening : HasSpan opening closing (opening :: rest) ↔ closing ∈ rest := by
  rw [hasSpan_cons]
  constructor
  · intro h
    rcases h with h | h
    · exact h.subset (.tail _ (.head _))
    · exact h.2
  · exact fun h => .inr ⟨rfl, h⟩

theorem hasSpan_append (h : opening ∉ front) :
    HasSpan opening closing (front ++ rest) ↔ HasSpan opening closing rest := by
  induction front with
  | nil => rfl
  | cons c front ih =>
    rw [List.mem_cons, not_or] at h
    rw [List.cons_append, hasSpan_cons, ih h.2]
    exact or_iff_left fun h' => h.1 h'.1.symm

/-- The first span of a text. -/
theorem HasSpan.split (h : HasSpan opening closing s) : ∃ front inside rest,
    s = front ++ opening :: (inside ++ closing :: rest) ∧ opening ∉ front ∧ closing ∉ inside := by
  obtain ⟨front, later, rfl, hfront⟩ := List.eq_append_cons_of_mem (h.subset (.head _))
  obtain ⟨inside, rest, rfl, hinside⟩ :=
    List.eq_append_cons_of_mem (hasSpan_cons_opening.mp ((hasSpan_append hfront).mp h))
  exact ⟨front, inside, rest, rfl, hfront, hinside⟩

theorem hasSpan_iff_infix : HasSpan opening closing s ↔
    ∃ inside, closing ∉ inside ∧ opening :: (inside ++ [closing]) <:+: s := by
  constructor
  · intro h
    obtain ⟨front, inside, rest, rfl, -, hinside⟩ := h.split
    exact ⟨inside, hinside, front, rest, by simp⟩
  · intro h
    obtain ⟨inside, -, h⟩ := h
    exact List.Sublist.trans (.cons_cons _ (List.sublist_append_right inside _)) h.sublist

variable (opening closing) in
/-- A text without spans, or a first span and what comes after it. -/
theorem span_induction {motive : List α → Prop}
    (plain : ∀ s, ¬ HasSpan opening closing s → motive s)
    (span : ∀ front inside rest, opening ∉ front → closing ∉ inside → motive rest →
      motive (front ++ opening :: (inside ++ closing :: rest))) (s : List α) : motive s := by
  induction hn : s.length using Nat.strongRecOn generalizing s with
  | ind n ih =>
    by_cases h : HasSpan opening closing s
    · obtain ⟨front, inside, rest, rfl, hfront, hinside⟩ := h.split
      refine span front inside rest hfront hinside (ih _ ?_ rest rfl)
      simp only [List.length_append, List.length_cons] at hn
      omega
    · exact plain s h

/-! ### What is removed -/

variable [DecidableEq α]

theorem scan_none_append (h : opening ∉ front) :
    scan opening closing none (front ++ rest) = front ++ scan opening closing none rest := by
  induction front with
  | nil => rfl
  | cons c front ih =>
    rw [List.mem_cons, not_or] at h
    rw [List.cons_append, scan, if_neg (Ne.symm h.1), ih h.2, List.cons_append]

theorem scan_some_append (held : List α) (h : closing ∉ front) :
    scan opening closing (some held) (front ++ rest) =
      scan opening closing (some (front.reverse ++ held)) rest := by
  induction front generalizing held with
  | nil => rfl
  | cons c front ih =>
    rw [List.mem_cons, not_or] at h
    rw [List.cons_append, scan, if_neg (Ne.symm h.1), ih _ h.2, List.reverse_cons, List.append_assoc]
    rfl

theorem remove_span (hfront : opening ∉ front) {inside : List α} (hinside : closing ∉ inside) :
    remove opening closing (front ++ opening :: (inside ++ closing :: rest)) =
      front ++ remove opening closing rest := by
  rw [remove, scan_none_append hfront, scan, if_pos rfl, scan_some_append _ hinside, scan, if_pos rfl,
    remove]

theorem remove_plain (h : ¬ HasSpan opening closing s) : remove opening closing s = s := by
  by_cases hmem : opening ∈ s
  · obtain ⟨front, later, rfl, hfront⟩ := List.eq_append_cons_of_mem hmem
    rw [hasSpan_append hfront, hasSpan_cons_opening] at h
    have hheld : scan opening closing (some [opening]) (later ++ []) =
        scan opening closing (some (later.reverse ++ [opening])) [] := scan_some_append [opening] h
    rw [List.append_nil] at hheld
    rw [remove, scan_none_append hfront, scan, if_pos rfl, hheld, scan, List.reverse_append,
      List.reverse_reverse]
    rfl
  · have hpass : scan opening closing none (s ++ []) = s ++ scan opening closing none [] :=
      scan_none_append hmem
    rwa [List.append_nil, scan, List.append_nil] at hpass

theorem remove_sublist (s : List α) : (remove opening closing s).Sublist s := by
  induction s using span_induction opening closing with
  | plain s h =>
    rw [remove_plain h]
  | span front inside rest hfront hinside ih =>
    rw [remove_span hfront hinside]
    exact (List.Sublist.refl front).append
      (((ih.cons _).trans (List.sublist_append_right inside _)).cons _)

/-- No span is left, and none is formed. -/
theorem not_hasSpan_remove (s : List α) :
    ¬ HasSpan opening closing (remove opening closing s) := by
  induction s using span_induction opening closing with
  | plain s h => rwa [remove_plain h]
  | span front inside rest hfront hinside ih =>
    rwa [remove_span hfront hinside, hasSpan_append hfront]

/-- A span takes an opening mark with it. -/
theorem count_remove_lt (h : HasSpan opening closing s) :
    (remove opening closing s).count opening < s.count opening := by
  obtain ⟨front, inside, rest, rfl, hfront, hinside⟩ := h.split
  have hrest : (remove opening closing rest).count opening ≤ rest.count opening :=
    (remove_sublist rest).count_le opening
  rw [remove_span hfront hinside]
  simp only [List.count_append, List.count_cons_self, List.count_cons]
  omega

/-- Symbols spelled out in another alphabet, the marks by one symbol each that stands for
nothing else. -/
theorem remove_flatMap {β : Type} [DecidableEq β] {opening' closing' : β} {f : α → List β}
    (hopening : f opening = [opening']) (hclosing : f closing = [closing'])
    (hopening' : ∀ c, c ≠ opening → opening' ∉ f c) (hclosing' : ∀ c, c ≠ closing → closing' ∉ f c)
    (s : List α) :
    remove opening' closing' (s.flatMap f) = (remove opening closing s).flatMap f := by
  have hheld : ∀ held s, scan opening' closing' (some (held.reverse.flatMap f).reverse)
      (s.flatMap f) = (scan opening closing (some held) s).flatMap f ∧
        scan opening' closing' none (s.flatMap f) = (scan opening closing none s).flatMap f := by
    intro held s
    induction s generalizing held with
    | nil => simp [scan]
    | cons c rest ih =>
      rw [List.flatMap_cons]
      refine ⟨?_, ?_⟩
      · by_cases hc : c = closing
        · rw [hc, hclosing, List.singleton_append, scan, if_pos rfl, scan, if_pos rfl]
          exact (ih []).2
        · rw [scan_some_append _ (hclosing' c hc), scan, if_neg hc, ← (ih (c :: held)).1]
          simp
      · by_cases hc : c = opening
        · rw [hc, hopening, List.singleton_append, scan, if_pos rfl, scan, if_pos rfl,
            ← (ih [opening]).1]
          simp [hopening]
        · rw [scan_none_append (hopening' c hc), scan, if_neg hc, (ih []).2, List.flatMap_cons]
  exact (hheld [] s).2

end

/-! ### Removing and trimming -/

section
variable {α : Type} [DecidableEq α] {opening closing : α} {space : α → Bool} {s : List α}

def strip (opening closing : α) (space : α → Bool) (s : List α) : List α :=
  trimBy space (remove opening closing s)

theorem strip_sublist (s : List α) : (strip opening closing space s).Sublist s :=
  (trimBy_sublist _).trans (remove_sublist s)

theorem not_hasSpan_strip (s : List α) : ¬ HasSpan opening closing (strip opening closing space s) :=
  fun h => not_hasSpan_remove s (h.trans (trimBy_sublist _))

theorem strip_plain (h : ¬ HasSpan opening closing s) :
    strip opening closing space s = trimBy space s := by
  rw [strip, remove_plain h]

@[simp] theorem strip_strip (s : List α) : strip opening closing space (strip opening closing space s) =
    strip opening closing space s := by
  rw [strip_plain (not_hasSpan_strip s), strip, trimBy_trimBy]

/-- A text comes out as it went in, trimmed, exactly if it has no span. -/
theorem strip_eq_trimBy_iff (hspace : space opening = false) :
    strip opening closing space s = trimBy space s ↔ ¬ HasSpan opening closing s := by
  refine ⟨fun h hspan => ?_, strip_plain⟩
  have hcount := congrArg (List.count opening) h
  rw [strip, count_trimBy hspace, count_trimBy hspace] at hcount
  exact Nat.ne_of_lt (count_remove_lt hspan) hcount

end
end Data.Spans
