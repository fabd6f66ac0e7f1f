import Mathlib.Data.List.DropRight
import Mathlib.Tactic.Common

/-! Trimming: dropping some symbols at both ends of a text. -/
namespace Data

section
variable {α : Type} {space : α → Bool} {s : List α}

def trimBy (space : α → Bool) (s : List α) : List α := (s.dropWhile space).rdropWhile space

theorem trimBy_sublist (s : List α) : (trimBy space s).Sublist s :=
  (List.rdropWhile_prefix _ _).sublist.trans (List.dropWhile_suffix _).sublist

/-- What has been trimmed begins with no space, unless it is empty. -/
theorem dropWhile_trimBy (s : List α) : (trimBy space s).dropWhile space = trimBy space s := by
  unfold trimBy
  generalize hl : s.dropWhile space = l
  have hself : l.dropWhile space = l := by rw [← hl, List.dropWhile_idempotent]
  rw [List.dropWhile_eq_self_iff] at hself ⊢
  intro hpos
  have hprefix := List.rdropWhile_prefix space l
  rw [List.IsPrefix.getElem hprefix hpos]
  exact hself (Nat.lt_of_lt_of_le hpos hprefix.length_le)

@[simp] theorem trimBy_trimBy (s : List α) : trimBy space (trimBy space s) = trimBy space s := by
  rw [trimBy, dropWhile_trimBy, trimBy, List.rdropWhile_idempotent]

theorem head_trimBy {c : α} (h : (trimBy space s).head? = some c) : space c = false := by
  have hfirst := List.head?_dropWhile_not space (trimBy space s)
  rw [dropWhile_trimBy, h] at hfirst
  exact hfirst

theorem getLast_trimBy {c : α} (h : (trimBy space s).getLast? = some c) : space c = false := by
  obtain ⟨hne, rfl⟩ := List.mem_getLast?_eq_getLast h
  exact Bool.eq_false_iff.mpr (List.rdropWhile_last_not space _ hne)

/-- Only spaces are dropped. -/
theorem count_trimBy [DecidableEq α] {a : α} (h : space a = false) (s : List α) :
    (trimBy space s).count a = s.count a := by
  have hdrop : ∀ l : List α, (l.dropWhile space).count a = l.count a := by
    intro l
    induction l with
    | nil => rfl
    | cons c rest ih =>
      by_cases hc : space c = true
      · rw [List.dropWhile_cons_of_pos hc, ih, List.count_cons_of_ne]
        rintro rfl
        rw [h] at hc
        cases hc
      · rw [List.dropWhile_cons_of_neg hc]
  rw [trimBy, List.rdropWhile, List.count_reverse, hdrop, List.count_reverse, hdrop]

/-- Symbols spelled out in another alphabet, spaces and others apart. -/
theorem trimBy_flatMap {β : Type} {space' : β → Bool} {f : α → List β}
    (hf : ∀ c, ∀ x ∈ f c, space' x = space c) (hne : ∀ c, f c ≠ []) (s : List α) :
    trimBy space' (s.flatMap f) = (trimBy space s).flatMap f := by
  have hdrop : ∀ {g : α → List β}, (∀ c, ∀ x ∈ g c, space' x = space c) → (∀ c, g c ≠ []) →
      ∀ l : List α, (l.flatMap g).dropWhile space' = (l.dropWhile space).flatMap g := by
    intro g hg hne l
    induction l with
    | nil => rfl
    | cons c rest ih =>
      rw [List.flatMap_cons]
      by_cases hc : space c = true
      · rw [List.dropWhile_append_of_pos fun x hx => (hg c x hx).trans hc, ih,
          List.dropWhile_cons_of_pos hc]
      · rw [List.dropWhile_cons_of_neg hc, List.flatMap_cons]
        obtain ⟨x, l, hl⟩ := List.exists_cons_of_ne_nil (hne c)
        have hx : ¬ space' x = true := by rwa [hg c x (hl ▸ .head _)]
        rw [hl, List.cons_append, List.dropWhile_cons_of_neg hx]
  -- The end is the beginning of the reversed text.
  rw [trimBy, trimBy, hdrop hf hne, List.rdropWhile, List.rdropWhile, List.reverse_flatMap,
    hdrop (g := List.reverse ∘ f) (fun c x hx => hf c x (List.mem_reverse.mp hx))
      fun c => List.reverse_ne_nil_iff.mpr (hne c),
    List.flatMap_reverse]

end
end Data
