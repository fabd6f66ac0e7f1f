import Mathlib.Data.List.Sort
import Mathlib.Data.List.Lex

/-! The first elements of a set, in ascending order of a key.

Two conditions that cut a list down leave the same first elements if they differ only where
enough have been found (`take_filter_eq_iff`). -/
namespace Data
variable {α κ : Type} [LinearOrder κ] {key : α → κ} {P : α → Prop} {l l' : List α}

/-- The list holds what meets `P`, in ascending order. -/
structure Lists (key : α → κ) (P : α → Prop) (l : List α) : Prop where
  ascending : l.Pairwise fun a b => key a < key b
  mem_iff : ∀ a, a ∈ l ↔ P a

theorem Lists.nodup (h : Lists key P l) : l.Nodup :=
  h.ascending.imp fun hlt heq => absurd (heq ▸ hlt) (lt_irrefl _)

theorem Lists.perm (h : Lists key P l) (h' : l'.Nodup) (hmem : ∀ a, a ∈ l' ↔ P a) : l.Perm l' :=
  (List.perm_ext_iff_of_nodup h.nodup h').mpr fun a => (h.mem_iff a).trans (hmem a).symm

theorem Lists.unique (h : Lists key P l) (h' : Lists key P l') : l = l' :=
  (h.perm h'.nodup h'.mem_iff).eq_of_pairwise (fun _ _ _ _ hlt hlt' => absurd (hlt.trans hlt') (lt_irrefl _))
    h.ascending h'.ascending

theorem Lists.filter (h : Lists key P l) (p : α → Bool) :
    Lists key (fun a => P a ∧ p a = true) (l.filter p) where
  ascending := h.ascending.filter p
  mem_iff a := List.mem_filter.trans (and_congr_left' (h.mem_iff a))

/-- Sorting lists what there is, where no key comes twice. -/
theorem lists_sort (hkeys : (l.map key).Nodup) :
    Lists key (· ∈ l) (l.insertionSort fun a b => key a ≤ key b) where
  ascending := by
    have : Std.Total fun a b : α => key a ≤ key b := ⟨fun a b => le_total _ _⟩
    have : IsTrans α fun a b => key a ≤ key b := ⟨fun _ _ _ h h' => h.trans h'⟩
    have hsorted := List.pairwise_insertionSort (fun a b => key a ≤ key b) l
    have hdistinct : (l.insertionSort fun a b => key a ≤ key b).Pairwise fun a b => key a ≠ key b :=
      List.pairwise_map.mp (((List.perm_insertionSort _ l).map key).nodup_iff.mpr hkeys)
    exact hsorted.imp₂ (fun _ _ hle hne => lt_of_le_of_ne hle hne) hdistinct
  mem_iff a := (List.perm_insertionSort _ l).mem_iff

/-- What comes before an element of the list is what is less. -/
theorem Lists.before_eq [DecidableLT κ] {before after : List α} {a : α}
    (h : Lists key P (before ++ a :: after)) :
    before = (before ++ a :: after).filter fun b => decide (key b < key a) := by
  obtain ⟨-, hafter, hcross⟩ := List.pairwise_append.mp h.ascending
  have hbefore : before.filter (fun b => decide (key b < key a)) = before :=
    List.filter_eq_self.mpr fun b hb => decide_eq_true (hcross b hb a (.head _))
  have hnone : (a :: after).filter (fun b => decide (key b < key a)) = [] := by
    refine List.filter_eq_nil_iff.mpr fun b hb hlt => ?_
    rcases List.mem_cons.mp hb with rfl | hb
    · exact lt_irrefl _ (of_decide_eq_true hlt)
    · exact lt_asymm (of_decide_eq_true hlt) (List.rel_of_pairwise_cons hafter hb)
  rw [List.filter_append, hbefore, hnone, List.append_nil]

/-- Of every element, with what comes before it. -/
theorem forall_split_cons {C : List α → α → Prop} (x : α) (rest : List α) :
    (∀ before a after, x :: rest = before ++ a :: after → C before a) ↔
      C [] x ∧ ∀ before a after, rest = before ++ a :: after → C (x :: before) a := by
  constructor
  · intro h
    exact ⟨h [] x rest rfl, fun before a after heq => h (x :: before) a after (congrArg _ heq)⟩
  · intro h before a after heq
    cases before with
    | nil =>
      obtain ⟨rfl, -⟩ := List.cons.inj heq
      exact h.1
    | cons y before =>
      obtain ⟨rfl, hrest⟩ := List.cons.inj heq
      exact h.2 before a after hrest

/-- An element that meets only one of two conditions is first with that one alone. -/
theorem take_filter_ne {p q : α → Bool} {x : α} (hp : p x = true) (hq : q x = false) (rest : List α)
    (n : Nat) : ((x :: rest).filter p).take n = ((x :: rest).filter q).take n ↔ n = 0 := by
  rw [List.filter_cons_of_pos hp, List.filter_cons_of_neg (Bool.eq_false_iff.mp hq)]
  constructor
  · intro h
    cases n with
    | zero => rfl
    | succ n =>
      have hmem : x ∈ (rest.filter q).take (n + 1) := h ▸ List.mem_cons_self
      rw [(List.mem_filter.mp (List.mem_of_mem_take hmem)).2] at hq
      cases hq
  · rintro rfl
    rfl

/-- **When two conditions leave the same first elements**: an element that meets only one of them
comes after enough that meet both. -/
theorem take_filter_eq_iff (l : List α) (p q : α → Bool) (n : Nat) :
    (l.filter p).take n = (l.filter q).take n ↔
      ∀ before a after, l = before ++ a :: after → p a ≠ q a →
        n ≤ (before.filter fun b => p b && q b).length := by
  induction l generalizing n with
  | nil => simp
  | cons x rest ih =>
    refine Iff.trans ?_ (forall_split_cons x rest).symm
    cases hp : p x <;> cases hq : q x
    · rw [List.filter_cons_of_neg (by simp [hp]), List.filter_cons_of_neg (by simp [hq]), ih n]
      simp [hp]
    · rw [eq_comm, take_filter_ne hq hp rest n]
      constructor
      · rintro rfl
        simp
      · exact fun h => Nat.le_zero.mp (h.1 (by simp))
    · rw [take_filter_ne hp hq rest n]
      constructor
      · rintro rfl
        simp
      · exact fun h => Nat.le_zero.mp (h.1 (by simp))
    · rw [List.filter_cons_of_pos hp, List.filter_cons_of_pos hq]
      cases n with
      | zero => simp
      | succ n =>
        rw [List.take_succ_cons, List.take_succ_cons, List.cons_inj_right, ih n]
        simp [hp, hq]

/-- Of a list, with the keys in place of the order. -/
theorem Lists.take_filter_eq_iff [DecidableLT κ] (h : Lists key P l) (p q : α → Bool) (n : Nat) :
    (l.filter p).take n = (l.filter q).take n ↔
      ∀ a, P a → p a ≠ q a →
        n ≤ (l.filter fun b => decide (key b < key a) && (p b && q b)).length := by
  rw [Data.take_filter_eq_iff]
  have hfilter : ∀ (m : List α) (a : α), (m.filter fun b => decide (key b < key a) && (p b && q b)) =
      (m.filter fun b => decide (key b < key a)).filter fun b => p b && q b := by
    intro m a
    rw [List.filter_filter]
    exact List.filter_congr fun b _ => Bool.and_comm _ _
  constructor
  · intro hcut a ha hne
    obtain ⟨before, after, rfl⟩ := List.append_of_mem ((h.mem_iff a).mpr ha)
    rw [hfilter, ← h.before_eq]
    exact hcut before a after rfl hne
  · rintro hall before a after rfl hne
    have hle := hall a ((h.mem_iff a).mp (List.mem_append_right _ (.head _))) hne
    rwa [hfilter, ← h.before_eq] at hle

end Data
