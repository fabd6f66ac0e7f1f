import RealtimeChat.Data.Keyset

/-! Moving the element that was touched last to the front.

A list that is sorted by time, latest first, stays sorted if the element that gets the
latest time of all is moved to its front. So a list that is kept in this way, touch by
touch, is the one that sorting all elements anew would give (`sort_touched`). -/
namespace Data
variable {α β κ : Type}

/-- The first element that satisfies `p` is updated, taken out of its place and put first. -/
def toFront (p : α → Bool) (f : α → α) (l : List α) : List α :=
  match l.findFinIdx? p with
  | none => l
  | some idx => f l[idx] :: l.eraseIdx idx

theorem toFront_eq (p : α → Bool) (f : α → α) (l : List α) :
    toFront p f l = match l.find? p with
      | none => l
      | some a => f a :: l.eraseP p := by
  unfold toFront
  cases h : l.findFinIdx? p with
  | none =>
    rw [List.find?_eq_none.mpr fun a ha => by simpa using List.findFinIdx?_eq_none_iff.mp h a ha]
  | some idx =>
    obtain ⟨hp, hfirst⟩ := List.findFinIdx?_eq_some_iff.mp h
    have hidx : l.findIdx? p = some idx.val :=
      List.findIdx?_eq_some_iff_getElem.mpr ⟨idx.isLt, hp, fun j hj => by
        simpa using hfirst ⟨j, hj.trans idx.isLt⟩ hj⟩
    have hfind : l.find? p = some l[idx] :=
      List.find?_eq_some_iff_getElem.mpr ⟨hp, idx, idx.isLt, rfl, fun j hj => by
        simpa using hfirst ⟨j, hj.trans idx.isLt⟩ hj⟩
    rw [hfind, List.eraseP_eq_eraseIdx, hidx]

/-- Nothing satisfies `p`, or the first element that does goes to the front. -/
theorem toFront_cases (p : α → Bool) (f : α → α) (l : List α) :
    (∀ a ∈ l, p a = false) ∧ toFront p f l = l ∨
      ∃ front a back, l = front ++ a :: back ∧ p a = true ∧
        toFront p f l = f a :: (front ++ back) := by
  rw [toFront_eq]
  cases h : l.find? p with
  | none => exact .inl ⟨fun a ha => by simpa using List.find?_eq_none.mp h a ha, rfl⟩
  | some a =>
    obtain ⟨hp, front, back, rfl, hfront⟩ := List.find?_eq_some_iff_append.mp h
    refine .inr ⟨front, a, back, rfl, hp, ?_⟩
    rw [List.eraseP_append_right _ (fun b hb => by simpa using hfront b hb),
      List.eraseP_cons_of_pos hp]

theorem mem_toFront {p : α → Bool} {f : α → α} {l : List α} {b : α} (h : b ∈ toFront p f l) :
    b ∈ l ∨ ∃ a ∈ l, b = f a := by
  rcases toFront_cases p f l with ⟨-, hsame⟩ | ⟨front, a, back, rfl, -, hmoved⟩
  · exact .inl (hsame ▸ h)
  · rw [hmoved, List.mem_cons] at h
    rcases h with rfl | h
    · exact .inr ⟨a, List.mem_append_right _ List.mem_cons_self, rfl⟩
    · exact .inl (((List.sublist_cons_self a back).append_left front).subset h)

/-- Two lists that look alike, updated alike. -/
theorem map_toFront {p : α → Bool} {f : α → α} {q : β → Bool} {f' : β → β} (g : α → β) (l : List α)
    (hp : ∀ a, q (g a) = p a) (hf : ∀ a ∈ l, p a = true → f' (g a) = g (f a)) :
    (toFront p f l).map g = toFront q f' (l.map g) := by
  have hsame : q ∘ g = p := funext hp
  rw [toFront_eq, toFront_eq, List.find?_map, List.eraseP_map, hsame]
  cases h : l.find? p with
  | none => rfl
  | some a =>
    exact congrArg (· :: _) (hf a (List.mem_of_find?_eq_some h) (List.find?_some h)).symm

/-- Moved only, the elements are the same. -/
theorem map_toFront_perm {p : α → Bool} {f : α → α} (g : α → β) (l : List α)
    (hf : ∀ a ∈ l, p a = true → g (f a) = g a) : ((toFront p f l).map g).Perm (l.map g) := by
  rcases toFront_cases p f l with ⟨-, hsame⟩ | ⟨front, a, back, rfl, ha, hmoved⟩
  · rw [hsame]
  · rw [hmoved, List.map_cons, hf a (List.mem_append_right _ List.mem_cons_self) ha, ← List.map_cons]
    exact List.perm_middle.symm.map g

/-! ### Touches -/

/-- An update of the element with a certain key, which gives the element a time. -/
structure Touch (key : α → κ) (time : α → Nat) where
  target : κ
  moment : Nat
  update : α → α
  keeps : ∀ a, key (update a) = key a
  dates : ∀ a, time (update a) = moment

namespace Touch
variable [DecidableEq κ] {key : α → κ} {time : α → Nat}

def apply (t : Touch key time) (a : α) : α := if key a = t.target then t.update a else a

def toFront (t : Touch key time) (l : List α) : List α :=
  Data.toFront (fun a => key a == t.target) t.update l

/-- One touch after the other. -/
def applyAll (touches : List (Touch key time)) (a : α) : α := touches.foldl (fun a t => t.apply a) a

def toFrontAll (touches : List (Touch key time)) (l : List α) : List α :=
  touches.foldl (fun l t => t.toFront l) l

theorem key_apply (t : Touch key time) (a : α) : key (t.apply a) = key a := by
  unfold apply
  split
  · exact t.keeps a
  · rfl

theorem key_applyAll (touches : List (Touch key time)) (a : α) : key (applyAll touches a) = key a := by
  induction touches generalizing a with
  | nil => rfl
  | cons t rest ih => exact (ih (t.apply a)).trans (t.key_apply a)

/-- Touches of other elements may be left out. -/
theorem applyAll_filter {p : Touch key time → Bool} {a : α} (touches : List (Touch key time))
    (hp : ∀ t ∈ touches, key a = t.target → p t = true) :
    applyAll (touches.filter p) a = applyAll touches a := by
  induction touches generalizing a with
  | nil => rfl
  | cons t rest ih =>
    have hrest := @ih (t.apply a) fun t' ht' h =>
      hp t' (List.mem_cons_of_mem t ht') ((t.key_apply a).symm.trans h)
    by_cases h : p t = true
    · rw [List.filter_cons_of_pos h]
      exact hrest
    · have hother : t.apply a = a := if_neg fun hk => h (hp t List.mem_cons_self hk)
      rw [List.filter_cons_of_neg h]
      rw [hother] at hrest
      show _ = applyAll rest (t.apply a)
      rw [hother, hrest]

theorem map_key_apply (t : Touch key time) (l : List α) : (l.map t.apply).map key = l.map key := by
  rw [List.map_map]
  exact List.map_congr_left fun a _ => t.key_apply a

/-- The elements are the same, the touched one updated. -/
theorem toFront_perm (t : Touch key time) {l : List α} (hnodup : (l.map key).Nodup) :
    (t.toFront l).Perm (l.map t.apply) := by
  rcases toFront_cases (fun a => key a == t.target) t.update l with
    ⟨hnone, hsame⟩ | ⟨front, a, back, rfl, ha, hmoved⟩
  · have happly : l.map t.apply = l := by
      refine (List.map_congr_left fun a ha => ?_).trans (List.map_id l)
      exact if_neg (by simpa using hnone a ha)
    rw [happly, toFront, hsame]
  · have htarget : key a = t.target := beq_iff_eq.mp ha
    have hother : ∀ b ∈ front ++ back, t.apply b = b := by
      intro b hb
      refine if_neg fun hb' => ?_
      rw [List.map_append, List.map_cons, List.nodup_middle, List.nodup_cons, ← List.map_append] at hnodup
      exact hnodup.1 (List.mem_map.mpr ⟨b, hb, hb'.trans htarget.symm⟩)
    have hrest : (front ++ back).map t.apply = front ++ back :=
      (List.map_congr_left hother).trans (List.map_id _)
    have happly : t.apply a = t.update a := if_pos htarget
    calc t.toFront (front ++ a :: back) = t.update a :: (front ++ back) := hmoved
      _ = (a :: (front ++ back)).map t.apply := by rw [List.map_cons, hrest, happly]
      _ |>.Perm ((front ++ a :: back).map t.apply) := (List.perm_middle.symm).map _

/-- The touched element is the latest, and the others keep their order. -/
theorem toFront_sorted (t : Touch key time) {l : List α} (hl : l.Pairwise fun a b => time b < time a)
    (hlater : ∀ a ∈ l, time a < t.moment) : (t.toFront l).Pairwise fun a b => time b < time a := by
  rcases toFront_cases (fun a => key a == t.target) t.update l with
    ⟨-, hsame⟩ | ⟨front, a, back, rfl, -, hmoved⟩
  · rw [toFront, hsame]
    exact hl
  · rw [toFront, hmoved, List.pairwise_cons]
    have hsub : (front ++ back).Sublist (front ++ a :: back) :=
      (List.sublist_cons_self a back).append_left front
    refine ⟨fun b hb => ?_, hl.sublist hsub⟩
    rw [t.dates]
    exact hlater b (hsub.subset hb)

theorem toFrontAll_perm (touches : List (Touch key time)) {l : List α} (hnodup : (l.map key).Nodup) :
    (toFrontAll touches l).Perm (l.map (applyAll touches)) := by
  induction touches generalizing l with
  | nil => exact .of_eq (List.map_id l).symm
  | cons t rest ih =>
    have hperm := t.toFront_perm hnodup
    have hnodup' : ((t.toFront l).map key).Nodup := by
      rw [(hperm.map key).nodup_iff, t.map_key_apply]
      exact hnodup
    calc toFrontAll (t :: rest) l = toFrontAll rest (t.toFront l) := rfl
      _ |>.Perm ((t.toFront l).map (applyAll rest)) := ih hnodup'
      _ |>.Perm ((l.map t.apply).map (applyAll rest)) := hperm.map _
      _ = l.map (applyAll (t :: rest)) := List.map_map

theorem toFrontAll_sorted {touches : List (Touch key time)} {l : List α} (hnodup : (l.map key).Nodup)
    (hl : l.Pairwise fun a b => time b < time a) (hlater : ∀ t ∈ touches, ∀ a ∈ l, time a < t.moment)
    (hincreasing : touches.Pairwise fun t t' => t.moment < t'.moment) :
    (toFrontAll touches l).Pairwise fun a b => time b < time a := by
  induction touches generalizing l with
  | nil => exact hl
  | cons t rest ih =>
    have hperm := t.toFront_perm hnodup
    obtain ⟨hnext, hrest⟩ := List.pairwise_cons.mp hincreasing
    refine ih ?_ (t.toFront_sorted hl (hlater t List.mem_cons_self)) (fun t' ht' a ha => ?_) hrest
    · rw [(hperm.map key).nodup_iff, t.map_key_apply]
      exact hnodup
    · -- What is at the front by now is as old as `t`, and the rest as old as it was.
      obtain ⟨b, hb, rfl⟩ := List.mem_map.mp (hperm.mem_iff.mp ha)
      unfold apply
      split
      · rw [t.dates]
        exact hnext t' ht'
      · exact hlater t' (List.mem_cons_of_mem t ht') b hb

end Touch

/-! ### Sorting anew -/

/-- A list in strictly descending order is what sorting its elements gives. -/
theorem Descending.sort_eq {time : α → Nat} (D : Descending α time) {l sorted : List α}
    (hperm : l.Perm sorted) (hsorted : sorted.Pairwise fun a b => time b < time a) :
    D.sort l = sorted := by
  have hinj : ∀ a ∈ sorted, ∀ b ∈ sorted, time a = time b → a = b := by
    have hnodup : (sorted.map time).Nodup :=
      List.pairwise_map.mpr (hsorted.imp fun h => (Nat.ne_of_lt h).symm)
    exact fun a ha b hb => List.inj_on_of_nodup_map hnodup ha hb
  refine List.Perm.eq_of_pairwise (fun a b ha hb h h' => ?_) (D.ordered l)
    (hsorted.imp fun h => Nat.le_of_lt h) ((D.perm l).trans hperm)
  exact hinj a (((D.perm l).trans hperm).mem_iff.mp ha) b hb (Nat.le_antisymm h' h)

/-- Distinct times come in strictly descending order. -/
theorem Descending.sort_strict {time : α → Nat} (D : Descending α time) {l : List α}
    (hdistinct : (l.map time).Nodup) : (D.sort l).Pairwise fun a b => time b < time a := by
  have hne : (D.sort l).Pairwise fun a b => time a ≠ time b := by
    rw [← List.pairwise_map (f := time)]
    exact ((D.perm l).map time).nodup_iff.mpr hdistinct
  exact (D.ordered l).imp₂ (fun _ _ h h' => Nat.lt_of_le_of_ne h (Ne.symm h')) hne

/-- **Moving to the front is as good as sorting anew**, where every touch is later than
all that was there and than the touches before. -/
theorem Touch.sort_touched [DecidableEq κ] {key : α → κ} {time : α → Nat} (D : Descending α time)
    {touches : List (Touch key time)} {l : List α} (hnodup : (l.map key).Nodup)
    (hdistinct : (l.map time).Nodup) (hlater : ∀ t ∈ touches, ∀ a ∈ l, time a < t.moment)
    (hincreasing : touches.Pairwise fun t t' => t.moment < t'.moment) :
    D.sort (l.map (applyAll touches)) = toFrontAll touches (D.sort l) := by
  have hperm := D.perm l
  have hnodup' : ((D.sort l).map key).Nodup := (hperm.map key).nodup_iff.mpr hnodup
  apply D.sort_eq
  · exact (hperm.symm.map _).trans (toFrontAll_perm touches hnodup').symm
  · exact toFrontAll_sorted hnodup' (D.sort_strict hdistinct)
      (fun t ht a ha => hlater t ht a (hperm.mem_iff.mp ha)) hincreasing

end Data
