import Mathlib.Data.List.Basic
import Mathlib.Data.List.Nodup
import Mathlib.Tactic.Common

/-! Counting in windows of fixed length.

A counter admits up to `limit` events in a window and opens the next window with the
first event that comes `length` or more after the last was opened. An interval of
that length may therefore meet the end of one window and the beginning of the next,
and hold the admissions of both: at most `2 * limit - 1` (`within_admitted_le`), and
as many as that (`crowd_admitted`). -/
namespace Data.FixedWindow

structure Window where
  count : Nat
  start : Nat

/-- Whether an event at `now` is admitted, and the window after it. -/
def offer (limit length now : Nat) : Option Window → Bool × Option Window
  | none => (true, some ⟨1, now⟩)
  | some w =>
    if length ≤ now - w.start then (true, some ⟨1, now⟩)
    else if limit ≤ w.count then (false, some w)
    else (true, some {w with count := w.count + 1})

/-- The times of the events that are admitted, out of all events. -/
def admitted (limit length : Nat) : Option Window → List Nat → List Nat
  | _, [] => []
  | w, now :: rest =>
    let r := offer limit length now w
    if r.1 then now :: admitted limit length r.2 rest else admitted limit length r.2 rest

/-- How many of the times lie in `[t, t + length)`. -/
def within (t length : Nat) (times : List Nat) : Nat :=
  times.countP fun x => decide (t ≤ x ∧ x < t + length)

variable {limit length t : Nat}

theorem admitted_opens {now : Nat} {w : Window} (h : length ≤ now - w.start) (rest : List Nat) :
    admitted limit length (some w) (now :: rest) =
      now :: admitted limit length (some ⟨1, now⟩) rest := by
  simp [admitted, offer, h]

theorem admitted_refuses {now : Nat} {w : Window} (h : now - w.start < length)
    (hfull : limit ≤ w.count) (rest : List Nat) :
    admitted limit length (some w) (now :: rest) = admitted limit length (some w) rest := by
  simp [admitted, offer, Nat.not_le.mpr h, hfull]

theorem admitted_counts {now : Nat} {w : Window} (h : now - w.start < length)
    (hroom : w.count < limit) (rest : List Nat) :
    admitted limit length (some w) (now :: rest) =
      now :: admitted limit length (some ⟨w.count + 1, w.start⟩) rest := by
  simp [admitted, offer, Nat.not_le.mpr h, Nat.not_le.mpr hroom]

theorem within_cons (x : Nat) (times : List Nat) : within t length (x :: times) =
    within t length times + if t ≤ x ∧ x < t + length then 1 else 0 := by
  simp only [within, List.countP_cons, decide_eq_true_eq]

/-- An event counts for one at most. -/
theorem within_cons_le (x : Nat) (times : List Nat) :
    within t length (x :: times) ≤ within t length times + 1 := by
  rw [within_cons]
  split <;> omega

theorem within_eq_zero {times : List Nat} (h : ∀ x ∈ times, t + length ≤ x) :
    within t length times = 0 := by
  simp only [within, List.countP_eq_zero, decide_eq_true_eq]
  intro x hx
  have := h x hx
  omega

theorem admitted_subset (w : Option Window) (times : List Nat) :
    ∀ x ∈ admitted limit length w times, x ∈ times := by
  induction times generalizing w with
  | nil => exact fun x h => h
  | cons now rest ih =>
    intro x hx
    simp only [admitted] at hx
    split at hx
    · rcases List.mem_cons.mp hx with rfl | hx
      · exact .head _
      · exact .tail _ (ih _ x hx)
    · exact .tail _ (ih _ x hx)

/-- The window was opened in the interval, so no other is. -/
theorem within_opened {w : Window} {times : List Nat} (hstart : t ≤ w.start)
    (hsorted : times.Pairwise (· ≤ ·)) (hlength : 0 < length) :
    within t length (admitted limit length (some w) times) ≤ limit - w.count := by
  induction times generalizing w with
  | nil => exact Nat.zero_le _
  | cons now rest ih =>
    obtain ⟨hfirst, hsorted⟩ := List.pairwise_cons.mp hsorted
    rcases Nat.lt_or_ge (now - w.start) length with hsame | hopen
    · rcases Nat.lt_or_ge w.count limit with hroom | hfull
      · have hrest := @ih ⟨w.count + 1, w.start⟩ hstart hsorted
        have hle := @within_cons_le length t now
          (admitted limit length (some ⟨w.count + 1, w.start⟩) rest)
        rw [admitted_counts hsame hroom]
        simp only at hrest
        omega
      · rw [admitted_refuses hsame hfull]
        exact ih hstart hsorted
    · -- The next window opens after the interval has ended.
      rw [admitted_opens hopen, within_eq_zero]
      · exact Nat.zero_le _
      · intro x hx
        rcases List.mem_cons.mp hx with rfl | hx
        · omega
        · have := hfirst x (admitted_subset _ _ x hx)
          omega

/-- A window opened by an event of the interval. -/
theorem within_fresh {now : Nat} {times : List Nat} (hnow : t ≤ now)
    (hsorted : times.Pairwise (· ≤ ·)) (hlength : 0 < length) (hlimit : 0 < limit) :
    within t length (now :: admitted limit length (some ⟨1, now⟩) times) ≤ limit := by
  have hopened := @within_opened limit length t ⟨1, now⟩ times hnow hsorted hlength
  have hle := @within_cons_le length t now
    (admitted limit length (some ⟨1, now⟩) times)
  simp only at hopened
  omega

/-- From the beginning of the interval on: what is left of the window that is open, and
one more window. -/
theorem within_from {w : Window} {times : List Nat} (hstart : w.start < t)
    (htimes : ∀ x ∈ times, t ≤ x) (hsorted : times.Pairwise (· ≤ ·)) (hlength : 0 < length)
    (hlimit : 0 < limit) : within t length (admitted limit length (some w) times) ≤
      (if w.start + length ≤ t then 0 else limit - w.count) + limit := by
  induction times generalizing w with
  | nil => exact Nat.zero_le _
  | cons now rest ih =>
    obtain ⟨hfirst, hrest⟩ := List.pairwise_cons.mp hsorted
    have hnow := htimes now (.head _)
    have hlater : ∀ x ∈ rest, t ≤ x := fun x hx => htimes x (.tail _ hx)
    rcases Nat.lt_or_ge (now - w.start) length with hsame | hopen
    · have hcurrent : ¬ w.start + length ≤ t := by omega
      rcases Nat.lt_or_ge w.count limit with hroom | hfull
      · have h := @ih ⟨w.count + 1, w.start⟩ hstart hlater hrest
        have hle := @within_cons_le length t now
          (admitted limit length (some ⟨w.count + 1, w.start⟩) rest)
        rw [admitted_counts hsame hroom, if_neg hcurrent]
        simp only [if_neg hcurrent] at h
        omega
      · rw [admitted_refuses hsame hfull]
        exact ih hstart hlater hrest
    · rw [admitted_opens hopen]
      exact Nat.le_trans (within_fresh hnow hrest hlength hlimit) (Nat.le_add_left _ _)

/-- What the window before the interval may add to it. -/
def carried (limit length : Nat) : Nat := if length = 1 then 0 else limit - 1

theorem within_before {w : Window} {times : List Nat} (hcount : 0 < w.count) (hstart : w.start < t)
    (hsorted : times.Pairwise (· ≤ ·)) (hlength : 0 < length) (hlimit : 0 < limit) :
    within t length (admitted limit length (some w) times) ≤ carried limit length + limit := by
  induction times generalizing w with
  | nil => exact Nat.zero_le _
  | cons now rest ih =>
    obtain ⟨hfirst, hrest⟩ := List.pairwise_cons.mp hsorted
    rcases Nat.lt_or_ge now t with hnow | hnow
    · -- An event before the interval does not count, and leaves such a window.
      have hskip : ∀ times, within t length (now :: times) = within t length times := by
        intro times
        rw [within_cons, if_neg (by omega), Nat.add_zero]
      rcases Nat.lt_or_ge (now - w.start) length with hsame | hopen
      · rcases Nat.lt_or_ge w.count limit with hroom | hfull
        · rw [admitted_counts hsame hroom, hskip]
          exact ih (Nat.succ_pos _) hstart hrest
        · rw [admitted_refuses hsame hfull]
          exact ih hcount hstart hrest
      · rw [admitted_opens hopen, hskip]
        exact ih Nat.one_pos hnow hrest
    · have htimes : ∀ x ∈ now :: rest, t ≤ x := by
        intro x hx
        rcases List.mem_cons.mp hx with rfl | hx
        · exact hnow
        · exact Nat.le_trans hnow (hfirst x hx)
      apply Nat.le_trans (within_from hstart htimes hsorted hlength hlimit)
      apply Nat.add_le_add_right
      unfold carried
      split <;> split <;> omega

/-- **The bound that windows of fixed length give**, for events in order of time. -/
theorem within_admitted_le {times : List Nat} (hsorted : times.Pairwise (· ≤ ·))
    (hlength : 0 < length) (hlimit : 0 < limit) :
    within t length (admitted limit length none times) ≤ carried limit length + limit := by
  cases times with
  | nil => exact Nat.zero_le _
  | cons now rest =>
    obtain ⟨_, hrest⟩ := List.pairwise_cons.mp hsorted
    simp only [admitted, offer, if_true]
    rcases Nat.lt_or_ge now t with hnow | hnow
    · rw [within_cons, if_neg (by omega), Nat.add_zero]
      exact within_before Nat.one_pos hnow hrest hlength hlimit
    · exact Nat.le_trans (within_fresh hnow hrest hlength hlimit) (Nat.le_add_left _ _)

/-! ### What a refusal takes -/

/-- The events, each with whether it is admitted. -/
def offers (limit length : Nat) : Option Window → List Nat → List (Nat × Bool)
  | _, [] => []
  | w, now :: rest =>
    let r := offer limit length now w
    (now, r.1) :: offers limit length r.2 rest

/-- Whether an admission at `t` counts at `now`: in the last `length` before. -/
def counts (length now : Nat) (e : Nat × Bool) : Bool :=
  e.2 && decide (now < e.1 + length ∧ e.1 ≤ now)

/-- A window counts admissions since it was opened, and no other. -/
def Counted (w : Option Window) (past : List (Nat × Bool)) : Prop :=
  ∀ w', w = some w' → w'.count ≤ past.countP fun e => e.2 && decide (w'.start ≤ e.1)

theorem Counted.offer {w : Option Window} {past : List (Nat × Bool)} {now : Nat} (h : Counted w past)
    (hstart : ∀ w', w = some w' → w'.start ≤ now) :
    Counted (offer limit length now w).2 (past ++ [(now, (offer limit length now w).1)]) := by
  have hfresh : Counted (some ⟨1, now⟩) (past ++ [(now, true)]) := by
    intro w' hw'
    obtain rfl := Option.some.inj hw'
    rw [List.countP_append]
    exact Nat.le_add_left_of_le (by simp)
  cases w with
  | none => exact hfresh
  | some w =>
    have hpast := h w rfl
    have hnow := hstart w rfl
    simp only [FixedWindow.offer]
    split
    · exact hfresh
    · split
      · intro w' hw'
        obtain rfl := Option.some.inj hw'
        rw [List.countP_append]
        exact Nat.le_add_right_of_le hpast
      · intro w' hw'
        obtain rfl := Option.some.inj hw'
        rw [List.countP_append]
        simpa [hnow] using hpast

theorem offer_start {w : Option Window} {now : Nat} (hstart : ∀ w', w = some w' → w'.start ≤ now) :
    ∀ w', (offer limit length now w).2 = some w' → w'.start ≤ now := by
  intro w' hw'
  cases w with
  | none => exact Nat.le_of_eq (congrArg Window.start (Option.some.inj hw')).symm
  | some w =>
    have hnow := hstart w rfl
    simp only [offer] at hw'
    split at hw'
    · exact Nat.le_of_eq (congrArg Window.start (Option.some.inj hw')).symm
    · split at hw'
      · exact Option.some.inj hw' ▸ hnow
      · exact Option.some.inj hw' ▸ hnow

/-- A refused event, somewhere along the events. -/
theorem refused_full_from {w : Option Window} {past earlier later : List (Nat × Bool)} {times : List Nat}
    {now : Nat} (hcounted : Counted w past)
    (hstart : ∀ w', w = some w' → ∀ x ∈ times, w'.start ≤ x)
    (hpast : ∀ e ∈ past, ∀ x ∈ times, e.1 ≤ x) (hsorted : times.Pairwise (· ≤ ·))
    (h : offers limit length w times = earlier ++ (now, false) :: later) :
    limit ≤ (past ++ earlier).countP (counts length now) := by
  induction times generalizing w past earlier with
  | nil => cases earlier <;> cases h
  | cons x rest ih =>
    obtain ⟨hfirst, hrest⟩ := List.pairwise_cons.mp hsorted
    have hx : ∀ w', w = some w' → w'.start ≤ x := fun w' hw' => hstart w' hw' x (.head _)
    cases earlier with
    | nil =>
      obtain ⟨hhead, -⟩ := List.cons.inj h
      obtain ⟨rfl, hrefused⟩ := Prod.mk.inj hhead
      cases w with
      | none => cases hrefused
      | some w =>
        have hw := hcounted w rfl
        simp only [offer] at hrefused
        split at hrefused
        · cases hrefused
        · rename_i hsame
          split at hrefused
          · rename_i hfull
            rw [List.append_nil]
            refine Nat.le_trans hfull (Nat.le_trans hw (List.countP_mono_left fun e he hcount => ?_))
            have hbefore := hpast e he x (.head _)
            simp only [counts, Bool.and_eq_true, decide_eq_true_eq] at hcount ⊢
            exact ⟨hcount.1, by omega⟩
          · cases hrefused
    | cons e earlier =>
      obtain ⟨rfl, htail⟩ := List.cons.inj h
      rw [List.append_cons]
      refine ih (hcounted.offer hx) (fun w' hw' y hy => ?_) (fun e he y hy => ?_) hrest htail
      · exact Nat.le_trans (offer_start hx w' hw') (hfirst y hy)
      · rcases List.mem_append.mp he with he | he
        · exact hpast e he y (.tail _ hy)
        · rw [List.mem_singleton.mp he]
          exact hfirst y hy

/-- **A refused event finds the limit reached**: as many admissions in the last `length`
before it. -/
theorem refused_full {earlier later : List (Nat × Bool)} {times : List Nat} {now : Nat}
    (hsorted : times.Pairwise (· ≤ ·))
    (h : offers limit length none times = earlier ++ (now, false) :: later) :
    limit ≤ earlier.countP (counts length now) := by
  have hcounted : Counted none [] := by
    intro w hw
    cases hw
  have hstart : ∀ w : Window, none = some w → ∀ x ∈ times, w.start ≤ x := by
    intro w hw
    cases hw
  have hfull := refused_full_from hcounted hstart (by simp) hsorted h
  rwa [List.nil_append] at hfull

/-! ### Admissions over any time -/

/-- `n` events have been admitted from `origin` to `now`, and have left the window `w`. -/
inductive Metered (limit length origin : Nat) : Nat → Nat → Option Window → Prop where
  | unopened {now : Nat} (hnow : origin ≤ now) : Metered limit length origin 0 now none
  /-- As many as `closed` windows have had, and what the open one has counted. -/
  | opened {n now closed : Nat} {w : Window} (hcount : n ≤ max limit 1 * closed + w.count)
    (hroom : w.count ≤ max limit 1) (hclosed : origin + closed * length ≤ w.start)
    (hnow : w.start ≤ now) : Metered limit length origin n now (some w)

section
variable {origin n now : Nat} {w : Option Window}

theorem Metered.later (h : Metered limit length origin n now w) {now' : Nat} (hle : now ≤ now') :
    Metered limit length origin n now' w := by
  cases h with
  | unopened hnow => exact .unopened (Nat.le_trans hnow hle)
  | opened hcount hroom hclosed hnow => exact .opened hcount hroom hclosed (Nat.le_trans hnow hle)

theorem Metered.offer (h : Metered limit length origin n now w) :
    Metered limit length origin (n + (offer limit length now w).1.toNat) now
      (offer limit length now w).2 := by
  have hone : 1 ≤ max limit 1 := Nat.le_max_right limit 1
  cases h with
  | unopened hnow =>
    have hfirst : 0 + 1 ≤ max limit 1 * 0 + 1 := by omega
    have hstart : origin + 0 * length ≤ now := by omega
    exact .opened (w := ⟨1, now⟩) hfirst hone hstart (Nat.le_refl now)
  | @opened _ _ closed w hcount hroom hclosed hnow =>
    simp only [FixedWindow.offer]
    split
    · -- The open window is over, and has had no more than its share.
      rename_i hover
      have hcount' : n + 1 ≤ max limit 1 * (closed + 1) + 1 := by
        rw [Nat.mul_succ]
        omega
      have hclosed' : origin + (closed + 1) * length ≤ now := by
        rw [Nat.succ_mul]
        omega
      exact .opened (w := ⟨1, now⟩) hcount' hone hclosed' (Nat.le_refl now)
    · split
      · exact .opened hcount hroom hclosed hnow
      · rename_i hfull
        have hcount' : n + 1 ≤ max limit 1 * closed + (w.count + 1) := by omega
        have hroom' : w.count + 1 ≤ max limit 1 := by omega
        exact .opened (w := {w with count := w.count + 1}) hcount' hroom' hclosed hnow

/-- **No more than a window's worth for each window that fits**, and for one more. -/
theorem Metered.le (h : Metered limit length origin n now w) (hlength : 0 < length) :
    n ≤ max limit 1 * ((now - origin) / length + 1) := by
  cases h with
  | unopened => exact Nat.zero_le _
  | @opened _ _ closed w hcount hroom hclosed hnow =>
    have hfit : closed ≤ (now - origin) / length := by
      rw [Nat.le_div_iff_mul_le hlength]
      omega
    calc n ≤ max limit 1 * closed + w.count := hcount
      _ ≤ max limit 1 * closed + max limit 1 := Nat.add_le_add_left hroom _
      _ = max limit 1 * (closed + 1) := (Nat.mul_succ _ _).symm
      _ ≤ max limit 1 * ((now - origin) / length + 1) :=
        Nat.mul_le_mul_left _ (Nat.succ_le_succ hfit)

end

/-! ### The bound is reached -/

/-- Events at one time, as many as the window still admits. -/
theorem admitted_replicate (n now : Nat) (w : Window) (rest : List Nat)
    (hsame : now - w.start < length) (hroom : w.count + n ≤ limit) :
    admitted limit length (some w) (List.replicate n now ++ rest) =
      List.replicate n now ++ admitted limit length (some {w with count := w.count + n}) rest := by
  induction n generalizing w with
  | zero => rfl
  | succ n ih =>
    rw [List.replicate_succ, List.cons_append, admitted_counts hsame (by omega),
      ih ⟨w.count + 1, w.start⟩ hsame (by simp only; omega), List.cons_append]
    simp only [Nat.add_assoc, Nat.add_comm 1 n]

/-- One event, then the rest of the window at its end, and a whole window after that. -/
def crowd (limit length : Nat) : List Nat :=
  0 :: List.replicate (limit - 1) (length - 1) ++ List.replicate limit length

theorem crowd_sorted : (0 :: crowd limit length).Pairwise (· ≤ ·) := by
  have hreplicate : ∀ n x : Nat, (List.replicate n x).Pairwise (· ≤ ·) := by
    intro n x
    exact List.pairwise_replicate.mpr (.inr (Nat.le_refl x))
  refine List.pairwise_cons.mpr ⟨fun x _ => Nat.zero_le x, ?_⟩
  refine List.pairwise_append.mpr ⟨List.pairwise_cons.mpr ⟨fun x _ => Nat.zero_le x,
    hreplicate _ _⟩, hreplicate _ _, fun x hx y hy => ?_⟩
  have hy := List.eq_of_mem_replicate hy
  rcases List.mem_cons.mp hx with rfl | hx
  · exact Nat.zero_le y
  · have hx := List.eq_of_mem_replicate hx
    omega

theorem crowd_admitted (hlength : 0 < length) (hlimit : 0 < limit) :
    admitted limit length none (crowd limit length) = crowd limit length := by
  have hopened := @admitted_replicate limit length (limit - 1) (length - 1)
    ⟨1, 0⟩ (List.replicate limit length) (by simp only; omega) (by simp only; omega)
  have hfull := @admitted_replicate limit length (limit - 1) length
    ⟨1, length⟩ [] (by simp only; omega) (by simp only; omega)
  obtain ⟨n, rfl⟩ : ∃ n, limit = n + 1 := ⟨limit - 1, by omega⟩
  rw [List.append_nil] at hfull
  simp only [crowd, List.cons_append, admitted, offer, if_true]
  rw [hopened, List.replicate_succ, admitted_opens (by simp only; omega)]
  simp only [Nat.add_sub_cancel] at hfull ⊢
  rw [hfull]
  simp [admitted]

theorem within_crowd (hlength : 1 < length) :
    within 1 length (crowd limit length) = (limit - 1) + limit := by
  have hcount : ∀ n x, (1 ≤ x ∧ x < 1 + length) → within 1 length (List.replicate n x) = n := by
    intro n x hx
    rw [within, List.countP_replicate, if_pos (by simpa using hx)]
  rw [crowd, List.cons_append, within_cons, if_neg (by omega), Nat.add_zero, within,
    List.countP_append]
  have hend := hcount (limit - 1) (length - 1) (by omega)
  have hnext := hcount limit length (by omega)
  unfold within at hend hnext
  rw [hend, hnext]

end Data.FixedWindow
