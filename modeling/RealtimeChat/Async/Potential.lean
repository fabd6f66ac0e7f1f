import Mathlib.Algebra.BigOperators.Group.Finset.Basic
import Mathlib.Data.Prod.Lex
import RealtimeChat.Async.Deeds

/-! Why a system comes to rest.

Each task has something to spend, by what it has done and what it awaits, and so has
the world it leaves behind. A step pays for what it sets off, and costs one more. Only
where a step brings the state to a lower level may the tasks be given more to spend.
Levels and sums fall together in lexicographic order, so that without new calls every
run ends (`Paid.step`). -/
namespace Async
variable {I : Interface} {σ ε κ α : Type}

/-- What there is to spend. -/
structure Potential (I : Interface) (σ ε κ : Type) where
  level : σ → Nat
  /-- By a task that runs, after what it has done. -/
  spare : σ → List (Deed I ε) → Nat
  /-- By a task that awaits the answer to a query. -/
  asking : σ → I.Query → Nat
  /-- By whom the log reaches. -/
  load : World I σ ε κ → Nat

namespace Potential
variable (P : Potential I σ ε κ)

def weight (s : σ) (before : List (Deed I ε)) : Task I ε α → Nat
  | .blocked q _ => P.asking s q
  | .ready _ => P.spare s before + 1
  | .done _ => 0

/-- Of the task `pid`. -/
def weightAt (c : Config I σ ε κ α) (pid : Nat) : Nat :=
  match c.tasks[pid]? with
  | some entry => P.weight c.world.state (deeds pid c.world.log) entry.task
  | none => 0

def total (c : Config I σ ε κ α) : Nat :=
  ∑ pid ∈ Finset.range c.tasks.length, P.weightAt c pid + P.load c.world

def measure (c : Config I σ ε κ α) : ℕ ×ₗ ℕ := toLex (P.level c.world.state, P.total c)

/-- The states give the tasks the same to spend. -/
structure Same (s s' : σ) : Prop where
  level : P.level s' = P.level s
  spare : P.spare s' = P.spare s
  asking : P.asking s' = P.asking s

theorem Same.refl (s : σ) : P.Same s s := ⟨rfl, rfl, rfl⟩

theorem Same.trans {P : Potential I σ ε κ} {a b c : σ} (h : P.Same a b) (h' : P.Same b c) :
    P.Same a c := ⟨h'.level.trans h.level, h'.spare.trans h.spare, h'.asking.trans h.asking⟩

theorem Same.weight {P : Potential I σ ε κ} {s s' : σ} (h : P.Same s s') (before : List (Deed I ε))
    (task : Task I ε α) : P.weight s' before task = P.weight s before task := by
  cases task <;> simp only [Potential.weight, h.spare, h.asking]

/-- Every step of a task of some kind pays for what it sets off, by its law. -/
structure Paid (S : System I σ ε κ α) (L : κ → Law I ε) (Kind : κ → Prop) : Prop where
  asks : ∀ {call before q r s}, Kind call → L call before (.answered q r) →
    P.asking s q ≤ P.spare s before
  acts : ∀ {pid call a w}, Kind call → L call (deeds pid w.log) (.acted a (S.act a w.state).1) →
    P.Same w.state (S.act a w.state).2 ∧
      P.spare w.state (.acted a (S.act a w.state).1 :: deeds pid w.log) + P.load (S.perform pid a w) ≤
        P.spare w.state (deeds pid w.log) + P.load w
  answers : ∀ {pid call q w}, Kind call → L call (deeds pid w.log) (.answered q (S.answer q w.state).1) →
    P.level (S.answer q w.state).2 < P.level w.state ∨ P.Same w.state (S.answer q w.state).2 ∧
      P.spare w.state (.answered q (S.answer q w.state).1 :: deeds pid w.log) + 1 +
        P.load (S.respond pid q w) < P.asking w.state q + P.load w
  rejects : ∀ {pid call q w}, Kind call → L call (deeds pid w.log) (.answered q (.error S.fault)) →
    P.spare w.state (.answered q (.error S.fault) :: deeds pid w.log) + 1 + P.load (S.reject pid q w) <
      P.asking w.state q + P.load w

end Potential

namespace System
variable (S : System I σ ε κ α)

/-- A task is one of the call that arrives, or has been there and was not done before. -/
theorem step_task {c : Config I σ ε κ α} {m : Move κ} {entry : Entry I ε κ α}
    (h : entry ∈ (S.step c m).tasks) : m = .arrive entry.call ∨
      ∃ old ∈ c.tasks, old.call = entry.call ∧ (entry.task.isDone = false → old.task.isDone = false) := by
  have hset : ∀ {pid : Nat} {call : κ} {task task' : Task I ε α}, c.tasks[pid]? = some ⟨call, task⟩ →
      task.isDone = false → entry ∈ c.tasks.set pid ⟨call, task'⟩ →
      ∃ old ∈ c.tasks, old.call = entry.call ∧ (entry.task.isDone = false → old.task.isDone = false) := by
    intro pid call task task' he hdone hmem
    rcases List.mem_or_eq_of_mem_set hmem with hmem | rfl
    · exact ⟨entry, hmem, rfl, id⟩
    · exact ⟨⟨call, task⟩, List.mem_of_getElem? he, rfl, fun _ => hdone⟩
  have hstep := S.step_stepped c m
  generalize S.step c m = c' at hstep h
  cases hstep with
  | idle => exact .inr ⟨entry, h, rfl, id⟩
  | arrive ha =>
    rcases List.mem_append.mp h with h | h
    · exact .inr ⟨entry, h, rfl, id⟩
    · obtain rfl := List.mem_singleton.mp h
      exact .inl rfl
  | answer he => exact .inr (hset he rfl h)
  | fail he hf => exact .inr (hset he rfl h)
  | resume he => exact .inr (hset he rfl h)
  | pass n => exact .inr ⟨entry, h, rfl, id⟩

end System

namespace Potential
variable {P : Potential I σ ε κ} {S : System I σ ε κ α} {L : κ → Law I ε}
  {E : κ → List (Deed I ε) → Except ε α → Prop} {Kind : κ → Prop}

/-- Running a program up to its next `await` spends no more than it has. -/
theorem Paid.settle (h : P.Paid S L Kind) {pid : Nat} {call : κ} (hkind : Kind call)
    {p : Program I ε α} {w : World I σ ε κ} (hp : p.Obeys (L call) (E call) (deeds pid w.log)) :
    P.Same w.state (S.settle pid p w).2.state ∧
      P.weight w.state (deeds pid (S.settle pid p w).2.log) (S.settle pid p w).1 +
        P.load (S.settle pid p w).2 ≤ P.spare w.state (deeds pid w.log) + P.load w := by
  induction p generalizing w with
  | ret v => exact ⟨.refl _ _, Nat.add_le_add_right (Nat.zero_le _) _⟩
  | raise e => exact ⟨.refl _ _, Nat.add_le_add_right (Nat.zero_le _) _⟩
  | await q next =>
    exact ⟨.refl _ _, Nat.add_le_add_right (h.asks hkind (hp (.error S.fault)).1) _⟩
  | act a next ih =>
    obtain ⟨hlaw, hnext⟩ := hp (S.act a w.state).1
    obtain ⟨hsame, hcost⟩ : P.Same w.state (S.perform pid a w).state ∧ _ := h.acts hkind hlaw
    have hdeeds : deeds pid (S.perform pid a w).log =
        .acted a (S.act a w.state).1 :: deeds pid w.log := deeds_acted pid a _ w.log
    obtain ⟨hsame', hrest⟩ := ih (S.act a w.state).1 (w := S.perform pid a w) (by rw [hdeeds]; exact hnext)
    refine ⟨hsame.trans hsame', ?_⟩
    rw [hdeeds, hsame.spare, hsame.weight] at hrest
    exact hrest.trans hcost

/-- The sum over all tasks, when one of them has moved. -/
theorem sum_set {c : Config I σ ε κ α} {pid : Nat} {call : κ} {task : Task I ε α}
    (he : c.tasks[pid]? = some ⟨call, task⟩) (task' : Task I ε α) {w : World I σ ε κ}
    (hsame : P.Same c.world.state w.state)
    (hlog : ∃ new, w.log = new ++ c.world.log ∧ ∀ e ∈ new, e.pid = pid) :
    ∑ other ∈ Finset.range (c.tasks.set pid ⟨call, task'⟩).length,
        P.weightAt ⟨w, c.tasks.set pid ⟨call, task'⟩⟩ other +
      P.weight c.world.state (deeds pid c.world.log) task =
    ∑ other ∈ Finset.range c.tasks.length, P.weightAt c other +
      P.weight c.world.state (deeds pid w.log) task' := by
  have hlt : pid < c.tasks.length := (List.getElem?_eq_some_iff.mp he).1
  have hmem : pid ∈ Finset.range c.tasks.length := Finset.mem_range.mpr hlt
  have hmine : P.weightAt c pid = P.weight c.world.state (deeds pid c.world.log) task := by
    rw [weightAt, he]
  have hmine' : P.weightAt ⟨w, c.tasks.set pid ⟨call, task'⟩⟩ pid =
      P.weight c.world.state (deeds pid w.log) task' := by
    simp only [weightAt, List.getElem?_set_self hlt, hsame.weight]
  have hothers : ∑ other ∈ (Finset.range c.tasks.length).erase pid,
        P.weightAt ⟨w, c.tasks.set pid ⟨call, task'⟩⟩ other =
      ∑ other ∈ (Finset.range c.tasks.length).erase pid, P.weightAt c other := by
    refine Finset.sum_congr rfl fun other hother => ?_
    have hne : pid ≠ other := (Finset.ne_of_mem_erase hother).symm
    obtain ⟨new, hnew, hpid⟩ := hlog
    have hdeeds : deeds other w.log = deeds other c.world.log := by
      rw [hnew, deeds_others fun e he => (hpid e he).trans_ne hne]
    simp only [weightAt, List.getElem?_set_ne hne, hdeeds, hsame.weight]
  rw [List.length_set, ← Finset.add_sum_erase _ _ hmem, ← Finset.add_sum_erase _ (P.weightAt c) hmem,
    hmine, hmine', hothers]
  omega

/-- A task has moved, and has paid more than it has brought about. -/
theorem measure_lt {c : Config I σ ε κ α} {pid : Nat} {call : κ} {task task' : Task I ε α}
    (he : c.tasks[pid]? = some ⟨call, task⟩) {w : World I σ ε κ}
    (hsame : P.Same c.world.state w.state)
    (hlog : ∃ new, w.log = new ++ c.world.log ∧ ∀ e ∈ new, e.pid = pid)
    (hpaid : P.weight c.world.state (deeds pid w.log) task' + P.load w <
      P.weight c.world.state (deeds pid c.world.log) task + P.load c.world) :
    P.measure ⟨w, c.tasks.set pid ⟨call, task'⟩⟩ < P.measure c := by
  refine Prod.Lex.toLex_lt_toLex.mpr (.inr ⟨hsame.level, ?_⟩)
  have hsum := sum_set (P := P) he task' hsame hlog
  simp only [total]
  omega

/-- **Each step lowers the measure** of a system whose tasks all pay. -/
theorem Paid.step (h : P.Paid S L Kind) {c : Config I σ ε κ α} (ht : System.Obedient L E c)
    (hkind : ∀ entry ∈ c.tasks, entry.task.isDone = false → Kind entry.call) {m : Move κ}
    (hm : S.enabled c m = true) : P.measure (S.step c m) < P.measure c := by
  have hstep := S.step_stepped c m
  generalize S.step c m = c' at hstep ⊢
  cases hstep with
  | idle hidle => exact absurd hm (Bool.eq_false_iff.mp hidle)
  | arrive ha => cases hm
  | @answer pid call q next he =>
    obtain ⟨hlaw, -⟩ := ht.obeys pid _ he (S.answer q c.world.state).1
    rcases h.answers (hkind _ (List.mem_of_getElem? he) rfl) hlaw with hlevel | ⟨hsame, hpaid⟩
    · exact Prod.Lex.toLex_lt_toLex.mpr (.inl hlevel)
    · refine measure_lt he hsame ⟨[_], rfl, by simp [Event.pid]⟩ ?_
      rw [System.respond, deeds_answered]
      exact hpaid
  | @fail pid call q next he hf =>
    obtain ⟨hlaw, -⟩ := ht.obeys pid _ he (.error S.fault)
    have hpaid := h.rejects (w := c.world) (hkind _ (List.mem_of_getElem? he) rfl) hlaw
    refine measure_lt he (.refl _ _) ⟨[_], rfl, by simp [Event.pid]⟩ ?_
    rw [System.reject, deeds_answered]
    exact hpaid
  | @resume pid call p he =>
    obtain ⟨hsame, hpaid⟩ := h.settle (hkind _ (List.mem_of_getElem? he) rfl) (ht.obeys pid _ he)
    refine measure_lt he hsame (S.settle_log pid p c.world) (hpaid.trans_lt ?_)
    show _ < P.spare c.world.state (deeds pid c.world.log) + 1 + _
    omega
  | pass n => cases hm

/-- A call of the kind arrives: its task may spend what there is at the start. -/
theorem Paid.arrive (h : P.Paid S L Kind) {c : Config I σ ε κ α} (ht : System.Obedient L E c) {call : κ}
    (hkind : Kind call) (hbody : (S.body call).Obeys (L call) (E call) []) {s : σ}
    (ha : S.accept call c.world.state = some s) (hsame : P.Same c.world.state s)
    (hload : P.load (System.arrival c.tasks.length call s c.world) ≤ P.load c.world) :
    P.level (S.step c (.arrive call)).world.state = P.level c.world.state ∧
      P.total (S.step c (.arrive call)) ≤ P.total c + P.spare c.world.state [] := by
  have hfresh := ht.fresh call s
  obtain ⟨hsettled, hpaid⟩ := h.settle (w := System.arrival c.tasks.length call s c.world) hkind
    (by rw [hfresh]; exact hbody)
  obtain ⟨new, hlog, hnew⟩ := S.settle_log c.tasks.length (S.body call)
    (System.arrival c.tasks.length call s c.world)
  rw [hfresh, show P.spare (System.arrival c.tasks.length call s c.world).state = _ from hsame.spare] at hpaid
  have hsame' := hsame.trans hsettled
  simp only [System.step, ha]
  generalize S.settle c.tasks.length (S.body call)
    (System.arrival c.tasks.length call s c.world) = settled at *
  refine ⟨hsame'.level, ?_⟩
  have hlast : P.weightAt ⟨settled.2, c.tasks ++ [⟨call, settled.1⟩]⟩ c.tasks.length =
      P.weight s (deeds c.tasks.length settled.2.log) settled.1 := by
    simp only [weightAt, List.getElem?_concat_length]
    exact hsettled.weight _ _
  have hothers : ∑ pid ∈ Finset.range c.tasks.length,
        P.weightAt ⟨settled.2, c.tasks ++ [⟨call, settled.1⟩]⟩ pid =
      ∑ pid ∈ Finset.range c.tasks.length, P.weightAt c pid := by
    refine Finset.sum_congr rfl fun pid hpid => ?_
    have hlt : pid < c.tasks.length := Finset.mem_range.mp hpid
    have hdeeds : deeds pid settled.2.log = deeds pid c.world.log := by
      rw [hlog, deeds_others fun e he => (hnew e he).trans_ne (Nat.ne_of_gt hlt)]
      exact deeds_arrived pid _ call _
    simp only [weightAt, List.getElem?_append_left hlt, hdeeds, hsame'.weight]
  simp only [total, List.length_append, List.length_singleton, Finset.sum_range_succ, hlast, hothers]
  have hweight : P.weight s (deeds c.tasks.length settled.2.log) settled.1 + P.load settled.2 ≤
      P.spare c.world.state [] + P.load (System.arrival c.tasks.length call s c.world) := hpaid
  omega

/-- Time passes, and nobody has more to spend. -/
theorem measure_pass {c : Config I σ ε κ α} {n : Nat}
    (hsame : P.Same c.world.state (S.pass n c.world.state))
    (hload : P.load ⟨S.pass n c.world.state, c.world.log⟩ = P.load c.world) :
    P.measure (S.step c (.pass n)) = P.measure c := by
  have hweight : ∀ pid, P.weightAt (S.step c (.pass n)) pid = P.weightAt c pid := by
    intro pid
    simp only [weightAt, System.step, hsame.weight]
  simp only [measure, total, hweight]
  simp only [System.step, hsame.level, hload]

end Potential

end Async
