import Mathlib.Algebra.BigOperators.Fin
import Mathlib.Algebra.Order.BigOperators.Group.List
import Mathlib.Algebra.Order.Ring.Nat
import RealtimeChat.Async.Deeds

/-! How much a system has to do.

A program that awaits at most `n` answers on every path (`Program.Awaits`) is given at
most `n` in every run, whatever the answers are and whatever is interleaved
(`run_asked_le`). A task moves twice for an answer, once to be given it and once to go on
with it, so that a run cannot take more steps than twice what its calls may await
(`run_work`): once no more calls arrive, a system of such programs comes to rest. -/
namespace Async
variable {I : Interface} {σ ε κ α β : Type}

namespace Program

/-- On every path, whatever the replies and the answers. -/
def Awaits : Program I ε α → Nat → Prop
  | .ret _, _ => True
  | .raise _, _ => True
  | .act _ next, n => ∀ r, (next r).Awaits n
  | .await _ next, n => ∃ m, n = m + 1 ∧ ∀ r, (next r).Awaits m

section
variable {p : Program I ε α} {m n : Nat}

theorem Awaits.mono (h : p.Awaits m) (hle : m ≤ n) : p.Awaits n := by
  induction p generalizing m n with
  | ret v => trivial
  | raise e => trivial
  | act a next ih => exact fun r => ih r (h r) hle
  | await q next ih =>
    obtain ⟨m', rfl, hnext⟩ := h
    exact ⟨n - 1, by omega, fun r => ih r (hnext r) (by omega)⟩

theorem Awaits.bind {f : α → Program I ε β} (h : p.Awaits m) (hf : ∀ v, (f v).Awaits n) :
    (p.bind f).Awaits (n + m) := by
  induction p generalizing m with
  | ret v => exact (hf v).mono (Nat.le_add_right n m)
  | raise e => trivial
  | act a next ih => exact fun r => ih r (h r)
  | await q next ih =>
    obtain ⟨m', rfl, hnext⟩ := h
    exact ⟨n + m', rfl, fun r => ih r (hnext r)⟩

theorem Awaits.tryCatch {f : ε → Program I ε α} (h : p.Awaits m) (hf : ∀ e, (f e).Awaits n) :
    (p.tryCatch f).Awaits (n + m) := by
  induction p generalizing m with
  | ret v => trivial
  | raise e => exact (hf e).mono (Nat.le_add_right n m)
  | act a next ih => exact fun r => ih r (h r)
  | await q next ih =>
    obtain ⟨m', rfl, hnext⟩ := h
    exact ⟨n + m', rfl, fun r => ih r (hnext r)⟩

theorem awaits_perform (a : I.Action) : (perform a : Program I ε _).Awaits 0 := fun _ => trivial

theorem awaits_query (q : I.Query) : (query q : Program I ε _).Awaits 1 := by
  refine ⟨0, rfl, fun r => ?_⟩
  cases r <;> trivial

end

end Program

/-! ### What a task is given -/

/-- How many answers the task has been given. -/
def asked (before : List (Deed I ε)) : Nat :=
  before.countP fun
    | .answered _ _ => true
    | .acted _ _ => false

@[simp] theorem asked_acted (a : I.Action) (r : I.Reply a) (before : List (Deed I ε)) :
    asked (.acted a r :: before) = asked before := rfl

@[simp] theorem asked_answered (q : I.Query) (r : Except ε (I.Answer q)) (before : List (Deed I ε)) :
    asked (.answered q r :: before) = asked before + 1 := List.countP_cons_of_pos rfl

/-- No more than `n` answers. -/
def AtMost (n : Nat) : Law I ε
  | before, .answered _ _ => asked before < n
  | _, .acted _ _ => True

theorem Program.Awaits.obeys {p : Program I ε α} {k n : Nat} {before : List (Deed I ε)}
    (h : p.Awaits k) (hle : asked before + k ≤ n) : p.Obeys (AtMost n) (fun _ _ => True) before := by
  induction p generalizing k before with
  | ret v => trivial
  | raise e => trivial
  | act a next ih => exact fun r => ⟨trivial, ih r (h r) hle⟩
  | await q next ih =>
    obtain ⟨m, rfl, hnext⟩ := h
    refine fun r => ⟨?_, ih r (hnext r) ?_⟩
    · show asked before < n
      omega
    · rw [asked_answered]
      omega

theorem asked_le {n : Nat} {before : List (Deed I ε)} (h : Lawful (AtMost n) before) :
    asked before ≤ n := by
  induction before with
  | nil => exact Nat.zero_le n
  | cons d rest ih =>
    cases d with
    | acted a r => exact ih h.2
    | answered q r =>
      rw [asked_answered]
      exact h.1

/-- Given an answer that it has not gone on with. -/
def Task.isReady : Task I ε α → Bool
  | .ready _ => true
  | _ => false

namespace System
variable {S : System I σ ε κ α} {b : κ → Nat}

/-- **No task is given more than its call may await**, in any run. -/
theorem run_asked_le (hbody : ∀ call, (S.body call).Awaits (b call)) (s : σ) (moves : List (Move κ))
    {pid : Nat} {entry : Entry I ε κ α} (hentry : (S.run (Config.start s) moves).tasks[pid]? = some entry) :
    asked (deeds pid (S.run (Config.start s) moves).world.log) ≤ b entry.call := by
  have hobedient : Obedient (fun call => AtMost (b call)) (fun _ _ _ => True)
      (S.run (Config.start s) moves) :=
    (Obedient.start s).run S (fun call => (hbody call).obeys (Nat.le_of_eq (Nat.zero_add _))) moves
  exact asked_le (hobedient.lawful pid entry hentry)

/-! ### What a run does -/

/-- How many of the moves are steps that a task takes. -/
def work (S : System I σ ε κ α) (c : Config I σ ε κ α) : List (Move κ) → Nat
  | [] => 0
  | m :: rest => (S.enabled c m).toNat + work S (S.step c m) rest

/-- How many answers have been given. -/
def answers (log : List (Event I ε κ)) : Nat :=
  log.countP fun
    | .answered _ _ _ => true
    | _ => false

theorem answers_acted {new log : List (Event I ε κ)} {pid : Nat}
    (h : ∀ e ∈ new, ∃ a r, e = .acted pid a r) : answers (new ++ log) = answers log := by
  have hnew : answers new = 0 := by
    refine List.countP_eq_zero.mpr fun e he => ?_
    obtain ⟨a, r, rfl⟩ := h e he
    exact Bool.false_ne_true
  rw [answers, List.countP_append]
  change answers new + answers log = _
  rw [hnew, Nat.zero_add]

def readies (tasks : List (Entry I ε κ α)) : Nat := tasks.countP fun entry => entry.task.isReady

theorem readies_set {tasks : List (Entry I ε κ α)} {pid : Nat} {call : κ} {task : Task I ε α}
    (he : tasks[pid]? = some ⟨call, task⟩) (task' : Task I ε α) :
    readies (tasks.set pid ⟨call, task'⟩) + task.isReady.toNat = readies tasks + task'.isReady.toNat := by
  induction tasks generalizing pid with
  | nil => cases he
  | cons entry rest ih =>
    cases pid with
    | zero =>
      obtain rfl : entry = ⟨call, task⟩ := Option.some.inj he
      simp only [readies, List.set_cons_zero, List.countP_cons]
      cases task.isReady <;> cases task'.isReady <;> rfl
    | succ pid =>
      have hrest := ih he
      simp only [readies, List.set_cons_succ, List.countP_cons] at hrest ⊢
      omega

theorem settle_notReady (pid : Nat) (p : Program I ε α) (w : World I σ ε κ) :
    (S.settle pid p w).1.isReady = false := by
  induction p generalizing w with
  | ret v => rfl
  | raise e => rfl
  | act a next ih => exact ih _ _
  | await q next => rfl

/-- A step gives an answer, or goes on with one. -/
theorem step_work (S : System I σ ε κ α) (c : Config I σ ε κ α) (m : Move κ) :
    (S.enabled c m).toNat + 2 * answers c.world.log + readies (S.step c m).tasks =
      2 * answers (S.step c m).world.log + readies c.tasks := by
  have hstep := S.step_stepped c m
  generalize S.step c m = c' at hstep ⊢
  cases hstep with
  | idle hm =>
    rw [hm, Bool.toNat_false, Nat.zero_add]
  | @arrive call s ha =>
    obtain ⟨new, hlog, hnew⟩ := S.settle_acted c.tasks.length (S.body call)
      (arrival c.tasks.length call s c.world)
    have hready := settle_notReady (S := S) c.tasks.length (S.body call)
      (arrival c.tasks.length call s c.world)
    have hanswers : answers (arrival c.tasks.length call s c.world).log = answers c.world.log := rfl
    simp only [hlog, answers_acted hnew, hanswers, readies, List.countP_append, List.countP_singleton,
      hready, enabled, Bool.toNat_false, Bool.false_eq_true, if_false]
    omega
  | @answer pid call q next he =>
    have hset := readies_set he (.ready (next (S.answer q c.world.state).1))
    have hanswers : answers (S.respond pid q c.world).log = answers c.world.log + 1 :=
      List.countP_cons_of_pos rfl
    simp only [enabled, he, hanswers, Task.isReady, Bool.toNat_false, Bool.toNat_true] at hset ⊢
    omega
  | @fail pid call q next he hf =>
    have hset := readies_set he (.ready (next (.error S.fault)))
    have hanswers : answers (S.reject pid q c.world).log = answers c.world.log + 1 :=
      List.countP_cons_of_pos rfl
    simp only [enabled, he, hf, hanswers, Task.isReady, Bool.toNat_false, Bool.toNat_true] at hset ⊢
    omega
  | @resume pid call p he =>
    have hset := readies_set he (S.settle pid p c.world).1
    obtain ⟨new, hlog, hnew⟩ := S.settle_acted pid p c.world
    rw [settle_notReady] at hset
    simp only [enabled, he, hlog, answers_acted hnew, Task.isReady, Bool.toNat_false,
      Bool.toNat_true] at hset ⊢
    omega
  | pass n => simp only [enabled, Bool.toNat_false, Nat.zero_add]

theorem work_eq (S : System I σ ε κ α) (c : Config I σ ε κ α) (moves : List (Move κ)) :
    S.work c moves + 2 * answers c.world.log + readies (S.run c moves).tasks =
      2 * answers (S.run c moves).world.log + readies c.tasks := by
  induction moves generalizing c with
  | nil => exact congrArg (· + readies c.tasks) (Nat.zero_add _)
  | cons m rest ih =>
    have hstep := S.step_work c m
    have hrest := ih (S.step c m)
    simp only [work, run]
    omega

/-- The answers of a run, task by task. -/
theorem answers_eq_sum {n : Nat} {log : List (Event I ε κ)} (h : ∀ e ∈ log, e.pid < n) :
    answers log = ∑ pid ∈ Finset.range n, asked (deeds pid log) := by
  induction log with
  | nil => exact (Finset.sum_const_zero).symm
  | cons e rest ih =>
    have hrest := ih fun e' he' => h e' (.tail _ he')
    have hmem : e.pid ∈ Finset.range n := Finset.mem_range.mpr (h e (.head _))
    have hothers : ∑ pid ∈ (Finset.range n).erase e.pid, asked (deeds pid (e :: rest)) =
        ∑ pid ∈ (Finset.range n).erase e.pid, asked (deeds pid rest) :=
      Finset.sum_congr rfl fun pid hpid => by
        rw [deeds_cons_other (Finset.ne_of_mem_erase hpid).symm]
    have hmine : answers (e :: rest) + asked (deeds e.pid rest) =
        answers rest + asked (deeds e.pid (e :: rest)) := by
      cases e with
      | arrived pid call =>
        rw [deeds_arrived]
        rfl
      | acted pid a r =>
        rw [show (Event.acted pid a r : Event I ε κ).pid = pid from rfl, deeds_acted]
        rfl
      | answered pid q r =>
        have hanswers : answers (.answered pid q r :: rest) = answers rest + 1 :=
          List.countP_cons_of_pos rfl
        rw [show (Event.answered pid q r : Event I ε κ).pid = pid from rfl, deeds_answered,
          asked_answered, hanswers]
        omega
    rw [← Finset.add_sum_erase _ _ hmem] at hrest ⊢
    rw [hothers]
    omega

theorem sum_range_le {γ : Type} {l : List γ} {f : Nat → Nat} {g : γ → Nat}
    (h : ∀ (i : Nat) (a : γ), l[i]? = some a → f i ≤ g a) :
    ∑ i ∈ Finset.range l.length, f i ≤ (l.map g).sum := by
  induction l generalizing f with
  | nil => exact Nat.le_refl 0
  | cons a rest ih =>
    have hrest := ih (f := fun i => f (i + 1)) fun i a' ha' => h (i + 1) a' ha'
    have hfirst := h 0 a rfl
    rw [List.length_cons, Finset.sum_range_succ', List.map_cons, List.sum_cons]
    omega

/-- The calls of the tasks are among those that have been let in, in order. -/
theorem step_calls (S : System I σ ε κ α) (c : Config I σ ε κ α) (m : Move κ) :
    ((S.step c m).tasks.map Entry.call).Sublist (c.tasks.map Entry.call ++ calls [m]) := by
  have hstep := S.step_stepped c m
  generalize S.step c m = c' at hstep ⊢
  have hset : ∀ {pid : Nat} {call : κ} {task task' : Task I ε α}, c.tasks[pid]? = some ⟨call, task⟩ →
      (c.tasks.set pid ⟨call, task'⟩).map Entry.call = c.tasks.map Entry.call := by
    intro pid call task task' he
    obtain ⟨hlt, heq⟩ := List.getElem?_eq_some_iff.mp he
    rw [List.map_set]
    refine (congrArg _ ?_).trans (List.set_getElem_self (by rwa [List.length_map]))
    rw [List.getElem_map, heq]
  cases hstep with
  | idle => exact List.sublist_append_left _ _
  | arrive ha =>
    rw [List.map_append]
    exact List.Sublist.refl _
  | answer he =>
    rw [hset he]
    exact List.sublist_append_left _ _
  | fail he hf =>
    rw [hset he]
    exact List.sublist_append_left _ _
  | resume he =>
    rw [hset he]
    exact List.sublist_append_left _ _
  | pass n => exact List.sublist_append_left _ _

theorem run_sublist (S : System I σ ε κ α) (c : Config I σ ε κ α) (moves : List (Move κ)) :
    ((S.run c moves).tasks.map Entry.call).Sublist (c.tasks.map Entry.call ++ calls moves) := by
  induction moves generalizing c with
  | nil => exact List.sublist_append_left _ _
  | cons m rest ih =>
    refine (ih (S.step c m)).trans ?_
    have hfirst := (S.step_calls c m).append_right (calls rest)
    rwa [List.append_assoc, calls, calls, ← List.filterMap_append] at hfirst

/-- **A run takes no more steps than twice what its calls may await.** -/
theorem run_work (hbody : ∀ call, (S.body call).Awaits (b call)) (s : σ) (moves : List (Move κ)) :
    S.work (Config.start s) moves ≤ 2 * ((calls moves).map b).sum := by
  have hobedient : Obedient (fun call => AtMost (b call)) (fun _ _ _ => True)
      (S.run (Config.start s) moves) :=
    (Obedient.start s).run S (fun call => (hbody call).obeys (Nat.le_of_eq (Nat.zero_add _))) moves
  have hanswers : answers (S.run (Config.start s) moves).world.log ≤
      ((S.run (Config.start s) moves).tasks.map fun entry => b entry.call).sum := by
    rw [answers_eq_sum hobedient.numbered]
    exact sum_range_le fun pid entry hentry => asked_le (hobedient.lawful pid entry hentry)
  have hcalls : ((S.run (Config.start s) moves).tasks.map fun entry => b entry.call).sum ≤
      ((calls moves).map b).sum := by
    have hsublist := (S.run_sublist (Config.start s) moves).map b
    rw [List.map_map] at hsublist
    exact hsublist.sum_le_sum fun _ _ => Nat.zero_le _
  have hwork := S.work_eq (Config.start s) moves
  have hstart : answers (Config.start s : Config I σ ε κ α).world.log = 0 := rfl
  have hnone : readies (Config.start s : Config I σ ε κ α).tasks = 0 := rfl
  omega

/-- Where no task can move, all have ended. -/
theorem ended_of_stuck {c : Config I σ ε κ α}
    (hstuck : ∀ pid, S.enabled c (.answer pid) = false ∧ S.enabled c (.resume pid) = false)
    {entry : Entry I ε κ α} (hentry : entry ∈ c.tasks) : entry.task.isDone = true := by
  obtain ⟨pid, he⟩ := List.getElem?_of_mem hentry
  obtain ⟨hanswer, hresume⟩ := hstuck pid
  simp only [enabled, he] at hanswer hresume
  rcases entry with ⟨call, ⟨q, next⟩ | p | r⟩
  · cases hanswer
  · cases hresume
  · rfl

end System

end Async
