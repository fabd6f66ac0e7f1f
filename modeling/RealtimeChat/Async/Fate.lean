import Mathlib.Data.List.Induction
import RealtimeChat.Async.Schedule

/-! What becomes of one task.

A task that waits goes on waiting until a move of its own answers it; one that has been
answered stays as it is until it is resumed; one that is done is done for good. What the
other tasks do in between it sees only in its answer (`run_blocked`, `run_ready`,
`run_done`). -/
namespace Async.System
variable {I : Interface} {σ ε κ α : Type} (S : System I σ ε κ α)
variable {c : Config I σ ε κ α} {pid : Nat} {call : κ}

/-- The query may be answered so in the state `s`, or has been rejected. -/
def Answering (q : I.Query) (s : σ) (answer : Except ε (I.Answer q)) : Prop :=
  answer = (S.answer q s).1 ∨ S.fallible q = true ∧ answer = .error S.fault

/-- A move leaves a task as it is, or is a move of its own. -/
theorem step_task_cases {task : Task I ε α} (he : c.tasks[pid]? = some ⟨call, task⟩) (m : Move κ) :
    (S.step c m).tasks[pid]? = some ⟨call, task⟩ ∨
      (∃ q next answer, task = .blocked q next ∧ S.Answering q c.world.state answer ∧
        (S.step c m).tasks[pid]? = some ⟨call, .ready (next answer)⟩) ∨
      ∃ p, task = .ready p ∧
        (S.step c m).tasks[pid]? = some ⟨call, (S.settle pid p c.world).1⟩ := by
  have hlt := (List.getElem?_eq_some_iff.mp he).1
  have hother : ∀ {other : Nat} {entry : Entry I ε κ α}, other ≠ pid →
      (c.tasks.set other entry)[pid]? = some ⟨call, task⟩ := fun hne =>
    (List.getElem?_set_ne hne).trans he
  have hstep := S.step_stepped c m
  generalize S.step c m = c' at hstep ⊢
  cases hstep with
  | idle => exact .inl he
  | arrive ha => exact .inl ((List.getElem?_append_left hlt).trans he)
  | @answer other call' q next he' =>
    by_cases hpid : other = pid
    · subst hpid
      cases he.symm.trans he'
      exact .inr (.inl ⟨q, next, _, rfl, .inl rfl, List.getElem?_set_self hlt⟩)
    · exact .inl (hother hpid)
  | @fail other call' q next he' hf =>
    by_cases hpid : other = pid
    · subst hpid
      cases he.symm.trans he'
      exact .inr (.inl ⟨q, next, _, rfl, .inr ⟨hf, rfl⟩, List.getElem?_set_self hlt⟩)
    · exact .inl (hother hpid)
  | @resume other call' p he' =>
    by_cases hpid : other = pid
    · subst hpid
      cases he.symm.trans he'
      exact .inr (.inr ⟨p, rfl, List.getElem?_set_self hlt⟩)
    · exact .inl (hother hpid)
  | pass n => exact .inl he

theorem run_done {r : Except ε α} (he : c.tasks[pid]? = some ⟨call, .done r⟩) (moves : List (Move κ)) :
    (S.run c moves).tasks[pid]? = some ⟨call, .done r⟩ := by
  induction moves generalizing c with
  | nil => exact he
  | cons m rest ih =>
    rcases S.step_task_cases he m with h | ⟨q, next, answer, htask, -⟩ | ⟨p, htask, -⟩
    · exact ih h
    · cases htask
    · cases htask

theorem run_ready {p : Program I ε α} (he : c.tasks[pid]? = some ⟨call, .ready p⟩)
    (moves : List (Move κ)) : (S.run c moves).tasks[pid]? = some ⟨call, .ready p⟩ ∨
      ∃ before after, moves = before ++ after ∧ ∃ w, (S.run c before).tasks[pid]? =
        some ⟨call, (S.settle pid p w).1⟩ := by
  induction moves generalizing c with
  | nil => exact .inl he
  | cons m rest ih =>
    rcases S.step_task_cases he m with h | ⟨q, next, answer, htask, -⟩ | ⟨p', htask, h⟩
    · refine (ih h).imp_right fun hlater => ?_
      obtain ⟨before, after, rfl, hsettled⟩ := hlater
      exact ⟨m :: before, after, rfl, hsettled⟩
    · cases htask
    · cases htask
      exact .inr ⟨[m], rest, rfl, _, h⟩

theorem run_blocked {q : I.Query} {next : Except ε (I.Answer q) → Program I ε α}
    (he : c.tasks[pid]? = some ⟨call, .blocked q next⟩) (moves : List (Move κ)) :
    (S.run c moves).tasks[pid]? = some ⟨call, .blocked q next⟩ ∨
      ∃ before m after answer, moves = before ++ m :: after ∧
        S.Answering q (S.run c before).world.state answer ∧
        (S.run c (before ++ [m])).tasks[pid]? = some ⟨call, .ready (next answer)⟩ := by
  induction moves generalizing c with
  | nil => exact .inl he
  | cons m rest ih =>
    rcases S.step_task_cases he m with h | ⟨q', next', answer, htask, hanswer, h⟩ | ⟨p, htask, -⟩
    · refine (ih h).imp_right fun hlater => ?_
      obtain ⟨before, m', after, answer, rfl, hanswered⟩ := hlater
      exact ⟨m :: before, m', after, answer, rfl, hanswered⟩
    · cases htask
      exact .inr ⟨[], m, rest, answer, rfl, hanswer, h⟩
    · cases htask

/-- A task that asks once and then ends: its result is what it makes of an answer given on the
way. -/
theorem run_asked {q : I.Query} {next : Except ε (I.Answer q) → Program I ε α}
    {f : Except ε (I.Answer q) → Except ε α} (hnext : ∀ answer, next answer = .ofExcept (f answer))
    (he : c.tasks[pid]? = some ⟨call, .blocked q next⟩) {moves : List (Move κ)} {r : Except ε α}
    (hr : (S.run c moves).tasks[pid]? = some ⟨call, .done r⟩) :
    ∃ before answer, before <+: moves ∧ S.Answering q (S.run c before).world.state answer ∧
      r = f answer := by
  rcases S.run_blocked he moves with h | ⟨before, m, after, answer, rfl, hanswer, h⟩
  · cases hr.symm.trans h
  · rw [List.append_cons, run_append] at hr
    refine ⟨before, answer, List.prefix_append _ _, hanswer, ?_⟩
    rcases S.run_ready h after with h' | ⟨first, rest, rfl, w, h'⟩
    · cases hr.symm.trans h'
    · have hend : (S.settle pid (next answer) w).1 = .done (f answer) := by
        rw [hnext]
        cases f answer <;> rfl
      rw [hend] at h'
      rw [run_append] at hr
      cases hr.symm.trans (S.run_done h' rest)
      rfl

theorem step_answering {q : I.Query} {r : Except ε (I.Answer q)} {m : Move κ}
    (h : .answered pid q r ∈ (S.step c m).world.log) :
    .answered pid q r ∈ c.world.log ∨ S.Answering q c.world.state r := by
  have hacted : ∀ {pid' : Nat} {p : Program I ε α} {w : World I σ ε κ},
      .answered pid q r ∈ (S.settle pid' p w).2.log → .answered pid q r ∈ w.log := by
    intro pid' p w h
    obtain ⟨new, hlog, hnew⟩ := S.settle_acted pid' p w
    rw [hlog, List.mem_append] at h
    refine h.resolve_left fun hmem => ?_
    obtain ⟨a, reply, heq⟩ := hnew _ hmem
    cases heq
  have hstep := S.step_stepped c m
  generalize S.step c m = c' at hstep h
  cases hstep with
  | idle => exact .inl h
  | arrive ha =>
    rcases List.mem_cons.mp (hacted h) with heq | h
    · cases heq
    · exact .inl h
  | answer he =>
    rcases List.mem_cons.mp h with heq | h
    · cases heq
      exact .inr (.inl rfl)
    · exact .inl h
  | fail he hf =>
    rcases List.mem_cons.mp h with heq | h
    · cases heq
      exact .inr (.inr ⟨hf, rfl⟩)
    · exact .inl h
  | resume he => exact .inl (hacted h)
  | pass n => exact .inl h

/-- An answer that was not there at first has been given on the way. -/
theorem run_answering {q : I.Query} {r : Except ε (I.Answer q)} {moves : List (Move κ)}
    (h : .answered pid q r ∈ (S.run c moves).world.log) : .answered pid q r ∈ c.world.log ∨
      ∃ before, before <+: moves ∧ S.Answering q (S.run c before).world.state r := by
  induction moves generalizing c with
  | nil => exact .inl h
  | cons m rest ih =>
    rcases ih h with hstep | ⟨before, hbefore, hanswer⟩
    · exact (S.step_answering hstep).imp_right fun hanswer => ⟨[], List.nil_prefix, hanswer⟩
    · exact .inr ⟨m :: before, List.cons_prefix_cons.mpr ⟨rfl, hbefore⟩, hanswer⟩

/-- A task is there since its call has arrived. -/
theorem run_arrival {s : σ} {moves : List (Move κ)} {task : Task I ε α}
    (h : (S.run (Config.start s) moves).tasks[pid]? = some ⟨call, task⟩) :
    ∃ before after, moves = before ++ .arrive call :: after ∧
      (S.run (Config.start s) before).tasks.length = pid := by
  induction moves using List.reverseRecOn generalizing task with
  | nil => cases h
  | append_singleton front m ih =>
    have hearlier : ∀ {task : Task I ε α}, (S.run (Config.start s) front).tasks[pid]? = some ⟨call, task⟩ →
        ∃ before after, front ++ [m] = before ++ .arrive call :: after ∧
          (S.run (Config.start s) before).tasks.length = pid := by
      intro task hfront
      obtain ⟨before, after, rfl, hlength⟩ := ih hfront
      exact ⟨before, after ++ [m], by simp, hlength⟩
    have hset : ∀ {other : Nat} {call' : κ} {old new : Task I ε α},
        (S.run (Config.start s) front).tasks[other]? = some ⟨call', old⟩ →
        ((S.run (Config.start s) front).tasks.set other ⟨call', new⟩)[pid]? = some ⟨call, task⟩ →
        ∃ before after, front ++ [m] = before ++ .arrive call :: after ∧
          (S.run (Config.start s) before).tasks.length = pid := by
      intro other call' old new hold hnew
      by_cases hpid : other = pid
      · subst hpid
        rw [List.getElem?_set_self (List.getElem?_eq_some_iff.mp hold).1] at hnew
        cases hnew
        exact hearlier hold
      · exact hearlier ((List.getElem?_set_ne hpid).symm.trans hnew)
    rw [run_append] at h
    change (S.step (S.run (Config.start s) front) m).tasks[pid]? = some ⟨call, task⟩ at h
    have hstep := S.step_stepped (S.run (Config.start s) front) m
    generalize S.step (S.run (Config.start s) front) m = c' at hstep h
    cases hstep with
    | idle => exact hearlier h
    | @arrive call' t ha =>
      rcases Nat.lt_or_ge pid (S.run (Config.start s) front).tasks.length with hlt | hge
      · exact hearlier ((List.getElem?_append_left hlt).symm.trans h)
      · rw [List.getElem?_append_right hge, List.getElem?_singleton] at h
        split at h
        · cases h
          exact ⟨front, [], rfl, by omega⟩
        · cases h
    | answer he => exact hset he h
    | fail he hf => exact hset he h
    | resume he => exact hset he h
    | pass n => exact hearlier h

end Async.System
