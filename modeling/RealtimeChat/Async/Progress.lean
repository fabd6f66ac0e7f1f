import RealtimeChat.Async.Schedule

/-! Every task can be brought to its end.

A program is a finite tree: whatever it is answered, it awaits finitely often. So from any
state in which a run may be, answers and resumptions alone bring all tasks that are there to
their ends (`finish`). Rejections are not needed for it, nor are further calls. -/
namespace Async.System
variable {I : Interface} {σ ε κ α : Type} (S : System I σ ε κ α)

/-- Nothing but answers and resumptions. -/
def Advancing (moves : List (Move κ)) : Prop := ∀ m ∈ moves, ∃ pid, m = .answer pid ∨ m = .resume pid

/-- The moves bring the task to its end, and leave the others where they are. -/
structure Completes (pid : Nat) (c : Config I σ ε κ α) (moves : List (Move κ)) : Prop where
  advancing : Advancing moves
  done : ∃ entry, (S.run c moves).tasks[pid]? = some entry ∧ entry.task.isDone = true
  others : ∀ other, other ≠ pid → (S.run c moves).tasks[other]? = c.tasks[other]?
  length : (S.run c moves).tasks.length = c.tasks.length

variable {S} {pid : Nat} {c : Config I σ ε κ α}

theorem Completes.of_done {entry : Entry I ε κ α} (he : c.tasks[pid]? = some entry)
    (hdone : entry.task.isDone = true) : S.Completes pid c [] where
  advancing := by
    intro m hm
    cases hm
  done := ⟨entry, he, hdone⟩
  others _ _ := rfl
  length := rfl

/-- A step of the task itself, before the moves. -/
theorem Completes.cons {moves : List (Move κ)} {m : Move κ} (hm : m = .answer pid ∨ m = .resume pid)
    (h : S.Completes pid (S.step c m) moves)
    (hothers : ∀ other, other ≠ pid → (S.step c m).tasks[other]? = c.tasks[other]?)
    (hlength : (S.step c m).tasks.length = c.tasks.length) : S.Completes pid c (m :: moves) where
  advancing := List.forall_mem_cons.mpr ⟨⟨pid, hm⟩, h.advancing⟩
  done := h.done
  others other hne := (h.others other hne).trans (hothers other hne)
  length := h.length.trans hlength

theorem Completes.of_answer {call : κ} {q : I.Query} {next : Except ε (I.Answer q) → Program I ε α}
    {moves : List (Move κ)} (he : c.tasks[pid]? = some ⟨call, .blocked q next⟩)
    (h : S.Completes pid ⟨S.respond pid q c.world,
      c.tasks.set pid ⟨call, .ready (next (S.answer q c.world.state).1)⟩⟩ moves) :
    S.Completes pid c (.answer pid :: moves) := by
  have hstep : S.step c (.answer pid) = ⟨S.respond pid q c.world,
      c.tasks.set pid ⟨call, .ready (next (S.answer q c.world.state).1)⟩⟩ := by
    simp only [step, he]
  refine .cons (.inl rfl) (hstep ▸ h) (fun other hne => ?_) ?_
  · rw [hstep]
    exact List.getElem?_set_ne hne.symm
  · rw [hstep]
    exact List.length_set

theorem Completes.of_resume {call : κ} {p : Program I ε α} {moves : List (Move κ)}
    (he : c.tasks[pid]? = some ⟨call, .ready p⟩)
    (h : S.Completes pid ⟨(S.settle pid p c.world).2,
      c.tasks.set pid ⟨call, (S.settle pid p c.world).1⟩⟩ moves) :
    S.Completes pid c (.resume pid :: moves) := by
  have hstep : S.step c (.resume pid) = ⟨(S.settle pid p c.world).2,
      c.tasks.set pid ⟨call, (S.settle pid p c.world).1⟩⟩ := by
    simp only [step, he]
  refine .cons (.inr rfl) (hstep ▸ h) (fun other hne => ?_) ?_
  · rw [hstep]
    exact List.getElem?_set_ne hne.symm
  · rw [hstep]
    exact List.length_set

theorem Completes.of_await {call : κ} {q : I.Query} {next : Except ε (I.Answer q) → Program I ε α}
    {moves : List (Move κ)} (he : c.tasks[pid]? = some ⟨call, .blocked q next⟩)
    (h : S.Completes pid
      ⟨(S.settle pid (next (S.answer q c.world.state).1) (S.respond pid q c.world)).2,
        c.tasks.set pid ⟨call, (S.settle pid (next (S.answer q c.world.state).1)
          (S.respond pid q c.world)).1⟩⟩ moves) :
    S.Completes pid c (.answer pid :: .resume pid :: moves) := by
  refine .of_answer he (.of_resume (List.getElem?_set_self (List.getElem?_eq_some_iff.mp he).1) ?_)
  rw [List.set_set]
  exact h

/-- A program that runs up to its next `await` can be brought to its end from there. -/
theorem completes_settled (p : Program I ε α) (w : World I σ ε κ) (call : κ)
    (tasks : List (Entry I ε κ α)) (hpid : pid < tasks.length) :
    ∃ moves, S.Completes pid
      ⟨(S.settle pid p w).2, tasks.set pid ⟨call, (S.settle pid p w).1⟩⟩ moves := by
  induction p generalizing w tasks with
  | ret v => exact ⟨[], .of_done (List.getElem?_set_self hpid) rfl⟩
  | raise e => exact ⟨[], .of_done (List.getElem?_set_self hpid) rfl⟩
  | act a next ih => exact ih _ (S.perform pid a w) tasks hpid
  | await q next ih =>
    obtain ⟨moves, h⟩ := ih (S.answer q w.state).1 (S.respond pid q w) tasks hpid
    refine ⟨.answer pid :: .resume pid :: moves, .of_await (List.getElem?_set_self hpid) ?_⟩
    rw [List.set_set]
    exact h

theorem completes (c : Config I σ ε κ α) (hpid : pid < c.tasks.length) :
    ∃ moves, S.Completes pid c moves := by
  have he : c.tasks[pid]? = some c.tasks[pid] := List.getElem?_eq_getElem hpid
  rcases htask : c.tasks[pid] with ⟨call, ⟨q, next⟩ | p | r⟩
  · rw [htask] at he
    obtain ⟨moves, h⟩ := completes_settled (S := S) (next (S.answer q c.world.state).1)
      (S.respond pid q c.world) call c.tasks hpid
    exact ⟨_, .of_await he h⟩
  · rw [htask] at he
    obtain ⟨moves, h⟩ := completes_settled (S := S) p c.world call c.tasks hpid
    exact ⟨_, .of_resume he h⟩
  · rw [htask] at he
    exact ⟨[], .of_done he rfl⟩

/-- **All tasks end** if they are answered and resumed often enough. -/
theorem finish (S : System I σ ε κ α) (c : Config I σ ε κ α) :
    ∃ moves, Advancing moves ∧ ∀ entry ∈ (S.run c moves).tasks, entry.task.isDone = true := by
  have hfirst : ∀ n ≤ c.tasks.length, ∃ moves : List (Move κ), Advancing moves ∧
      (S.run c moves).tasks.length = c.tasks.length ∧
      ∀ pid < n, ∃ entry, (S.run c moves).tasks[pid]? = some entry ∧ entry.task.isDone = true := by
    intro n hn
    induction n with
    | zero =>
      refine ⟨[], fun m hm => ?_, rfl, fun pid h => absurd h (Nat.not_lt_zero _)⟩
      cases hm
    | succ n ih =>
      obtain ⟨moves, hadvancing, hlength, hdone⟩ := ih (Nat.le_of_succ_le hn)
      obtain ⟨more, h⟩ := completes (S := S) (S.run c moves) (Nat.lt_of_lt_of_eq hn hlength.symm)
      refine ⟨moves ++ more, fun m hm => ?_, ?_, fun pid hpid => ?_⟩
      · exact (List.mem_append.mp hm).elim (hadvancing m) (h.advancing m)
      · rw [run_append]
        exact h.length.trans hlength
      · rw [run_append]
        by_cases heq : pid = n
        · exact heq ▸ h.done
        · rw [h.others pid heq]
          exact hdone pid (by omega)
  obtain ⟨moves, hadvancing, hlength, hdone⟩ := hfirst c.tasks.length (Nat.le_refl _)
  refine ⟨moves, hadvancing, fun entry hentry => ?_⟩
  obtain ⟨pid, hpid⟩ := List.getElem?_of_mem hentry
  have hlt := (List.getElem?_eq_some_iff.mp hpid).1
  obtain ⟨entry', hentry', h⟩ := hdone pid (by rwa [hlength] at hlt)
  rw [hpid] at hentry'
  exact Option.some.inj hentry' ▸ h

end Async.System
