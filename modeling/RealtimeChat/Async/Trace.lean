import Mathlib.Data.List.Induction
import RealtimeChat.Async.Schedule

/-! From the log of a run back to the run.

A logged answer names the move that brought it: the run reached a state with the
log below the entry, and there the query was answered (`run_answered`). A condition
on the log so becomes a fact about states along the run. -/
namespace Async
variable {I : Interface} {σ ε κ α : Type}

/-- Every entry of the log meets the condition `P`, given what was logged before it. -/
def Each (P : Event I ε κ → List (Event I ε κ) → Prop) : List (Event I ε κ) → Prop
  | [] => True
  | e :: earlier => P e earlier ∧ Each P earlier

instance Each.decidable {P : Event I ε κ → List (Event I ε κ) → Prop}
    [∀ e earlier, Decidable (P e earlier)] : ∀ log, Decidable (Each P log)
  | [] => .isTrue trivial
  | e :: earlier =>
    have := Each.decidable (P := P) earlier
    inferInstanceAs (Decidable (P e earlier ∧ Each P earlier))

theorem Each.at {P : Event I ε κ → List (Event I ε κ) → Prop} {later earlier : List (Event I ε κ)}
    {e : Event I ε κ} (h : Each P (later ++ e :: earlier)) : P e earlier ∧ Each P earlier := by
  induction later with
  | nil => exact h
  | cons e' rest ih => exact ih h.2

/-- An answer that brought a value. -/
def Event.Succeeded : Event I ε κ → Prop
  | .answered _ _ (.ok _) => True
  | _ => False

/-- An entry that brings no value to anybody is none of those that do. -/
theorem Event.mem_of_succeeded {e e' : Event I ε κ} {log : List (Event I ε κ)}
    (h : e' ∈ e :: log) (hs : e'.Succeeded) (he : ¬ e.Succeeded) : e' ∈ log := by
  refine (List.mem_cons.mp h).resolve_left fun heq => he ?_
  rwa [← heq]

namespace System
variable (S : System I σ ε κ α)

/-- `R` relates every earlier state of the run to every later one. -/
def Throughout (R : σ → σ → Prop) (c : Config I σ ε κ α) (moves : List (Move κ)) : Prop :=
  ∀ before between, before ++ between <+: moves →
    R (S.run c before).world.state (S.run c (before ++ between)).world.state

theorem settle_unanswered (pid : Nat) (p : Program I ε α) (w : World I σ ε κ) :
    ∃ new, (S.settle pid p w).2.log = new ++ w.log ∧ ∀ e ∈ new, ∀ pid q r, e ≠ .answered pid q r := by
  obtain ⟨new, hlog, hnew⟩ := S.settle_acted pid p w
  refine ⟨new, hlog, fun e he pid' q r heq => ?_⟩
  obtain ⟨a, r', rfl⟩ := hnew e he
  cases heq

/-- A move answers nobody, or answers or rejects one query and does nothing else. -/
theorem step_answered (c : Config I σ ε κ α) (m : Move κ) :
    (∃ new, (S.step c m).world.log = new ++ c.world.log ∧ ∀ e ∈ new, ∀ pid q r, e ≠ .answered pid q r) ∨
      (∃ pid q, m = .answer pid ∧ (S.step c m).world = S.respond pid q c.world) ∨
      ∃ pid q, m = .fail pid ∧ (S.step c m).world = S.reject pid q c.world := by
  have hstep := S.step_stepped c m
  generalize S.step c m = c' at hstep ⊢
  cases hstep with
  | idle => exact .inl ⟨[], rfl, by simp⟩
  | @arrive call s ha =>
    obtain ⟨new, hlog, hnew⟩ := S.settle_unanswered c.tasks.length (S.body call)
      (arrival c.tasks.length call s c.world)
    refine .inl ⟨new ++ [.arrived c.tasks.length call], ?_, ?_⟩
    · rw [hlog, List.append_assoc]
      rfl
    · intro e he pid q r heq
      rcases List.mem_append.mp he with he | he
      · exact hnew e he pid q r heq
      · rw [List.mem_singleton.mp he] at heq
        cases heq
  | answer he => exact .inr (.inl ⟨_, _, rfl, rfl⟩)
  | fail he hf => exact .inr (.inr ⟨_, _, rfl, rfl⟩)
  | @resume pid call p he => exact .inl (S.settle_unanswered pid p c.world)
  | pass n => exact .inl ⟨[], rfl, by simp⟩

/-- Where the log of a run from `s` was `earlier`, the query `q` was answered with `value`. -/
def AnsweredAt (s : σ) (moves : List (Move κ)) (earlier : List (Event I ε κ)) (q : I.Query)
    (value : I.Answer q) : Prop :=
  ∃ before m, before ++ [m] <+: moves ∧
    (S.run (Config.start s) before).world.log = earlier ∧
    S.answer q (S.run (Config.start s) before).world.state =
      (.ok value, (S.run (Config.start s) (before ++ [m])).world.state)

/-- Where the log of a run was `earlier`, the task was answered with `r`, or rejected. -/
def MomentOf (s : σ) (moves : List (Move κ)) (earlier : List (Event I ε κ)) (pid : Nat) (q : I.Query)
    (r : Except ε (I.Answer q)) : Prop :=
  ∃ before, (S.run (Config.start s) before).world.log = earlier ∧
    (before ++ [.answer pid] <+: moves ∧ S.answer q (S.run (Config.start s) before).world.state =
      (r, (S.run (Config.start s) (before ++ [.answer pid])).world.state) ∨
    before ++ [.fail pid] <+: moves ∧ r = .error S.fault)

/-- Each answer in the log of a run was brought by a move of its task, in a state whose log was
what lies below the entry. -/
theorem run_moment {s : σ} {moves : List (Move κ)} {pid : Nat} {q : I.Query}
    {r : Except ε (I.Answer q)} {later earlier : List (Event I ε κ)}
    (h : (S.run (Config.start s) moves).world.log = later ++ .answered pid q r :: earlier) :
    S.MomentOf s moves earlier pid q r := by
  induction moves using List.reverseRecOn generalizing later with
  | nil => simp [run, Config.start] at h
  | append_singleton front m ih =>
    have hrun : S.run (Config.start s) (front ++ [m]) = S.step (S.run (Config.start s) front) m :=
      S.run_append _ front [m]
    have hlonger : ∀ {later}, (S.run (Config.start s) front).world.log =
        later ++ .answered pid q r :: earlier → S.MomentOf s (front ++ [m]) earlier pid q r := by
      intro later hlog
      obtain ⟨before, hbefore, hmoment⟩ := ih hlog
      have hfirst := List.prefix_append front [m]
      exact ⟨before, hbefore, hmoment.imp (.imp_left (·.trans hfirst)) (.imp_left (·.trans hfirst))⟩
    rw [hrun] at h
    rcases S.step_answered (S.run (Config.start s) front) m with
      ⟨new, hlog, hnew⟩ | ⟨pid', q', rfl, hw⟩ | ⟨pid', q', rfl, hw⟩
    · -- The last move answered nobody, so the entry lies below what it logged.
      rw [h] at hlog
      rcases List.append_eq_append_iff.mp hlog with ⟨more, hmore, hrest⟩ | ⟨more, _, hrest⟩
      · cases more with
        | nil => exact @hlonger [] hrest.symm
        | cons e more =>
          obtain ⟨rfl, _⟩ := List.cons.inj hrest
          exact absurd rfl (hnew (.answered pid q r) (by simp [hmore]) pid q r)
      · exact hlonger hrest
    · rw [hw] at h
      cases later with
      | nil =>
        obtain ⟨hevent, hearlier⟩ := List.cons.inj h
        injection hevent with hpid hq hanswer
        subst hpid hq
        refine ⟨front, hearlier, .inl ⟨List.prefix_rfl, ?_⟩⟩
        rw [hrun, hw, ← eq_of_heq hanswer]
        rfl
      | cons e rest => exact hlonger (List.cons.inj h).2
    · rw [hw] at h
      cases later with
      | nil =>
        obtain ⟨hevent, hearlier⟩ := List.cons.inj h
        injection hevent with hpid hq hanswer
        subst hpid hq
        exact ⟨front, hearlier, .inr ⟨List.prefix_rfl, (eq_of_heq hanswer).symm⟩⟩
      | cons e rest => exact hlonger (List.cons.inj h).2

/-- **The move of an answer**: each value in the log of a run was brought by an answer to
its task, in a state whose log was what lies below the entry. -/
theorem run_answer {s : σ} {moves : List (Move κ)} {pid : Nat} {q : I.Query}
    {value : I.Answer q} {later earlier : List (Event I ε κ)}
    (h : (S.run (Config.start s) moves).world.log =
      later ++ .answered pid q (.ok value) :: earlier) :
    ∃ before, before ++ [.answer pid] <+: moves ∧
      (S.run (Config.start s) before).world.log = earlier ∧
      S.answer q (S.run (Config.start s) before).world.state =
        (.ok value, (S.run (Config.start s) (before ++ [.answer pid])).world.state) := by
  obtain ⟨before, hbefore, ⟨hfirst, hanswer⟩ | ⟨-, hfault⟩⟩ := S.run_moment h
  · exact ⟨before, hfirst, hbefore, hanswer⟩
  · cases hfault

/-- **The moment of an answer**: each value in the log of a run was answered somewhere
along the run, in a state whose log was what lies below the entry. -/
theorem run_answered {s : σ} {moves : List (Move κ)} {pid : Nat} {q : I.Query}
    {value : I.Answer q} {later earlier : List (Event I ε κ)}
    (h : (S.run (Config.start s) moves).world.log =
      later ++ .answered pid q (.ok value) :: earlier) :
    S.AnsweredAt s moves earlier q value := by
  obtain ⟨before, hfirst, hmoment⟩ := S.run_answer h
  exact ⟨before, .answer pid, hfirst, hmoment⟩

/-- A call arrives by the move that brings it. -/
theorem step_arrived {c : Config I σ ε κ α} {m : Move κ} {pid : Nat} {call : κ}
    (h : .arrived pid call ∈ (S.step c m).world.log) :
    .arrived pid call ∈ c.world.log ∨ m = .arrive call := by
  have hacted : ∀ {pid' : Nat} {p : Program I ε α} {w : World I σ ε κ},
      .arrived pid call ∈ (S.settle pid' p w).2.log → .arrived pid call ∈ w.log := by
    intro pid' p w h
    obtain ⟨new, hlog, hnew⟩ := S.settle_acted pid' p w
    rw [hlog, List.mem_append] at h
    refine h.resolve_left fun hmem => ?_
    obtain ⟨a, r, heq⟩ := hnew _ hmem
    cases heq
  have hstep := S.step_stepped c m
  generalize S.step c m = c' at hstep h
  cases hstep with
  | idle => exact .inl h
  | arrive ha =>
    rcases List.mem_cons.mp (hacted h) with heq | h
    · cases heq
      exact .inr rfl
    · exact .inl h
  | answer he =>
    rcases List.mem_cons.mp h with heq | h
    · cases heq
    · exact .inl h
  | fail he hf =>
    rcases List.mem_cons.mp h with heq | h
    · cases heq
    · exact .inl h
  | resume he => exact .inl (hacted h)
  | pass n => exact .inl h

/-- What holds of arrivals, of actions, of answers and of the faults there are holds of all
entries of the log. -/
theorem run_entries {P : Event I ε κ → Prop} (s : σ) (moves : List (Move κ))
    (harrived : ∀ pid call, P (.arrived pid call)) (hacted : ∀ pid a r, P (.acted pid a r))
    (hanswered : ∀ pid q t, P (.answered pid q (S.answer q t).1))
    (hfailed : ∀ pid q, .fail pid ∈ moves → S.fallible q = true → P (.answered pid q (.error S.fault))) :
    ∀ e ∈ (S.run (Config.start s) moves).world.log, P e := by
  induction moves using List.reverseRecOn with
  | nil => simp [run, Config.start]
  | append_singleton front m ih =>
    rw [S.run_append]
    have hfront := ih fun pid q h => hfailed pid q (List.mem_append_left _ h)
    show ∀ e ∈ (S.step (S.run (Config.start s) front) m).world.log, P e
    generalize S.run (Config.start s) front = c at hfront ⊢
    have hactions : ∀ {pid : Nat} {p : Program I ε α} {w : World I σ ε κ},
        (∀ e ∈ w.log, P e) → ∀ e ∈ (S.settle pid p w).2.log, P e := by
      intro pid p w hw e he
      obtain ⟨new, hlog, hnew⟩ := S.settle_acted pid p w
      rw [hlog, List.mem_append] at he
      rcases he with he | he
      · obtain ⟨a, r, rfl⟩ := hnew e he
        exact hacted pid a r
      · exact hw e he
    have hstep := S.step_stepped c m
    generalize S.step c m = c' at hstep ⊢
    cases hstep with
    | idle => exact hfront
    | arrive ha => exact hactions (List.forall_mem_cons.mpr ⟨harrived _ _, hfront⟩)
    | answer he => exact List.forall_mem_cons.mpr ⟨hanswered _ _ _, hfront⟩
    | fail he hf =>
      exact List.forall_mem_cons.mpr ⟨hfailed _ _ (List.mem_append_right _ (.head _)) hf, hfront⟩
    | resume he => exact hactions hfront
    | pass n => exact hfront

/-- An answer was given in some state, or it is a fault of a query that may fail. -/
def Answerable : Event I ε κ → Prop
  | .answered _ q r => (∃ t, r = (S.answer q t).1) ∨ S.fallible q = true ∧ r = .error S.fault
  | _ => True

theorem run_answerable (s : σ) (moves : List (Move κ)) :
    ∀ e ∈ (S.run (Config.start s) moves).world.log, S.Answerable e :=
  S.run_entries s moves (fun _ _ => trivial) (fun _ _ _ => trivial) (fun _ _ t => .inl ⟨t, rfl⟩)
    fun _ _ _ hf => .inr ⟨hf, rfl⟩

/-- An answer was given in some state. -/
def Given : Event I ε κ → Prop
  | .answered _ q r => ∃ t, r = (S.answer q t).1
  | _ => True

theorem run_given (s : σ) {moves : List (Move κ)} (h : ∀ pid, .fail pid ∉ moves) :
    ∀ e ∈ (S.run (Config.start s) moves).world.log, S.Given e :=
  S.run_entries s moves (fun _ _ => trivial) (fun _ _ _ => trivial) (fun _ _ t => ⟨t, rfl⟩)
    fun pid _ hfail _ => absurd hfail (h pid)

/-- The calls of a run, in order. -/
def calls (moves : List (Move κ)) : List κ :=
  moves.filterMap fun
    | .arrive call => some call
    | _ => none

/-- Where every call may arrive, the tasks are those of the calls. -/
theorem run_calls (haccept : ∀ call t, (S.accept call t).isSome = true) (c : Config I σ ε κ α)
    (moves : List (Move κ)) :
    (S.run c moves).tasks.map Entry.call = c.tasks.map Entry.call ++ calls moves := by
  have hset : ∀ {tasks : List (Entry I ε κ α)} {pid : Nat} {call : κ} {task task' : Task I ε α},
      tasks[pid]? = some ⟨call, task⟩ →
      (tasks.set pid ⟨call, task'⟩).map Entry.call = tasks.map Entry.call := by
    intro tasks pid call task task' he
    obtain ⟨hlt, heq⟩ := List.getElem?_eq_some_iff.mp he
    rw [List.map_set]
    refine (congrArg _ ?_).trans (List.set_getElem_self (by rwa [List.length_map]))
    rw [List.getElem_map, heq]
  induction moves generalizing c with
  | nil => exact (List.append_nil _).symm
  | cons m rest ih =>
    refine (ih (S.step c m)).trans ?_
    have hstep : (S.step c m).tasks.map Entry.call = c.tasks.map Entry.call ++ calls [m] := by
      have hstepped := S.step_stepped c m
      by_cases hm : ∃ call, m = .arrive call
      · obtain ⟨call, rfl⟩ := hm
        obtain ⟨t, ht⟩ := Option.isSome_iff_exists.mp (haccept call c.world.state)
        simp only [step, ht, List.map_append]
        rfl
      · have hnone : calls [m] = [] := by
          cases m with
          | arrive call => exact absurd ⟨call, rfl⟩ hm
          | _ => rfl
        rw [hnone, List.append_nil]
        generalize S.step c m = c' at hstepped ⊢
        cases hstepped with
        | idle => rfl
        | arrive ha => exact absurd ⟨_, rfl⟩ hm
        | answer he => exact hset he
        | fail he hf => exact hset he
        | resume he => exact hset he
        | pass n => rfl
    rw [hstep, List.append_assoc, calls, calls, ← List.filterMap_append]
    rfl

/-- The task of a call that has arrived is there. -/
def Present (c : Config I σ ε κ α) : Prop :=
  ∀ pid call, .arrived pid call ∈ c.world.log → ∃ task, c.tasks[pid]? = some ⟨call, task⟩

/-- A step that moves one task and logs no arrival. -/
theorem Present.move {c : Config I σ ε κ α} (h : Present c) {pid : Nat} {call : κ}
    {task task' : Task I ε α} (he : c.tasks[pid]? = some ⟨call, task⟩) {w : World I σ ε κ}
    (hlog : ∃ new, w.log = new ++ c.world.log ∧ ∀ e ∈ new, ∀ p k, e ≠ .arrived p k) :
    Present ⟨w, c.tasks.set pid ⟨call, task'⟩⟩ := by
  intro pid' call' hmem
  obtain ⟨new, hnew, hother⟩ := hlog
  rw [hnew, List.mem_append] at hmem
  obtain ⟨t, ht⟩ := h pid' call' (hmem.resolve_left fun hm => hother _ hm _ _ rfl)
  by_cases hpid : pid' = pid
  · subst hpid
    rw [he] at ht
    cases ht
    exact ⟨task', List.getElem?_set_self (List.getElem?_eq_some_iff.mp he).1⟩
  · exact ⟨t, by rw [List.getElem?_set_ne (Ne.symm hpid)]; exact ht⟩

theorem Present.step {c : Config I σ ε κ α} (h : Present c) (m : Move κ) :
    Present (S.step c m) := by
  have hacted : ∀ {new : List (Event I ε κ)} {pid : Nat}, (∀ e ∈ new, ∃ a r, e = .acted pid a r) →
      ∀ e ∈ new, ∀ p k, e ≠ .arrived p k := by
    intro new pid hnew e he p k h'
    subst h'
    obtain ⟨a, r, h⟩ := hnew _ he
    cases h
  have hstep := S.step_stepped c m
  generalize S.step c m = c' at hstep ⊢
  cases hstep with
  | idle => exact h
  | @arrive call s ha =>
    intro pid' call' hmem
    obtain ⟨new, hlog, hnew⟩ := S.settle_acted c.tasks.length (S.body call)
      (arrival c.tasks.length call s c.world)
    simp only [hlog, List.mem_append] at hmem
    rcases List.mem_cons.mp (hmem.resolve_left fun hm => hacted hnew _ hm _ _ rfl) with he | he
    · injection he with hpid hcall
      subst hpid hcall
      exact ⟨_, List.getElem?_concat_length⟩
    · obtain ⟨t, ht⟩ := h pid' call' he
      exact ⟨t, by rw [List.getElem?_append_left (List.getElem?_eq_some_iff.mp ht).1]; exact ht⟩
  | answer he => exact h.move he ⟨[_], rfl, by simp⟩
  | fail he hf => exact h.move he ⟨[_], rfl, by simp⟩
  | @resume pid call p he =>
    obtain ⟨new, hlog, hnew⟩ := S.settle_acted pid p c.world
    exact h.move he ⟨new, hlog, hacted hnew⟩
  | pass n => exact h

theorem Present.unique {c : Config I σ ε κ α} (h : Present c) {pid : Nat} {call call' : κ}
    (hc : .arrived pid call ∈ c.world.log) (hc' : .arrived pid call' ∈ c.world.log) :
    call = call' := by
  obtain ⟨task, ht⟩ := h pid call hc
  obtain ⟨task', ht'⟩ := h pid call' hc'
  rw [ht] at ht'
  cases ht'
  rfl

theorem Present.run {c : Config I σ ε κ α} (h : Present c) (moves : List (Move κ)) :
    Present (S.run c moves) := by
  induction moves generalizing c with
  | nil => exact h
  | cons m rest ih => exact ih (h.step S m)

theorem Present.start (s : σ) : Present (Config.start s : Config I σ ε κ α) := by
  intro pid call h
  simp [Config.start] at h

end System

end Async
