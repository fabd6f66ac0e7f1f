import RealtimeChat.Async.Program

/-! Many programs over one state, in every order the event loop allows.

A `System` says what actions and queries do to the shared state, which calls may
arrive and which program each one runs. The program of an arriving call runs at
once up to its first `await`; from then on it moves only by two kinds of step: its
query is *answered* (the query takes effect on the state, or is rejected and
takes none), and later it is *resumed* with that answer and runs up to its next
`await`. Between any two steps of one task, any steps of others may happen.

Everything that happens is logged, latest first, so that a condition on the order
of steps is a condition on the log. A move that is not enabled changes nothing:
a run is then any list of moves (`run`). -/
namespace Async

/-- What happened, and to which task. Tasks are numbered in order of arrival. -/
inductive Event (I : Interface) (ε κ : Type) where
  | arrived (pid : Nat) (call : κ)
  | acted (pid : Nat) (a : I.Action) (reply : I.Reply a)
  | answered (pid : Nat) (q : I.Query) (answer : Except ε (I.Answer q))

def Event.pid {I : Interface} {ε κ : Type} : Event I ε κ → Nat
  | .arrived pid _ => pid
  | .acted pid _ _ => pid
  | .answered pid _ _ => pid

/-- The calls that have arrived. -/
def arrivals {I : Interface} {ε κ : Type} (log : List (Event I ε κ)) : List κ :=
  log.filterMap fun
    | .arrived _ call => some call
    | _ => none

theorem mem_arrivals {I : Interface} {ε κ : Type} {log : List (Event I ε κ)} {pid : Nat}
    {call : κ} (h : .arrived pid call ∈ log) : call ∈ arrivals log :=
  List.mem_filterMap.mpr ⟨_, h, rfl⟩

/-- The shared state and everything that has happened, latest first. -/
structure World (I : Interface) (σ ε κ : Type) where
  state : σ
  log : List (Event I ε κ)

/-- What the surroundings of the programs do. -/
structure System (I : Interface) (σ ε κ α : Type) where
  act : (a : I.Action) → σ → I.Reply a × σ
  answer : (q : I.Query) → σ → Except ε (I.Answer q) × σ
  /-- Whether a query may be rejected without having had any effect, and with what. -/
  fallible : I.Query → Bool
  fault : ε
  /-- Whether a call may arrive, and what its arrival does to the state. -/
  accept : κ → σ → Option σ
  body : κ → Program I ε α
  /-- Time passing. -/
  pass : Nat → σ → σ

inductive Task (I : Interface) (ε α : Type) where
  /-- Awaiting the answer to a query. -/
  | blocked (q : I.Query) (next : Except ε (I.Answer q) → Program I ε α)
  /-- Answered, and not yet resumed. -/
  | ready (p : Program I ε α)
  | done (result : Except ε α)

def Task.isDone {I : Interface} {ε α : Type} : Task I ε α → Bool
  | .done _ => true
  | _ => false

structure Entry (I : Interface) (ε κ α : Type) where
  call : κ
  task : Task I ε α

structure Config (I : Interface) (σ ε κ α : Type) where
  world : World I σ ε κ
  tasks : List (Entry I ε κ α)

inductive Move (κ : Type) where
  | arrive (call : κ)
  | answer (pid : Nat)
  | fail (pid : Nat)
  | resume (pid : Nat)
  | pass (n : Nat)

variable {I : Interface} {σ ε κ α : Type}

/-- The next queries of the task, so many of them, are answered, and it goes on with each answer. -/
def Move.rounds (pid n : Nat) : List (Move κ) := (List.replicate n [.answer pid, .resume pid]).flatten

/-- No task yet. -/
def Config.start (s : σ) : Config I σ ε κ α := ⟨⟨s, []⟩, []⟩

namespace System
variable (S : System I σ ε κ α)

/-- An action of the task `pid`, carried out. -/
def perform (pid : Nat) (a : I.Action) (w : World I σ ε κ) : World I σ ε κ :=
  ⟨(S.act a w.state).2, .acted pid a (S.act a w.state).1 :: w.log⟩

/-- A query of the task `pid`, answered. -/
def respond (pid : Nat) (q : I.Query) (w : World I σ ε κ) : World I σ ε κ :=
  ⟨(S.answer q w.state).2, .answered pid q (S.answer q w.state).1 :: w.log⟩

/-- A query of the task `pid`, rejected. -/
def reject (pid : Nat) (q : I.Query) (w : World I σ ε κ) : World I σ ε κ :=
  ⟨w.state, .answered pid q (.error S.fault) :: w.log⟩

/-- Run a program up to its next `await`. -/
def settle (pid : Nat) : Program I ε α → World I σ ε κ → Task I ε α × World I σ ε κ
  | .ret v, w => (.done (.ok v), w)
  | .raise e, w => (.done (.error e), w)
  | .act a next, w => settle pid (next (S.act a w.state).1) (S.perform pid a w)
  | .await q next, w => (.blocked q next, w)

/-- The world after a call has been accepted, before its program runs. -/
def arrival (pid : Nat) (call : κ) (s : σ) (w : World I σ ε κ) : World I σ ε κ :=
  ⟨s, .arrived pid call :: w.log⟩

def step (c : Config I σ ε κ α) : Move κ → Config I σ ε κ α
  | .arrive call =>
    match S.accept call c.world.state with
    | none => c
    | some s =>
      let settled := S.settle c.tasks.length (S.body call)
        (arrival c.tasks.length call s c.world)
      ⟨settled.2, c.tasks ++ [⟨call, settled.1⟩]⟩
  | .answer pid =>
    match c.tasks[pid]? with
    | some ⟨call, .blocked q next⟩ =>
      ⟨S.respond pid q c.world,
        c.tasks.set pid ⟨call, .ready (next (S.answer q c.world.state).1)⟩⟩
    | _ => c
  | .fail pid =>
    match c.tasks[pid]? with
    | some ⟨call, .blocked q next⟩ =>
      if S.fallible q then
        ⟨S.reject pid q c.world, c.tasks.set pid ⟨call, .ready (next (.error S.fault))⟩⟩
      else c
    | _ => c
  | .resume pid =>
    match c.tasks[pid]? with
    | some ⟨call, .ready p⟩ =>
      let settled := S.settle pid p c.world
      ⟨settled.2, c.tasks.set pid ⟨call, settled.1⟩⟩
    | _ => c
  | .pass n => ⟨⟨S.pass n c.world.state, c.world.log⟩, c.tasks⟩

/-- The task has a step to take. -/
def enabled (c : Config I σ ε κ α) : Move κ → Bool
  | .answer pid => match c.tasks[pid]? with
    | some ⟨_, .blocked _ _⟩ => true
    | _ => false
  | .fail pid => match c.tasks[pid]? with
    | some ⟨_, .blocked q _⟩ => S.fallible q
    | _ => false
  | .resume pid => match c.tasks[pid]? with
    | some ⟨_, .ready _⟩ => true
    | _ => false
  | _ => false

/-- What a move can come to. -/
inductive Stepped (c : Config I σ ε κ α) : Move κ → Config I σ ε κ α → Prop where
  | idle {m : Move κ} (hm : S.enabled c m = false) : Stepped c m c
  | arrive {call : κ} {s : σ} (ha : S.accept call c.world.state = some s) :
    Stepped c (.arrive call)
      ⟨(S.settle c.tasks.length (S.body call) (arrival c.tasks.length call s c.world)).2,
        c.tasks ++ [⟨call, (S.settle c.tasks.length (S.body call)
          (arrival c.tasks.length call s c.world)).1⟩]⟩
  | answer {pid : Nat} {call : κ} {q : I.Query} {next : Except ε (I.Answer q) → Program I ε α}
    (he : c.tasks[pid]? = some ⟨call, .blocked q next⟩) :
    Stepped c (.answer pid) ⟨S.respond pid q c.world,
      c.tasks.set pid ⟨call, .ready (next (S.answer q c.world.state).1)⟩⟩
  | fail {pid : Nat} {call : κ} {q : I.Query} {next : Except ε (I.Answer q) → Program I ε α}
    (he : c.tasks[pid]? = some ⟨call, .blocked q next⟩) (hf : S.fallible q = true) :
    Stepped c (.fail pid)
      ⟨S.reject pid q c.world, c.tasks.set pid ⟨call, .ready (next (.error S.fault))⟩⟩
  | resume {pid : Nat} {call : κ} {p : Program I ε α}
    (he : c.tasks[pid]? = some ⟨call, .ready p⟩) :
    Stepped c (.resume pid)
      ⟨(S.settle pid p c.world).2, c.tasks.set pid ⟨call, (S.settle pid p c.world).1⟩⟩
  | pass (n : Nat) : Stepped c (.pass n) ⟨⟨S.pass n c.world.state, c.world.log⟩, c.tasks⟩

theorem step_stepped (c : Config I σ ε κ α) (m : Move κ) : S.Stepped c m (S.step c m) := by
  cases m with
  | arrive call =>
    simp only [step]
    cases ha : S.accept call c.world.state with
    | none => exact .idle rfl
    | some s => exact .arrive ha
  | answer pid =>
    simp only [step]
    rcases he : c.tasks[pid]? with _ | ⟨call, ⟨q, next⟩ | p | r⟩
    · exact .idle (by rw [enabled, he])
    · exact .answer he
    · exact .idle (by rw [enabled, he])
    · exact .idle (by rw [enabled, he])
  | fail pid =>
    simp only [step]
    rcases he : c.tasks[pid]? with _ | ⟨call, ⟨q, next⟩ | p | r⟩
    · exact .idle (by rw [enabled, he])
    · simp only
      split
      · exact .fail he ‹_›
      · rename_i hf
        refine .idle ?_
        simp only [enabled, he]
        exact Bool.eq_false_iff.mpr hf
    · exact .idle (by rw [enabled, he])
    · exact .idle (by rw [enabled, he])
  | resume pid =>
    simp only [step]
    rcases he : c.tasks[pid]? with _ | ⟨call, ⟨q, next⟩ | p | r⟩
    · exact .idle (by rw [enabled, he])
    · exact .idle (by rw [enabled, he])
    · exact .resume he
    · exact .idle (by rw [enabled, he])
  | pass n => exact .pass n

def run (c : Config I σ ε κ α) : List (Move κ) → Config I σ ε κ α
  | [] => c
  | m :: rest => run (S.step c m) rest

theorem run_append (c : Config I σ ε κ α) (a b : List (Move κ)) :
    S.run c (a ++ b) = S.run (S.run c a) b := by
  induction a generalizing c with
  | nil => rfl
  | cons m rest ih => exact ih _

/-! ### The log only grows -/

/-- Running a program up to its next `await` logs its actions, and nothing else. -/
theorem settle_acted (pid : Nat) (p : Program I ε α) (w : World I σ ε κ) :
    ∃ new, (S.settle pid p w).2.log = new ++ w.log ∧ ∀ e ∈ new, ∃ a r, e = .acted pid a r := by
  induction p generalizing w with
  | ret v => exact ⟨[], rfl, by simp⟩
  | raise e => exact ⟨[], rfl, by simp⟩
  | await q next => exact ⟨[], rfl, by simp⟩
  | act a next ih =>
    obtain ⟨new, hlog, hnew⟩ := ih (S.act a w.state).1 (S.perform pid a w)
    refine ⟨new ++ [.acted pid a (S.act a w.state).1], ?_, ?_⟩
    · rw [settle, hlog, List.append_assoc]
      rfl
    · intro e he
      rcases List.mem_append.mp he with he | he
      · exact hnew e he
      · exact ⟨a, _, List.mem_singleton.mp he⟩

theorem settle_log (pid : Nat) (p : Program I ε α) (w : World I σ ε κ) :
    ∃ new, (S.settle pid p w).2.log = new ++ w.log ∧ ∀ e ∈ new, e.pid = pid := by
  obtain ⟨new, hlog, hnew⟩ := S.settle_acted pid p w
  refine ⟨new, hlog, fun e he => ?_⟩
  obtain ⟨a, r, rfl⟩ := hnew e he
  rfl

theorem mem_settle {pid : Nat} {p : Program I ε α} {w : World I σ ε κ} {e : Event I ε κ}
    (h : e ∈ w.log) : e ∈ (S.settle pid p w).2.log := by
  obtain ⟨new, hlog, -⟩ := S.settle_log pid p w
  rw [hlog]
  exact List.mem_append_right new h

theorem step_log (c : Config I σ ε κ α) (m : Move κ) :
    ∃ new, (S.step c m).world.log = new ++ c.world.log := by
  have hstep := S.step_stepped c m
  generalize S.step c m = c' at hstep ⊢
  cases hstep with
  | idle => exact ⟨[], rfl⟩
  | @arrive call s ha =>
    obtain ⟨new, hlog, _⟩ := S.settle_log c.tasks.length (S.body call)
      (arrival c.tasks.length call s c.world)
    refine ⟨new ++ [.arrived c.tasks.length call], ?_⟩
    rw [hlog, List.append_assoc]
    rfl
  | answer he => exact ⟨[_], rfl⟩
  | fail he hf => exact ⟨[_], rfl⟩
  | @resume pid call p he =>
    obtain ⟨new, hlog, _⟩ := S.settle_log pid p c.world
    exact ⟨new, hlog⟩
  | pass n => exact ⟨[], rfl⟩

theorem run_log (c : Config I σ ε κ α) (moves : List (Move κ)) :
    ∃ new, (S.run c moves).world.log = new ++ c.world.log := by
  induction moves generalizing c with
  | nil => exact ⟨[], rfl⟩
  | cons m rest ih =>
    obtain ⟨later, hlater⟩ := ih (S.step c m)
    obtain ⟨new, hnew⟩ := S.step_log c m
    exact ⟨later ++ new, by rw [run, hlater, hnew, List.append_assoc]⟩

end System

end Async
