import Mathlib.Data.List.Forall2
import RealtimeChat.Async.Deeds

/-! Two systems over one state.

Two services that share a state are one system: calls of either kind arrive, and their
programs take turns. Where one of them only reads, the other does not notice it: it
takes exactly the steps it would take alone, one for one, with a call that does nothing
in the place of each call to the reader (`run_aside`). Whatever holds of every run of
the one service holds of it beside the other. -/
namespace Async

/-- The actions and queries of both. -/
def Interface.beside (I J : Interface) : Interface where
  Action := I.Action ⊕ J.Action
  Reply := Sum.elim I.Reply J.Reply
  Query := I.Query ⊕ J.Query
  Answer := Sum.elim I.Answer J.Answer

variable {I J : Interface} {σ ε κ κ' α β : Type}

namespace Program

/-- A program of the first service, and its result among those of both. -/
def left : Program I ε α → Program (I.beside J) ε (α ⊕ β)
  | .ret v => .ret (.inl v)
  | .raise e => .raise e
  | .act a next => .act (.inl a) fun r => (next r).left
  | .await q next => .await (.inl q) fun r => (next r).left

def right : Program J ε β → Program (I.beside J) ε (α ⊕ β)
  | .ret v => .ret (.inr v)
  | .raise e => .raise e
  | .act a next => .act (.inr a) fun r => (next r).right
  | .await q next => .await (.inr q) fun r => (next r).right

end Program

namespace Task

def left : Task I ε α → Task (I.beside J) ε (α ⊕ β)
  | .blocked q next => .blocked (.inl q) fun r => (next r).left
  | .ready p => .ready p.left
  | .done r => .done (r.map .inl)

def right : Task J ε β → Task (I.beside J) ε (α ⊕ β)
  | .blocked q next => .blocked (.inr q) fun r => (next r).right
  | .ready p => .ready p.right
  | .done r => .done (r.map .inr)

end Task

/-- Both services on the same state, in the same process. -/
def System.beside (S : System I σ ε κ α) (T : System J σ ε κ' β) :
    System (I.beside J) σ ε (κ ⊕ κ') (α ⊕ β) where
  act
    | .inl a => S.act a
    | .inr a => T.act a
  answer
    | .inl q => S.answer q
    | .inr q => T.answer q
  fallible := Sum.elim S.fallible T.fallible
  fault := S.fault
  accept := Sum.elim S.accept T.accept
  body := Sum.elim (fun call => (S.body call).left) fun call => (T.body call).right
  pass := S.pass

/-- A service that changes nothing, and whose requests may always arrive. -/
structure System.ReadOnly (T : System J σ ε κ' β) : Prop where
  act : ∀ a s, (T.act a s).2 = s
  answer : ∀ q s, (T.answer q s).2 = s
  accept : ∀ call s, T.accept call s = some s

/-- A call that does nothing. -/
structure System.Idles (S : System I σ ε κ α) (idle : κ) (r : Except ε α) : Prop where
  accept : ∀ s, S.accept idle s = some s
  body : S.body idle = Program.ofExcept r

/-! ### One of the two, read off both -/

section
variable (idle : κ)

/-- What the first service sees of a move. -/
def Move.aside : Move (κ ⊕ κ') → Move κ
  | .arrive (.inl call) => .arrive call
  | .arrive (.inr _) => .arrive idle
  | .answer pid => .answer pid
  | .fail pid => .fail pid
  | .resume pid => .resume pid
  | .pass n => .pass n

def Event.aside : Event (I.beside J) ε (κ ⊕ κ') → Option (Event I ε κ)
  | .arrived pid (.inl call) => some (.arrived pid call)
  | .arrived pid (.inr _) => some (.arrived pid idle)
  | .acted pid (.inl a) reply => some (.acted pid a reply)
  | .acted _ (.inr _) _ => none
  | .answered pid (.inl q) answer => some (.answered pid q answer)
  | .answered _ (.inr _) _ => none

/-- The tasks of the first service as they are alone, and a task that is done for each other. -/
inductive Entry.Aside (r : Except ε α) : Entry (I.beside J) ε (κ ⊕ κ') (α ⊕ β) → Entry I ε κ α → Prop
  | own (call : κ) (task : Task I ε α) : Aside r ⟨.inl call, task.left⟩ ⟨call, task⟩
  | other (call : κ') (task : Task J ε β) : Aside r ⟨.inr call, task.right⟩ ⟨idle, .done r⟩

structure World.Aside (w : World (I.beside J) σ ε (κ ⊕ κ')) (w' : World I σ ε κ) : Prop where
  state : w'.state = w.state
  log : w'.log = w.log.filterMap (Event.aside idle)

structure Config.Aside (r : Except ε α) (c : Config (I.beside J) σ ε (κ ⊕ κ') (α ⊕ β))
    (c' : Config I σ ε κ α) : Prop where
  world : World.Aside idle c.world c'.world
  tasks : List.Forall₂ (Entry.Aside idle r) c.tasks c'.tasks

end

namespace System
variable {S : System I σ ε κ α} {T : System J σ ε κ' β} {idle : κ} {r : Except ε α}

/-- A program of the first service does beside the other what it does alone. -/
theorem settle_left (pid : Nat) (p : Program I ε α) {w : World (I.beside J) σ ε (κ ⊕ κ')}
    {w' : World I σ ε κ} (hw : World.Aside idle w w') :
    ((S.beside T).settle pid p.left w).1 = (S.settle pid p w').1.left ∧
      World.Aside idle ((S.beside T).settle pid p.left w).2 (S.settle pid p w').2 := by
  induction p generalizing w w' with
  | ret v => exact ⟨rfl, hw⟩
  | raise e => exact ⟨rfl, hw⟩
  | await q next => exact ⟨rfl, hw⟩
  | act a next ih =>
    have hstate := hw.state
    have hperform : World.Aside idle ((S.beside T).perform pid (.inl a) w) (S.perform pid a w') := by
      refine ⟨congrArg (fun s => (S.act a s).2) hstate, ?_⟩
      show Event.acted pid a (S.act a w'.state).1 :: w'.log =
        .acted pid a (S.act a w.state).1 :: w.log.filterMap (Event.aside idle)
      rw [hstate, hw.log]
    have hnext := ih (S.act a w'.state).1 hperform
    rw [hstate] at hnext
    simp only [settle, Program.left, hstate]
    exact hnext

/-- A program of a reader leaves nothing that the first service could see. -/
theorem settle_right (hreads : T.ReadOnly) (pid : Nat) (p : Program J ε β)
    {w : World (I.beside J) σ ε (κ ⊕ κ')} {w' : World I σ ε κ} (hw : World.Aside idle w w') :
    (∃ task : Task J ε β, ((S.beside T).settle pid p.right w).1 = task.right) ∧
      World.Aside idle ((S.beside T).settle pid p.right w).2 w' := by
  induction p generalizing w with
  | ret v => exact ⟨⟨.done (.ok v), rfl⟩, hw⟩
  | raise e => exact ⟨⟨.done (.error e), rfl⟩, hw⟩
  | await q next => exact ⟨⟨.blocked q next, rfl⟩, hw⟩
  | act a next ih => exact ih _ ⟨hw.state.trans (hreads.act a w.state).symm, hw.log⟩

end System

/-! ### A run of both -/

theorem forall₂_getElem? {R : α → β → Prop} {as : List α} {bs : List β} (h : List.Forall₂ R as bs)
    (i : Nat) : Option.Rel R as[i]? bs[i]? := by
  induction h generalizing i with
  | nil => exact .none
  | cons hab h ih =>
    cases i with
    | zero => exact .some hab
    | succ i => exact ih i

theorem forall₂_set {R : α → β → Prop} {as : List α} {bs : List β} (h : List.Forall₂ R as bs)
    {i : Nat} {a : α} {b : β} (hab : R a b) : List.Forall₂ R (as.set i a) (bs.set i b) := by
  induction h generalizing i with
  | nil => exact .nil
  | cons hcd h ih =>
    cases i with
    | zero => exact .cons hab h
    | succ i => exact .cons hcd ih

/-- What moves while the first service stands still. -/
theorem forall₂_set_left {R : α → β → Prop} {as : List α} {bs : List β} (h : List.Forall₂ R as bs)
    {i : Nat} {a : α} {b : β} (hb : bs[i]? = some b) (hab : R a b) : List.Forall₂ R (as.set i a) bs := by
  have hset : bs.set i b = bs := by
    obtain ⟨hlt, rfl⟩ := List.getElem?_eq_some_iff.mp hb
    exact List.set_getElem_self hlt
  exact hset ▸ forall₂_set h hab

/-! ### What is read off -/

section
variable {idle : κ} {r : Except ε α} {c : Config (I.beside J) σ ε (κ ⊕ κ') (α ⊕ β)}
  {c' : Config I σ ε κ α}

theorem Config.Aside.start (s : σ) : Config.Aside idle r
    (Config.start s : Config (I.beside J) σ ε (κ ⊕ κ') (α ⊕ β)) (Config.start s : Config I σ ε κ α) :=
  ⟨⟨rfl, rfl⟩, .nil⟩

theorem Config.Aside.own (h : Config.Aside idle r c c') {pid : Nat} {call : κ}
    {task : Task (I.beside J) ε (α ⊕ β)} (he : c.tasks[pid]? = some ⟨.inl call, task⟩) :
    ∃ task', task = Task.left task' ∧ c'.tasks[pid]? = some ⟨call, task'⟩ := by
  have hentry := forall₂_getElem? h.tasks pid
  rw [he] at hentry
  generalize he' : c'.tasks[pid]? = entry' at hentry
  cases hentry with
  | some hentry =>
    cases hentry with
    | own call task => exact ⟨task, rfl, rfl⟩

theorem Config.Aside.done (h : Config.Aside idle r c c') {pid : Nat} {call : κ} {v : α}
    (he : c.tasks[pid]? = some ⟨.inl call, .done (.ok (.inl v))⟩) :
    c'.tasks[pid]? = some ⟨call, .done (.ok v)⟩ := by
  obtain ⟨task, htask, he'⟩ := h.own he
  rcases task with ⟨q, next⟩ | p | e | v'
  · cases htask
  · cases htask
  · cases htask
  · cases htask
    exact he'

/-- What the first service has logged has been logged of it. -/
theorem World.Aside.mem {w : World (I.beside J) σ ε (κ ⊕ κ')} {w' : World I σ ε κ}
    (h : World.Aside idle w w') {e : Event I ε κ} (hmem : e ∈ w'.log) :
    ∃ e' ∈ w.log, Event.aside idle e' = some e :=
  List.mem_filterMap.mp (h.log ▸ hmem)

theorem World.Aside.mem_arrived {w : World (I.beside J) σ ε (κ ⊕ κ')} {w' : World I σ ε κ}
    (h : World.Aside idle w w') {pid : Nat} {call : κ} (hcall : call ≠ idle)
    (hmem : .arrived pid call ∈ w'.log) : .arrived pid (.inl call) ∈ w.log := by
  obtain ⟨e, he, heq⟩ := h.mem hmem
  rcases e with ⟨pid', call' | call'⟩ | ⟨pid', a | a, reply⟩ | ⟨pid', q | q, answer⟩
  case arrived.inl =>
    cases heq
    exact he
  case arrived.inr =>
    cases heq
    exact absurd rfl hcall
  all_goals cases heq

theorem World.Aside.mem_answered {w : World (I.beside J) σ ε (κ ⊕ κ')} {w' : World I σ ε κ}
    (h : World.Aside idle w w') {pid : Nat} {q : I.Query} {answer : Except ε (I.Answer q)}
    (hmem : .answered pid q answer ∈ w'.log) : .answered pid (.inl q) answer ∈ w.log := by
  obtain ⟨e, he, heq⟩ := h.mem hmem
  rcases e with ⟨pid', call' | call'⟩ | ⟨pid', a | a, reply⟩ | ⟨pid', q' | q', answer'⟩
  case answered.inl =>
    cases heq
    exact he
  all_goals cases heq

end

namespace System
variable {S : System I σ ε κ α} {T : System J σ ε κ' β} {idle : κ} {r : Except ε α}
variable {c : Config (I.beside J) σ ε (κ ⊕ κ') (α ⊕ β)} {c' : Config I σ ε κ α}

@[simp] theorem beside_fallible_left (q : I.Query) :
    (S.beside T).fallible (.inl q) = S.fallible q := rfl

@[simp] theorem beside_accept_left (call : κ) : (S.beside T).accept (.inl call) = S.accept call := rfl

@[simp] theorem beside_accept_right (call : κ') : (S.beside T).accept (.inr call) = T.accept call := rfl

theorem settle_ofExcept (pid : Nat) (r : Except ε α) (w : World I σ ε κ) :
    S.settle pid (Program.ofExcept r) w = (.done r, w) := by
  cases r <;> rfl

theorem aside_answer (hreads : T.ReadOnly) (h : Config.Aside idle r c c') (pid : Nat) :
    Config.Aside idle r ((S.beside T).step c (.answer pid)) (S.step c' (.answer pid)) := by
  have hentry := forall₂_getElem? h.tasks pid
  generalize he : c.tasks[pid]? = entry at hentry
  generalize he' : c'.tasks[pid]? = entry' at hentry
  cases hentry with
  | none => simpa only [step, he, he'] using h
  | some hentry =>
    cases hentry with
    | own call task =>
      rcases task with ⟨q, next⟩ | p | result
      · have hstate := h.world.state
        simp only [step, he, he', Task.left]
        refine ⟨⟨congrArg (fun s => (S.answer q s).2) hstate, ?_⟩, ?_⟩
        · show Event.answered pid q (S.answer q c'.world.state).1 :: c'.world.log =
            .answered pid q (S.answer q c.world.state).1 :: c.world.log.filterMap (Event.aside idle)
          rw [hstate, h.world.log]
        · rw [hstate]
          exact forall₂_set h.tasks (.own call (.ready _))
      all_goals simpa only [step, he, he', Task.left] using h
    | other call task =>
      rcases task with ⟨q, next⟩ | p | result
      · simp only [step, he, he', Task.right]
        exact ⟨⟨h.world.state.trans (hreads.answer q c.world.state).symm, h.world.log⟩,
          forall₂_set_left h.tasks he' (.other call (.ready _))⟩
      all_goals simpa only [step, he, he', Task.right] using h

theorem aside_fail (h : Config.Aside idle r c c') (pid : Nat) :
    Config.Aside idle r ((S.beside T).step c (.fail pid)) (S.step c' (.fail pid)) := by
  have hentry := forall₂_getElem? h.tasks pid
  generalize he : c.tasks[pid]? = entry at hentry
  generalize he' : c'.tasks[pid]? = entry' at hentry
  cases hentry with
  | none => simpa only [step, he, he'] using h
  | some hentry =>
    cases hentry with
    | own call task =>
      rcases task with ⟨q, next⟩ | p | result
      · by_cases hf : S.fallible q = true
        · simp only [step, he, he', Task.left, beside_fallible_left, hf, if_true]
          refine ⟨⟨h.world.state, ?_⟩, forall₂_set h.tasks (.own call (.ready _))⟩
          show Event.answered pid q (.error S.fault) :: c'.world.log =
            .answered pid q (.error S.fault) :: c.world.log.filterMap (Event.aside idle)
          rw [h.world.log]
        · simpa only [step, he, he', Task.left, beside_fallible_left, hf, Bool.false_eq_true, if_false]
            using h
      all_goals simpa only [step, he, he', Task.left] using h
    | other call task =>
      rcases task with ⟨q, next⟩ | p | result
      · simp only [step, he, he', Task.right]
        split
        · exact ⟨⟨h.world.state, h.world.log⟩, forall₂_set_left h.tasks he' (.other call (.ready _))⟩
        · exact h
      all_goals simpa only [step, he, he', Task.right] using h

theorem aside_resume (hreads : T.ReadOnly) (h : Config.Aside idle r c c') (pid : Nat) :
    Config.Aside idle r ((S.beside T).step c (.resume pid)) (S.step c' (.resume pid)) := by
  have hentry := forall₂_getElem? h.tasks pid
  generalize he : c.tasks[pid]? = entry at hentry
  generalize he' : c'.tasks[pid]? = entry' at hentry
  cases hentry with
  | none => simpa only [step, he, he'] using h
  | some hentry =>
    cases hentry with
    | own call task =>
      rcases task with ⟨q, next⟩ | p | result
      case ready =>
        obtain ⟨htask, hworld⟩ := @settle_left _ _ _ _ _ _ _ _ S T idle pid p _ _ h.world
        simp only [step, he, he', Task.left, htask]
        exact ⟨hworld, forall₂_set h.tasks (.own call _)⟩
      all_goals simpa only [step, he, he', Task.left] using h
    | other call task =>
      rcases task with ⟨q, next⟩ | p | result
      case ready =>
        obtain ⟨⟨task, htask⟩, hworld⟩ := @settle_right _ _ _ _ _ _ _ _ S T idle hreads pid p _ _ h.world
        simp only [step, he, he', Task.right, htask]
        exact ⟨hworld, forall₂_set_left h.tasks he' (.other call task)⟩
      all_goals simpa only [step, he, he', Task.right] using h

theorem aside_arrive (hidle : S.Idles idle r) (hreads : T.ReadOnly) (h : Config.Aside idle r c c')
    (call : κ ⊕ κ') : Config.Aside idle r ((S.beside T).step c (.arrive call))
      (S.step c' (Move.aside idle (.arrive call))) := by
  have hlength : c'.tasks.length = c.tasks.length := h.tasks.length_eq.symm
  rcases call with call | call
  · have hstate := h.world.state
    cases ha : S.accept call c.world.state with
    | none => simpa only [step, Move.aside, beside_accept_left, hstate, ha] using h
    | some s =>
      have harrived : World.Aside idle (arrival c.tasks.length (.inl call) s c.world)
          (arrival c.tasks.length call s c'.world) := by
        refine ⟨rfl, ?_⟩
        show Event.arrived c.tasks.length call :: c'.world.log =
          .arrived c.tasks.length call :: c.world.log.filterMap (Event.aside idle)
        rw [h.world.log]
      obtain ⟨htask, hworld⟩ :=
        @settle_left _ _ _ _ _ _ _ _ S T idle c.tasks.length (S.body call) _ _ harrived
      simp only [step, Move.aside, beside_accept_left, hstate, ha, hlength]
      exact ⟨hworld, List.rel_append h.tasks (.cons (htask.symm ▸ .own call _) .nil)⟩
  · have harrived : World.Aside idle (arrival c.tasks.length (.inr call) c.world.state c.world)
        (arrival c.tasks.length idle c'.world.state c'.world) := by
      refine ⟨h.world.state, ?_⟩
      show Event.arrived c.tasks.length idle :: c'.world.log =
        .arrived c.tasks.length idle :: c.world.log.filterMap (Event.aside idle)
      rw [h.world.log]
    obtain ⟨⟨task, htask⟩, hworld⟩ :=
      @settle_right _ _ _ _ _ _ _ _ S T idle hreads c.tasks.length (T.body call) _ _ harrived
    simp only [step, Move.aside, beside_accept_right, hreads.accept, hidle.accept, hidle.body, hlength,
      settle_ofExcept]
    exact ⟨hworld, List.rel_append h.tasks (.cons (htask.symm ▸ .other call task) .nil)⟩

theorem aside_step (hidle : S.Idles idle r) (hreads : T.ReadOnly) (h : Config.Aside idle r c c')
    (m : Move (κ ⊕ κ')) :
    Config.Aside idle r ((S.beside T).step c m) (S.step c' (m.aside idle)) := by
  cases m with
  | arrive call => exact aside_arrive hidle hreads h call
  | answer pid => exact aside_answer hreads h pid
  | fail pid => exact aside_fail h pid
  | resume pid => exact aside_resume hreads h pid
  | pass n => exact ⟨⟨congrArg (S.pass n) h.world.state, h.world.log⟩, h.tasks⟩

/-- **A service beside a reader takes exactly the steps it takes alone**, one for one: whatever
the order of the moves, the first service is where its own moves would have brought it. -/
theorem run_aside (hidle : S.Idles idle r) (hreads : T.ReadOnly) (h : Config.Aside idle r c c')
    (moves : List (Move (κ ⊕ κ'))) :
    Config.Aside idle r ((S.beside T).run c moves) (S.run c' (moves.map (Move.aside idle))) := by
  induction moves generalizing c c' with
  | nil => exact h
  | cons m rest ih => exact ih (aside_step hidle hreads h m)

end System

end Async
