import RealtimeChat.Async.Trace

/-! What one task has done.

The log mixes the entries of all tasks. Those of one task, taken by themselves, are
a way through its program, whatever others did in between. A `Law` says after which
deeds of its own a task may do the next; that a program `Obeys` it is checked by
recursion on the program, and then every task obeys it in every run
(`Obedient.run`). -/
namespace Async
variable {I : Interface} {σ ε κ α β γ : Type}

/-- An entry of the log, without the task it belongs to. -/
inductive Deed (I : Interface) (ε : Type) where
  | acted (a : I.Action) (reply : I.Reply a)
  | answered (q : I.Query) (answer : Except ε (I.Answer q))

def Event.deed : Event I ε κ → Option (Deed I ε)
  | .arrived _ _ => none
  | .acted _ a r => some (.acted a r)
  | .answered _ q r => some (.answered q r)

/-- What the task has done, latest first. -/
def deeds (pid : Nat) (log : List (Event I ε κ)) : List (Deed I ε) :=
  (log.filter fun e => e.pid == pid).filterMap Event.deed

theorem deeds_append (pid : Nat) (new log : List (Event I ε κ)) :
    deeds pid (new ++ log) = deeds pid new ++ deeds pid log := by
  rw [deeds, List.filter_append, List.filterMap_append]
  rfl

theorem deeds_cons_self {pid : Nat} {e : Event I ε κ} (h : e.pid = pid) (log : List (Event I ε κ)) :
    deeds pid (e :: log) = e.deed.toList ++ deeds pid log := by
  rw [deeds, List.filter_cons_of_pos (by simpa using h), List.filterMap_cons]
  cases e.deed <;> rfl

theorem deeds_cons_other {pid : Nat} {e : Event I ε κ} (h : e.pid ≠ pid) (log : List (Event I ε κ)) :
    deeds pid (e :: log) = deeds pid log := by
  rw [deeds, List.filter_cons_of_neg (by simpa using h)]
  rfl

@[simp] theorem deeds_acted (pid : Nat) (a : I.Action) (r : I.Reply a) (log : List (Event I ε κ)) :
    deeds pid (.acted pid a r :: log) = .acted a r :: deeds pid log :=
  deeds_cons_self rfl log

@[simp] theorem deeds_answered (pid : Nat) (q : I.Query) (r : Except ε (I.Answer q))
    (log : List (Event I ε κ)) :
    deeds pid (.answered pid q r :: log) = .answered q r :: deeds pid log :=
  deeds_cons_self rfl log

@[simp] theorem deeds_arrived (pid pid' : Nat) (call : κ) (log : List (Event I ε κ)) :
    deeds pid (.arrived pid' call :: log) = deeds pid log := by
  by_cases h : pid' = pid
  · exact deeds_cons_self (e := .arrived pid' call) h log
  · exact deeds_cons_other (e := .arrived pid' call) h log

/-- Others' entries do not count. -/
theorem deeds_others {pid : Nat} {new : List (Event I ε κ)} (h : ∀ e ∈ new, e.pid ≠ pid)
    (log : List (Event I ε κ)) : deeds pid (new ++ log) = deeds pid log := by
  induction new with
  | nil => rfl
  | cons e rest ih =>
    rw [List.cons_append, deeds_cons_other (h e (.head _))]
    exact ih fun e he => h e (.tail _ he)

theorem mem_deeds {pid : Nat} {d : Deed I ε} {log : List (Event I ε κ)} :
    d ∈ deeds pid log ↔ ∃ e ∈ log, e.pid = pid ∧ e.deed = some d := by
  simp only [deeds, List.mem_filterMap, List.mem_filter, beq_iff_eq, and_assoc]

theorem mem_deeds_acted {pid : Nat} {a : I.Action} {r : I.Reply a} {log : List (Event I ε κ)} :
    .acted a r ∈ deeds pid log ↔ .acted pid a r ∈ log := by
  rw [mem_deeds]
  constructor
  · intro h
    obtain ⟨e, hmem, rfl, hdeed⟩ := h
    cases e with
    | acted pid' a' r' =>
      cases hdeed
      exact hmem
    | _ => cases hdeed
  · exact fun h => ⟨_, h, rfl, rfl⟩

theorem mem_deeds_answered {pid : Nat} {q : I.Query} {r : Except ε (I.Answer q)}
    {log : List (Event I ε κ)} : .answered q r ∈ deeds pid log ↔ .answered pid q r ∈ log := by
  rw [mem_deeds]
  constructor
  · intro h
    obtain ⟨e, hmem, rfl, hdeed⟩ := h
    cases e with
    | answered pid' q' r' =>
      cases hdeed
      exact hmem
    | _ => cases hdeed
  · exact fun h => ⟨_, h, rfl, rfl⟩

/-! ### Laws -/

/-- After which deeds of its own, latest first, a task may do the next. -/
abbrev Law (I : Interface) (ε : Type) := List (Deed I ε) → Deed I ε → Prop

/-- Every deed was allowed when it was done. -/
def Lawful (L : Law I ε) : List (Deed I ε) → Prop
  | [] => True
  | d :: before => L before d ∧ Lawful L before

theorem Lawful.at {L : Law I ε} {later before : List (Deed I ε)} {d : Deed I ε}
    (h : Lawful L (later ++ d :: before)) : L before d ∧ Lawful L before := by
  induction later with
  | nil => exact h
  | cons d' rest ih => exact ih h.2

/-- Nothing is done after a deed after which the law allows nothing. -/
theorem Lawful.last {L : Law I ε} {later before : List (Deed I ε)} {d : Deed I ε}
    (h : Lawful L (later ++ d :: before)) (hlast : ∀ d', ¬ L (d :: before) d') : later = [] := by
  rcases List.eq_nil_or_concat later with hnil | ⟨front, d', rfl⟩
  · exact hnil
  · rw [List.concat_eq_append, List.append_assoc, List.singleton_append] at h
    exact absurd h.at.1 (hlast d')

namespace Program

/-- Whatever it is replied and answered, the program, having done `before`, goes on by the
law and ends only as `E` says of all that it has done and of its result. -/
def Obeys (L : Law I ε) (E : List (Deed I ε) → Except ε α → Prop) :
    Program I ε α → List (Deed I ε) → Prop
  | .ret v, before => E before (.ok v)
  | .raise e, before => E before (.error e)
  | .act a next, before => ∀ r, L before (.acted a r) ∧ (next r).Obeys L E (.acted a r :: before)
  | .await q next, before =>
    ∀ r, L before (.answered q r) ∧ (next r).Obeys L E (.answered q r :: before)

variable {L : Law I ε} {E E' : List (Deed I ε) → Except ε α → Prop} {before : List (Deed I ε)}

theorem Obeys.mono {p : Program I ε α} (h : p.Obeys L E before)
    (hE : ∀ before r, E before r → E' before r) : p.Obeys L E' before := by
  induction p generalizing before with
  | ret v => exact hE _ _ h
  | raise e => exact hE _ _ h
  | act a next ih => exact fun r => ⟨(h r).1, ih r (h r).2⟩
  | await q next ih => exact fun r => ⟨(h r).1, ih r (h r).2⟩

theorem obeys_bind {p : Program I ε γ} {f : γ → Program I ε α} :
    (p.bind f).Obeys L E before ↔ p.Obeys L (fun before r => match r with
      | .ok v => (f v).Obeys L E before
      | .error e => E before (.error e)) before := by
  induction p generalizing before with
  | ret v => exact Iff.rfl
  | raise e => exact Iff.rfl
  | act a next ih => exact forall_congr' fun r => and_congr_right fun _ => ih r
  | await q next ih => exact forall_congr' fun r => and_congr_right fun _ => ih r

theorem obeys_tryCatch {p : Program I ε α} {f : ε → Program I ε α} :
    (p.tryCatch f).Obeys L E before ↔ p.Obeys L (fun before r => match r with
      | .ok v => E before (.ok v)
      | .error e => (f e).Obeys L E before) before := by
  induction p generalizing before with
  | ret v => exact Iff.rfl
  | raise e => exact Iff.rfl
  | act a next ih => exact forall_congr' fun r => and_congr_right fun _ => ih r
  | await q next ih => exact forall_congr' fun r => and_congr_right fun _ => ih r

theorem obeys_query {q : I.Query} {E : List (Deed I ε) → Except ε (I.Answer q) → Prop} :
    (query q : Program I ε _).Obeys L E before ↔
      ∀ r, L before (.answered q r) ∧ E (.answered q r :: before) r := by
  refine forall_congr' fun r => and_congr_right fun _ => ?_
  cases r <;> exact Iff.rfl

/-- Where the law allows a program's actions and queries at any time. -/
theorem Obeys.of_within {A : I.Action → Prop} {B : I.Query → Prop} {p : Program I ε α}
    (hp : p.Within A B) (hact : ∀ before a r, A a → L before (.acted a r))
    (hanswer : ∀ before q r, B q → L before (.answered q r)) :
    p.Obeys L (fun _ _ => True) before := by
  induction p generalizing before with
  | ret v => trivial
  | raise e => trivial
  | act a next ih => exact fun r => ⟨hact before a r hp.1, ih r (hp.2 r)⟩
  | await q next ih => exact fun r => ⟨hanswer before q r hp.1, ih r (hp.2 r)⟩

/-- What comes before is free, and only what comes after it counts. -/
theorem Obeys.bind_of {p : Program I ε γ} {f : γ → Program I ε α}
    (hf : ∀ v before, (f v).Obeys (fun _ _ => True) E before)
    (he : ∀ e before, E before (.error e)) : (p.bind f).Obeys (fun _ _ => True) E before := by
  induction p generalizing before with
  | ret v => exact hf v before
  | raise e => exact he e before
  | act a next ih => exact fun r => ⟨trivial, ih r⟩
  | await q next ih => exact fun r => ⟨trivial, ih r⟩

end Program

/-! ### In every run -/

/-- What is still to come of a task obeys the law. -/
def Task.Obeys (L : Law I ε) (E : List (Deed I ε) → Except ε α → Prop) :
    Task I ε α → List (Deed I ε) → Prop
  | .blocked q next, before => (Program.await q next).Obeys L E before
  | .ready p, before => p.Obeys L E before
  | .done r, before => E before r

namespace System
variable (S : System I σ ε κ α) {L : κ → Law I ε} {E : κ → List (Deed I ε) → Except ε α → Prop}

/-- Running a program up to its next `await`, by its law. -/
theorem settle_obeys {L : Law I ε} {E : List (Deed I ε) → Except ε α → Prop} {pid : Nat}
    {p : Program I ε α} {w : World I σ ε κ} (h : p.Obeys L E (deeds pid w.log))
    (hbefore : Lawful L (deeds pid w.log)) :
    Lawful L (deeds pid (S.settle pid p w).2.log) ∧
      (S.settle pid p w).1.Obeys L E (deeds pid (S.settle pid p w).2.log) := by
  induction p generalizing w with
  | ret v => exact ⟨hbefore, h⟩
  | raise e => exact ⟨hbefore, h⟩
  | await q next => exact ⟨hbefore, h⟩
  | act a next ih =>
    obtain ⟨hlaw, hnext⟩ := h (S.act a w.state).1
    have hdeeds : deeds pid (S.perform pid a w).log =
        .acted a (S.act a w.state).1 :: deeds pid w.log := deeds_acted pid a _ w.log
    apply ih
    · rw [hdeeds]
      exact hnext
    · rw [hdeeds]
      exact ⟨hlaw, hbefore⟩

/-- Every task is one of a call that has arrived, has done what its law allows, and will
go on so. -/
structure Obedient (L : κ → Law I ε) (E : κ → List (Deed I ε) → Except ε α → Prop)
    (c : Config I σ ε κ α) : Prop where
  numbered : ∀ e ∈ c.world.log, e.pid < c.tasks.length
  arrived : ∀ (pid : Nat) entry, c.tasks[pid]? = some entry → .arrived pid entry.call ∈ c.world.log
  lawful : ∀ (pid : Nat) entry, c.tasks[pid]? = some entry →
    Lawful (L entry.call) (deeds pid c.world.log)
  obeys : ∀ (pid : Nat) entry, c.tasks[pid]? = some entry →
    entry.task.Obeys (L entry.call) (E entry.call) (deeds pid c.world.log)

/-- A step that moves the task `pid`, and in which only that task does something. -/
theorem Obedient.move {c : Config I σ ε κ α} (h : Obedient L E c) {pid : Nat} {call : κ}
    {task task' : Task I ε α} (he : c.tasks[pid]? = some ⟨call, task⟩) {w : World I σ ε κ}
    (hlog : ∃ new, w.log = new ++ c.world.log ∧ ∀ e ∈ new, e.pid = pid)
    (hlawful : Lawful (L call) (deeds pid w.log))
    (hobeys : task'.Obeys (L call) (E call) (deeds pid w.log)) :
    Obedient L E ⟨w, c.tasks.set pid ⟨call, task'⟩⟩ := by
  obtain ⟨new, hnew, hpid⟩ := hlog
  have hlt : pid < c.tasks.length := (List.getElem?_eq_some_iff.mp he).1
  have hentry : ∀ {other : Nat} {entry}, (c.tasks.set pid ⟨call, task'⟩)[other]? = some entry →
      (other = pid ∧ entry = ⟨call, task'⟩) ∨
        (c.tasks[other]? = some entry ∧ deeds other w.log = deeds other c.world.log) := by
    intro other entry h'
    by_cases hother : other = pid
    · subst hother
      rw [List.getElem?_set_self hlt] at h'
      exact .inl ⟨rfl, (Option.some.inj h').symm⟩
    · rw [List.getElem?_set_ne (Ne.symm hother)] at h'
      refine .inr ⟨h', ?_⟩
      rw [hnew, deeds_others]
      intro e hmem
      rw [hpid e hmem]
      exact Ne.symm hother
  refine ⟨fun e hmem => ?_, fun other entry h' => ?_, fun other entry h' => ?_,
    fun other entry h' => ?_⟩
  · rw [List.length_set]
    rw [hnew, List.mem_append] at hmem
    rcases hmem with hmem | hmem
    · rw [hpid e hmem]
      exact hlt
    · exact h.numbered e hmem
  · rw [hnew]
    apply List.mem_append_right
    rcases hentry h' with ⟨rfl, rfl⟩ | ⟨h', _⟩
    · have harrived := h.arrived other _ he
      exact harrived
    · exact h.arrived other entry h'
  · rcases hentry h' with ⟨rfl, rfl⟩ | ⟨h', hsame⟩
    · exact hlawful
    · rw [hsame]
      exact h.lawful other entry h'
  · rcases hentry h' with ⟨rfl, rfl⟩ | ⟨h', hsame⟩
    · exact hobeys
    · rw [hsame]
      exact h.obeys other entry h'

/-- A task that has just arrived has done nothing. -/
theorem Obedient.fresh {c : Config I σ ε κ α} (h : Obedient L E c) (call : κ) (s : σ) :
    deeds c.tasks.length (arrival c.tasks.length call s c.world).log = [] := by
  rw [arrival, deeds_arrived, ← List.append_nil c.world.log, deeds_others]
  · rfl
  · exact fun e he => Nat.ne_of_lt (h.numbered e he)

/-- A call arrives and runs up to its first `await`. -/
theorem Obedient.arrive (hbody : ∀ call, (S.body call).Obeys (L call) (E call) [])
    {c : Config I σ ε κ α} (h : Obedient L E c) (call : κ) (s : σ)
    {settled : Task I ε α × World I σ ε κ}
    (hs : settled = S.settle c.tasks.length (S.body call) (arrival c.tasks.length call s c.world)) :
    Obedient L E ⟨settled.2, c.tasks ++ [⟨call, settled.1⟩]⟩ := by
  obtain ⟨new, hlog, hnew⟩ := S.settle_log c.tasks.length (S.body call)
    (arrival c.tasks.length call s c.world)
  rw [← hs] at hlog
  have hfresh := h.fresh call s
  have hobeys : (S.body call).Obeys (L call) (E call)
      (deeds c.tasks.length (arrival c.tasks.length call s c.world).log) := by
    rw [hfresh]
    exact hbody call
  have hlawful : Lawful (L call)
      (deeds c.tasks.length (arrival c.tasks.length call s c.world).log) := by
    rw [hfresh]
    exact True.intro
  have hsettled := S.settle_obeys hobeys hlawful
  rw [← hs] at hsettled
  have hentry : ∀ {pid : Nat} {entry}, (c.tasks ++ [⟨call, settled.1⟩])[pid]? = some entry →
      (pid = c.tasks.length ∧ entry = ⟨call, settled.1⟩) ∨
        (c.tasks[pid]? = some entry ∧ deeds pid settled.2.log = deeds pid c.world.log) := by
    intro pid entry h'
    rcases Nat.lt_trichotomy pid c.tasks.length with hlt | rfl | hgt
    · rw [List.getElem?_append_left hlt] at h'
      refine .inr ⟨h', ?_⟩
      rw [hlog, deeds_others]
      · exact deeds_arrived pid _ call _
      · intro e he
        rw [hnew e he]
        exact Nat.ne_of_gt hlt
    · rw [List.getElem?_concat_length] at h'
      exact .inl ⟨rfl, (Option.some.inj h').symm⟩
    · rw [List.getElem?_eq_none (by simp; omega)] at h'
      cases h'
  refine ⟨fun e hmem => ?_, fun pid entry h' => ?_, fun pid entry h' => ?_, fun pid entry h' => ?_⟩
  · rw [List.length_append, List.length_singleton]
    rw [hlog, List.mem_append, arrival, List.mem_cons] at hmem
    rcases hmem with hmem | rfl | hmem
    · rw [hnew e hmem]
      exact Nat.lt_succ_self _
    · exact Nat.lt_succ_self _
    · exact Nat.lt_succ_of_lt (h.numbered e hmem)
  · rw [hlog]
    apply List.mem_append_right
    rcases hentry h' with ⟨rfl, rfl⟩ | ⟨h', _⟩
    · exact .head _
    · exact .tail _ (h.arrived pid entry h')
  · rcases hentry h' with ⟨rfl, rfl⟩ | ⟨h', hsame⟩
    · exact hsettled.1
    · rw [hsame]
      exact h.lawful pid entry h'
  · rcases hentry h' with ⟨rfl, rfl⟩ | ⟨h', hsame⟩
    · exact hsettled.2
    · rw [hsame]
      exact h.obeys pid entry h'

theorem Obedient.step (hbody : ∀ call, (S.body call).Obeys (L call) (E call) [])
    {c : Config I σ ε κ α} (h : Obedient L E c) (m : Move κ) : Obedient L E (S.step c m) := by
  have hstep := S.step_stepped c m
  generalize S.step c m = c' at hstep ⊢
  cases hstep with
  | idle => exact h
  | arrive ha => exact h.arrive S hbody _ _ rfl
  | answer he =>
    obtain ⟨hlaw, hnext⟩ := h.obeys _ _ he (S.answer _ c.world.state).1
    refine h.move he ⟨[_], rfl, by simp [Event.pid]⟩ ?_ ?_
    · rw [respond, deeds_answered]
      exact ⟨hlaw, h.lawful _ _ he⟩
    · rw [respond, deeds_answered]
      exact hnext
  | fail he hf =>
    obtain ⟨hlaw, hnext⟩ := h.obeys _ _ he (.error S.fault)
    refine h.move he ⟨[_], rfl, by simp [Event.pid]⟩ ?_ ?_
    · rw [reject, deeds_answered]
      exact ⟨hlaw, h.lawful _ _ he⟩
    · rw [reject, deeds_answered]
      exact hnext
  | resume he =>
    obtain ⟨hlawful, hobeys⟩ := S.settle_obeys (h.obeys _ _ he) (h.lawful _ _ he)
    exact h.move he (S.settle_log _ _ c.world) hlawful hobeys
  | pass n => exact ⟨h.numbered, h.arrived, h.lawful, h.obeys⟩

theorem Obedient.start (s : σ) : Obedient L E (Config.start s : Config I σ ε κ α) := by
  refine ⟨?_, ?_, ?_, ?_⟩ <;> simp [Config.start]

/-- **Every task obeys its law**, in every run and whatever the order of the steps. -/
theorem Obedient.run (hbody : ∀ call, (S.body call).Obeys (L call) (E call) [])
    {c : Config I σ ε κ α} (h : Obedient L E c) (moves : List (Move κ)) : Obedient L E (S.run c moves) := by
  induction moves generalizing c with
  | nil => exact h
  | cons m rest ih => exact ih (h.step S hbody m)

/-- A deed in the log is one of a call that has arrived, and was allowed when it was done. -/
theorem Obedient.law {c : Config I σ ε κ α} (h : Obedient L E c) {e : Event I ε κ} {d : Deed I ε}
    {later earlier : List (Event I ε κ)} (hlog : c.world.log = later ++ e :: earlier)
    (he : e.deed = some d) :
    ∃ call task, c.tasks[e.pid]? = some ⟨call, task⟩ ∧ L call (deeds e.pid earlier) d := by
  have hmem : e ∈ c.world.log := hlog ▸ List.mem_append_right _ (.head _)
  obtain ⟨⟨call, task⟩, hentry⟩ : ∃ entry, c.tasks[e.pid]? = some entry :=
    ⟨_, List.getElem?_eq_getElem (h.numbered e hmem)⟩
  refine ⟨call, task, hentry, ?_⟩
  have hlawful := h.lawful e.pid _ hentry
  rw [hlog, deeds_append, deeds_cons_self rfl, he] at hlawful
  exact hlawful.at.1

/-- A task that is done has ended as its call must. -/
theorem Obedient.ended {c : Config I σ ε κ α} (h : Obedient L E c) {pid : Nat} {entry : Entry I ε κ α}
    (hentry : c.tasks[pid]? = some entry) (hdone : entry.task.isDone = true) :
    ∃ r, E entry.call (deeds pid c.world.log) r := by
  have hobeys := h.obeys pid _ hentry
  rcases entry with ⟨call, task⟩
  cases task with
  | done r => exact ⟨r, hobeys⟩
  | _ => cases hdone

/-! ### Invariants, entry by entry

An invariant of the world need only be checked for one entry of the log at a time, made
by a task that obeys its law. -/

/-- What a system owes for all its runs to keep an invariant. -/
structure Preserves (L : κ → Law I ε) (inv : World I σ ε κ → Prop) : Prop where
  acts : ∀ {pid call a w}, inv w → .arrived pid call ∈ w.log →
    L call (deeds pid w.log) (.acted a (S.act a w.state).1) → inv (S.perform pid a w)
  answers : ∀ {pid call q w}, inv w → .arrived pid call ∈ w.log →
    L call (deeds pid w.log) (.answered q (S.answer q w.state).1) → inv (S.respond pid q w)
  rejects : ∀ {pid call q w}, inv w → .arrived pid call ∈ w.log →
    L call (deeds pid w.log) (.answered q (.error S.fault)) → inv (S.reject pid q w)
  arrives : ∀ {pid call s w}, inv w → (∀ e ∈ w.log, e.pid ≠ pid) →
    S.accept call w.state = some s → inv (arrival pid call s w)
  passes : ∀ {n w}, inv w → inv ⟨S.pass n w.state, w.log⟩

variable {S} {inv : World I σ ε κ → Prop}

/-- Running a program up to its next `await`, its actions one by one. -/
theorem settle_invariant {pid : Nat} {call : κ} (hacts : ∀ {a w}, inv w →
      .arrived pid call ∈ w.log → L call (deeds pid w.log) (.acted a (S.act a w.state).1) →
      inv (S.perform pid a w)) {p : Program I ε α} {w : World I σ ε κ} (hi : inv w)
    (harrived : .arrived pid call ∈ w.log) (hp : p.Obeys (L call) (E call) (deeds pid w.log)) :
    inv (S.settle pid p w).2 := by
  induction p generalizing w with
  | ret v => exact hi
  | raise e => exact hi
  | await q next => exact hi
  | act a next ih =>
    obtain ⟨hlaw, hnext⟩ := hp (S.act a w.state).1
    apply ih _ (hacts hi harrived hlaw) (.tail _ harrived)
    rw [perform, deeds_acted]
    exact hnext

theorem Preserves.settle (h : S.Preserves L inv) {pid : Nat} {call : κ} {p : Program I ε α}
    {w : World I σ ε κ} (hi : inv w) (harrived : .arrived pid call ∈ w.log)
    (hp : p.Obeys (L call) (E call) (deeds pid w.log)) : inv (S.settle pid p w).2 :=
  settle_invariant h.acts hi harrived hp

theorem Preserves.step (h : S.Preserves L inv)
    (hbody : ∀ call, (S.body call).Obeys (L call) (E call) []) {c : Config I σ ε κ α}
    (ht : Obedient L E c) (hi : inv c.world) (m : Move κ) : inv (S.step c m).world := by
  have hstep := S.step_stepped c m
  generalize S.step c m = c' at hstep ⊢
  cases hstep with
  | idle => exact hi
  | @arrive call s ha =>
    have hfresh : ∀ e ∈ c.world.log, e.pid ≠ c.tasks.length :=
      fun e he => Nat.ne_of_lt (ht.numbered e he)
    apply h.settle (h.arrives hi hfresh ha) (.head _)
    rw [ht.fresh call s]
    exact hbody call
  | answer he => exact h.answers hi (ht.arrived _ _ he) (ht.obeys _ _ he _).1
  | fail he hf => exact h.rejects hi (ht.arrived _ _ he) (ht.obeys _ _ he _).1
  | resume he => exact h.settle hi (ht.arrived _ _ he) (ht.obeys _ _ he)
  | pass n => exact h.passes hi

/-- **An invariant of the world holds in every run** if every entry keeps it. -/
theorem Preserves.run (h : S.Preserves L inv)
    (hbody : ∀ call, (S.body call).Obeys (L call) (E call) []) {c : Config I σ ε κ α}
    (ht : Obedient L E c) (hi : inv c.world) (moves : List (Move κ)) : inv (S.run c moves).world := by
  induction moves generalizing c with
  | nil => exact hi
  | cons m rest ih => exact ih (ht.step S hbody m) (h.step hbody ht hi m)

end System

end Async
