import RealtimeChat.Async.Schedule

/-! One program run by itself.

`alone` is a program with no others around: every query is answered at once and
none is rejected. It is one of the runs of the system (`alone_run`), so what is
proved of `alone` is proved of calls that are each run to completion. -/
namespace Async.System
variable {I : Interface} {σ ε κ α β γ : Type} (S : System I σ ε κ α)

/-- The result of the program and the state it leaves. -/
def alone : Program I ε β → σ → Except ε β × σ
  | .ret v, s => (.ok v, s)
  | .raise e, s => (.error e, s)
  | .act a next, s => alone (next (S.act a s).1) (S.act a s).2
  | .await q next, s => alone (next (S.answer q s).1) (S.answer q s).2

/-- The actions it carries out on the way, with their replies, first to last. -/
def performed : Program I ε β → σ → List ((a : I.Action) × I.Reply a)
  | .ret _, _ => []
  | .raise _, _ => []
  | .act a next, s => ⟨a, (S.act a s).1⟩ :: performed (next (S.act a s).1) (S.act a s).2
  | .await q next, s => performed (next (S.answer q s).1) (S.answer q s).2

@[simp] theorem alone_perform (a : I.Action) (s : σ) :
    S.alone (Program.perform a : Program I ε _) s = (.ok (S.act a s).1, (S.act a s).2) := rfl

@[simp] theorem alone_query (q : I.Query) (s : σ) :
    S.alone (Program.query q : Program I ε _) s = S.answer q s := by
  simp only [Program.query, alone]
  cases h : (S.answer q s).1 <;> simp only [Program.ofExcept, alone] <;> rw [← h]

theorem alone_bind (p : Program I ε γ) (f : γ → Program I ε β) (s : σ) :
    S.alone (p.bind f) s = match S.alone p s with
      | (.ok v, t) => S.alone (f v) t
      | (.error e, t) => (.error e, t) := by
  induction p generalizing s with
  | ret v => rfl
  | raise e => rfl
  | act a next ih => exact ih _ _
  | await q next ih => exact ih _ _

theorem alone_bind_query (q : I.Query) (f : I.Answer q → Program I ε β) (s : σ) :
    S.alone ((Program.query q).bind f) s = match S.answer q s with
      | (.ok v, t) => S.alone (f v) t
      | (.error e, t) => (.error e, t) := by
  rw [alone_bind, alone_query]
  rcases S.answer q s with ⟨e | v, t⟩
  · rfl
  · rfl

theorem alone_tryCatch (p : Program I ε β) (f : ε → Program I ε β) (s : σ) :
    S.alone (p.tryCatch f) s = match S.alone p s with
      | (.ok v, t) => (.ok v, t)
      | (.error e, t) => S.alone (f e) t := by
  induction p generalizing s with
  | ret v => rfl
  | raise e => rfl
  | act a next ih => exact ih _ _
  | await q next ih => exact ih _ _

theorem performed_bind (p : Program I ε γ) (f : γ → Program I ε β) (s : σ) :
    S.performed (p.bind f) s = S.performed p s ++ match S.alone p s with
      | (.ok v, t) => S.performed (f v) t
      | (.error _, _) => [] := by
  induction p generalizing s with
  | ret v => rfl
  | raise e => rfl
  | act a next ih => exact congrArg _ (ih _ _)
  | await q next ih => exact ih _ _

theorem performed_tryCatch (p : Program I ε β) (f : ε → Program I ε β) (s : σ) :
    S.performed (p.tryCatch f) s = S.performed p s ++ match S.alone p s with
      | (.ok _, _) => []
      | (.error e, t) => S.performed (f e) t := by
  induction p generalizing s with
  | ret v => rfl
  | raise e => rfl
  | act a next ih => exact congrArg _ (ih _ _)
  | await q next ih => exact ih _ _

/-! ### What a program carries out -/

section Performs
variable (P : (a : I.Action) → I.Reply a → Prop)

/-- Each action on the way, with its reply, is as `P` says. -/
def Performs (p : Program I ε β) (s : σ) : Prop := ∀ entry ∈ S.performed p s, P entry.1 entry.2

variable {S P} {s : σ}

theorem performs_perform (a : I.Action) :
    S.Performs P (Program.perform a : Program I ε _) s ↔ P a (S.act a s).1 :=
  List.forall_mem_singleton

theorem Performs.of_within {A : I.Action → Prop} {B : I.Query → Prop} {p : Program I ε β}
    (hp : p.Within A B) (hA : ∀ a r, A a → P a r) (s : σ) : S.Performs P p s := by
  induction p generalizing s with
  | ret v => exact nofun
  | raise e => exact nofun
  | act a next ih => exact List.forall_mem_cons.mpr ⟨hA a _ hp.1, ih _ (hp.2 _) _⟩
  | await q next ih => exact ih _ (hp.2 _) _

theorem Performs.bind {p : Program I ε γ} {f : γ → Program I ε β} (hp : S.Performs P p s)
    (hf : ∀ v, (S.alone p s).1 = .ok v → S.Performs P (f v) (S.alone p s).2) :
    S.Performs P (p.bind f) s := by
  intro entry hentry
  rw [performed_bind] at hentry
  rcases List.mem_append.mp hentry with hentry | hentry
  · exact hp entry hentry
  · rcases hs : S.alone p s with ⟨e | v, t⟩
    · rw [hs] at hentry
      cases hentry
    · rw [hs] at hentry hf
      exact hf v rfl entry hentry

theorem Performs.tryCatch {p : Program I ε β} {f : ε → Program I ε β} (hp : S.Performs P p s)
    (hf : ∀ e t, S.Performs P (f e) t) : S.Performs P (p.tryCatch f) s := by
  intro entry hentry
  rw [performed_tryCatch] at hentry
  rcases List.mem_append.mp hentry with hentry | hentry
  · exact hp entry hentry
  · rcases hs : S.alone p s with ⟨e | v, t⟩
    · rw [hs] at hentry
      exact hf e t entry hentry
    · rw [hs] at hentry
      cases hentry

end Performs

/-! ### Two runs of one program -/

section Alike
variable {O : Type} (obs : (a : I.Action) → I.Reply a → Option O) (R : σ → σ → Prop)

/-- What an observer sees of the actions on the way. -/
def seen (p : Program I ε β) (s : σ) : List O :=
  (S.performed p s).filterMap fun entry => obs entry.1 entry.2

/-- From `s` and from `t`, the program returns the same, shows the same, and leaves
related states. -/
structure Alike (p : Program I ε β) (s t : σ) : Prop where
  value : (S.alone p s).1 = (S.alone p t).1
  seen : S.seen obs p s = S.seen obs p t
  after : R (S.alone p s).2 (S.alone p t).2

variable {S obs R} {s t : σ}

theorem seen_bind (p : Program I ε γ) (f : γ → Program I ε β) (s : σ) :
    S.seen obs (p.bind f) s = S.seen obs p s ++ match S.alone p s with
      | (.ok v, t) => S.seen obs (f v) t
      | (.error _, _) => [] := by
  unfold System.seen
  rw [performed_bind, List.filterMap_append]
  rcases S.alone p s with ⟨e | v, t⟩
  · rfl
  · rfl

theorem seen_tryCatch (p : Program I ε β) (f : ε → Program I ε β) (s : σ) :
    S.seen obs (p.tryCatch f) s = S.seen obs p s ++ match S.alone p s with
      | (.ok _, _) => []
      | (.error e, t) => S.seen obs (f e) t := by
  unfold System.seen
  rw [performed_tryCatch, List.filterMap_append]
  rcases S.alone p s with ⟨e | v, t⟩
  · rfl
  · rfl

theorem Alike.ret (v : β) (h : R s t) : S.Alike obs R (.ret v : Program I ε β) s t :=
  ⟨rfl, rfl, h⟩

theorem Alike.raise (e : ε) (h : R s t) : S.Alike obs R (.raise e : Program I ε β) s t :=
  ⟨rfl, rfl, h⟩

theorem Alike.query {q : I.Query} (hvalue : (S.answer q s).1 = (S.answer q t).1)
    (hafter : R (S.answer q s).2 (S.answer q t).2) :
    S.Alike obs R (Program.query q : Program I ε _) s t := by
  have hseen : ∀ s, S.seen obs (Program.query q : Program I ε _) s = [] := by
    intro s
    simp only [System.seen, Program.query, performed]
    cases (S.answer q s).1 <;> rfl
  refine ⟨?_, ?_, ?_⟩
  · rw [alone_query, alone_query, hvalue]
  · rw [hseen, hseen]
  · rw [alone_query, alone_query]
    exact hafter

theorem Alike.perform {a : I.Action} (hreply : (S.act a s).1 = (S.act a t).1)
    (hafter : R (S.act a s).2 (S.act a t).2) :
    S.Alike obs R (Program.perform a : Program I ε _) s t := by
  refine ⟨?_, ?_, hafter⟩
  · rw [alone_perform, alone_perform, hreply]
  · simp only [System.seen, Program.perform, performed, hreply]

/-- An action whose reply is discarded may be replied to differently, if that does not show. -/
theorem Alike.perform_discard {a : I.Action} {p : Program I ε β}
    (hobs : ∀ r r', obs a r = obs a r') (hp : S.Alike obs R p (S.act a s).2 (S.act a t).2) :
    S.Alike obs R ((Program.perform a).bind fun _ => p) s t := by
  refine ⟨hp.value, ?_, hp.after⟩
  have hseen := hp.seen
  simp only [System.seen, Program.perform, Program.bind, performed, List.filterMap_cons,
    hobs (S.act a s).1 (S.act a t).1] at hseen ⊢
  rw [hseen]

theorem Alike.bind {p : Program I ε γ} {f : γ → Program I ε β} (hp : S.Alike obs R p s t)
    (hf : ∀ v, (S.alone p s).1 = .ok v →
      S.Alike obs R (f v) (S.alone p s).2 (S.alone p t).2) : S.Alike obs R (p.bind f) s t := by
  obtain ⟨hvalue, hseen, hafter⟩ := hp
  rcases hs : S.alone p s with ⟨r, s'⟩
  rcases ht : S.alone p t with ⟨r', t'⟩
  rw [hs, ht] at hvalue hafter
  obtain rfl : r = r' := hvalue
  cases r with
  | error e =>
    refine ⟨?_, ?_, ?_⟩
    · rw [alone_bind, hs, alone_bind, ht]
    · rw [seen_bind, hs, seen_bind, ht, hseen]
    · rw [alone_bind, hs, alone_bind, ht]
      exact hafter
  | ok v =>
    rw [hs, ht] at hf
    obtain ⟨hvalue', hseen', hafter'⟩ := hf v rfl
    refine ⟨?_, ?_, ?_⟩
    · rw [alone_bind, hs, alone_bind, ht]
      exact hvalue'
    · rw [seen_bind, hs, seen_bind, ht, hseen]
      exact congrArg _ hseen'
    · rw [alone_bind, hs, alone_bind, ht]
      exact hafter'

theorem Alike.query_bind {q : I.Query} {f : I.Answer q → Program I ε β}
    (hvalue : (S.answer q s).1 = (S.answer q t).1) (hafter : R (S.answer q s).2 (S.answer q t).2)
    (hf : ∀ v, (S.answer q s).1 = .ok v →
      S.Alike obs R (f v) (S.answer q s).2 (S.answer q t).2) :
    S.Alike obs R ((Program.query q).bind f) s t := by
  apply Alike.bind (.query hvalue hafter)
  intro v hv
  rw [alone_query] at hv
  rw [alone_query, alone_query]
  exact hf v hv

/-- What shows nothing and ends alike is alike. -/
theorem Alike.of_silent {A : I.Action → Prop} {B : I.Query → Prop} {p : Program I ε β}
    (hp : p.Within A B) (hA : ∀ a r, A a → obs a r = none)
    (hvalue : (S.alone p s).1 = (S.alone p t).1) (hafter : R (S.alone p s).2 (S.alone p t).2) :
    S.Alike obs R p s t := by
  have hseen : ∀ s, S.seen obs p s = [] := by
    intro s
    clear hvalue hafter
    induction p generalizing s with
    | ret v => rfl
    | raise e => rfl
    | act a next ih =>
      have hrest := ih _ (hp.2 (S.act a s).1) (S.act a s).2
      simp only [System.seen, performed, List.filterMap_cons, hA a _ hp.1] at hrest ⊢
      exact hrest
    | await q next ih => exact ih _ (hp.2 _) _
  exact ⟨hvalue, by rw [hseen, hseen], hafter⟩

theorem Alike.tryCatch {p : Program I ε β} {f : ε → Program I ε β} (hp : S.Alike obs R p s t)
    (hf : ∀ e, (S.alone p s).1 = .error e →
      S.Alike obs R (f e) (S.alone p s).2 (S.alone p t).2) : S.Alike obs R (p.tryCatch f) s t := by
  obtain ⟨hvalue, hseen, hafter⟩ := hp
  rcases hs : S.alone p s with ⟨r, s'⟩
  rcases ht : S.alone p t with ⟨r', t'⟩
  rw [hs, ht] at hvalue hafter
  obtain rfl : r = r' := hvalue
  cases r with
  | ok v =>
    refine ⟨?_, ?_, ?_⟩
    · rw [alone_tryCatch, hs, alone_tryCatch, ht]
    · rw [seen_tryCatch, hs, seen_tryCatch, ht, hseen]
    · rw [alone_tryCatch, hs, alone_tryCatch, ht]
      exact hafter
  | error e =>
    rw [hs, ht] at hf
    obtain ⟨hvalue', hseen', hafter'⟩ := hf e rfl
    refine ⟨?_, ?_, ?_⟩
    · rw [alone_tryCatch, hs, alone_tryCatch, ht]
      exact hvalue'
    · rw [seen_tryCatch, hs, seen_tryCatch, ht, hseen]
      exact congrArg _ hseen'
    · rw [alone_tryCatch, hs, alone_tryCatch, ht]
      exact hafter'

end Alike

/-- What every action and query of the program keeps, the whole program keeps. -/
theorem alone_keeps {A : I.Action → Prop} {B : I.Query → Prop} {R : σ → σ → Prop}
    (hrefl : ∀ s, R s s) (htrans : ∀ a b c, R a b → R b c → R a c)
    (hact : ∀ a s, A a → R s (S.act a s).2) (hanswer : ∀ q s, B q → R s (S.answer q s).2)
    {p : Program I ε β} (hp : p.Within A B) (s : σ) : R s (S.alone p s).2 := by
  induction p generalizing s with
  | ret v => exact hrefl s
  | raise e => exact hrefl s
  | act a next ih => exact htrans _ _ _ (hact a s hp.1) (ih _ (hp.2 _) _)
  | await q next ih => exact htrans _ _ _ (hanswer q s hp.1) (ih _ (hp.2 _) _)

/-- What a program keeps, and what follows keeps from there on, the two keep. -/
theorem bind_keeps {R : σ → σ → Prop} (htrans : ∀ a b c, R a b → R b c → R a c)
    {p : Program I ε γ} {f : γ → Program I ε β} {s : σ} (hp : R s (S.alone p s).2)
    (hf : ∀ v, (S.alone p s).1 = .ok v → R (S.alone p s).2 (S.alone (f v) (S.alone p s).2).2) :
    R s (S.alone (p.bind f) s).2 := by
  rw [alone_bind]
  rcases hs : S.alone p s with ⟨e | v, s'⟩
  · rw [hs] at hp
    exact hp
  · rw [hs] at hp hf
    exact htrans _ _ _ hp (hf v rfl)

theorem tryCatch_keeps {R : σ → σ → Prop} (htrans : ∀ a b c, R a b → R b c → R a c)
    {p : Program I ε β} {f : ε → Program I ε β} {s : σ} (hp : R s (S.alone p s).2)
    (hf : ∀ e, (S.alone p s).1 = .error e → R (S.alone p s).2 (S.alone (f e) (S.alone p s).2).2) :
    R s (S.alone (p.tryCatch f) s).2 := by
  rw [alone_tryCatch]
  rcases hs : S.alone p s with ⟨e | v, s'⟩
  · rw [hs] at hp hf
    exact htrans _ _ _ hp (hf e rfl)
  · rw [hs] at hp
    exact hp

/-! ### A program alone is a run of the system -/

/-- From any `await` on, answering and resuming the task in turn, with nothing in
between, leads where `alone` says. -/
theorem settled_run (p : Program I ε α) (w : World I σ ε κ) (tasks : List (Entry I ε κ α))
    (pid : Nat) (hpid : pid < tasks.length) (call : κ) :
    ∃ moves, ∃ c, S.run ⟨(S.settle pid p w).2, tasks.set pid ⟨call, (S.settle pid p w).1⟩⟩ moves = c ∧
      c.world.state = (S.alone p w.state).2 ∧
      c.tasks = tasks.set pid ⟨call, .done (S.alone p w.state).1⟩ := by
  induction p generalizing w with
  | ret v => exact ⟨[], _, rfl, rfl, rfl⟩
  | raise e => exact ⟨[], _, rfl, rfl, rfl⟩
  | act a next ih => exact ih _ (S.perform pid a w)
  | await q next ih =>
    obtain ⟨moves, c, hrun, hstate, htasks⟩ := ih (S.answer q w.state).1 (S.respond pid q w)
    refine ⟨.answer pid :: .resume pid :: moves, c, ?_, hstate, htasks⟩
    simp only [run, step, settle, List.getElem?_set_self hpid, List.set_set]
    exact hrun

/-- A resumed task whose queries are answered one after another, with nothing in
between, ends as `alone` says. -/
theorem alone_run (p : Program I ε α) (c : Config I σ ε κ α) (pid : Nat) (call : κ)
    (h : c.tasks[pid]? = some ⟨call, .ready p⟩) :
    ∃ moves, (S.run c moves).world.state = (S.alone p c.world.state).2 ∧
      (S.run c moves).tasks = c.tasks.set pid ⟨call, .done (S.alone p c.world.state).1⟩ := by
  have hpid : pid < c.tasks.length := (List.getElem?_eq_some_iff.mp h).1
  obtain ⟨moves, c', hrun, hstate, htasks⟩ := S.settled_run p c.world c.tasks pid hpid call
  have hstep : S.step c (.resume pid) =
      ⟨(S.settle pid p c.world).2, c.tasks.set pid ⟨call, (S.settle pid p c.world).1⟩⟩ := by
    simp only [step, h]
  refine ⟨.resume pid :: moves, ?_, ?_⟩
  · rw [run, hstep, hrun, hstate]
  · rw [run, hstep, hrun, htasks]

end Async.System
