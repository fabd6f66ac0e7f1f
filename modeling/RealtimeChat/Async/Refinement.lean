import RealtimeChat.Async.Deeds

/-! Two levels of one system.

The level above has states and steps of its own, and says which calls may take which
steps. The system refines it where what is seen of its state changes only with an
answer, and then by one step that the answered call may take (`Refines.step`). A whole
run is then a run of the level above by the calls that have arrived (`Refines.run`), and
what all these calls' steps keep there, the run keeps (`Steps.keeps`). -/
namespace Async

/-- Steps one after another, each by a call. -/
inductive Steps {κ τ : Type} (step : κ → τ → τ → Prop) : τ → List κ → τ → Prop where
  | nil (t : τ) : Steps step t [] t
  | snoc {t t' t'' : τ} {calls : List κ} {call : κ} (h : Steps step t calls t')
    (hstep : step call t' t'') : Steps step t (calls ++ [call]) t''

/-- What is kept by the steps of calls of a kind is kept where all calls are of the kind. -/
theorem Steps.keeps {κ τ : Type} {step : κ → τ → τ → Prop} {P : κ → Prop} {G : τ → Prop}
    (hgood : ∀ {call t t'}, P call → G t → step call t t' → G t') {t t' : τ}
    {calls : List κ} (h : Steps step t calls t') (hcalls : ∀ call ∈ calls, P call) (ht : G t) :
    G t' := by
  induction h with
  | nil => exact ht
  | snoc _ hstep ih =>
    have hfront := ih fun call hmem => hcalls call (List.mem_append_left _ hmem)
    exact hgood (hcalls _ (List.mem_append_right _ (.head _))) hfront hstep

namespace System
variable {I : Interface} {σ ε κ α τ : Type}

/-- What a system owes to refine the level above. -/
structure Refines (S : System I σ ε κ α) (L : κ → Law I ε) (inv : World I σ ε κ → Prop)
    (view : σ → τ) (may : κ → τ → τ → Prop) : Prop where
  preserves : S.Preserves L inv
  acts : ∀ a s, view (S.act a s).2 = view s
  accepts : ∀ {call s s'}, S.accept call s = some s' → view s' = view s
  passes : ∀ n s, view (S.pass n s) = view s
  answers : ∀ {pid call q w}, inv w → .arrived pid call ∈ w.log →
    L call (deeds pid w.log) (.answered q (S.answer q w.state).1) →
    view (S.answer q w.state).2 = view w.state ∨
      may call (view w.state) (view (S.answer q w.state).2)

variable {S : System I σ ε κ α} {L : κ → Law I ε} {E : κ → List (Deed I ε) → Except ε α → Prop}
  {inv : World I σ ε κ → Prop} {view : σ → τ} {may : κ → τ → τ → Prop}

theorem Refines.settle (h : S.Refines L inv view may) (pid : Nat) (p : Program I ε α)
    (w : World I σ ε κ) : view (S.settle pid p w).2.state = view w.state := by
  induction p generalizing w with
  | ret v => rfl
  | raise e => rfl
  | await q next => rfl
  | act a next ih => exact (ih _ _).trans (h.acts a w.state)

/-- **Move by move**: a move leaves what is seen as it is, or it answers a task, and takes a step of
the task's call. -/
theorem Refines.step (h : S.Refines L inv view may) {c : Config I σ ε κ α} (ht : Obedient L E c)
    (hi : inv c.world) (m : Move κ) : view (S.step c m).world.state = view c.world.state ∨
      ∃ pid call task, m = .answer pid ∧ c.tasks[pid]? = some ⟨call, task⟩ ∧
        may call (view c.world.state) (view (S.step c m).world.state) := by
  have hstep := S.step_stepped c m
  generalize S.step c m = c' at hstep ⊢
  cases hstep with
  | idle => exact .inl rfl
  | arrive ha => exact .inl ((h.settle _ _ _).trans (h.accepts ha))
  | @answer pid call q next he =>
    rcases h.answers hi (ht.arrived _ _ he) (ht.obeys _ _ he _).1 with hsame | htaken
    · exact .inl hsame
    · exact .inr ⟨pid, call, _, rfl, he, htaken⟩
  | fail he hf => exact .inl rfl
  | resume he => exact .inl (h.settle _ _ _)
  | pass n => exact .inl (h.passes n _)

/-- **Run by run**: what is seen goes the way of the level above, step by step of calls that have
arrived. -/
theorem Refines.run (h : S.Refines L inv view may)
    (hbody : ∀ call, (S.body call).Obeys (L call) (E call) []) {c : Config I σ ε κ α}
    (ht : Obedient L E c) (hi : inv c.world) (moves : List (Move κ)) : ∃ calls,
      Steps may (view c.world.state) calls (view (S.run c moves).world.state) ∧
        ∀ call ∈ calls, ∃ pid, .arrived pid call ∈ (S.run c moves).world.log := by
  induction moves using List.reverseRecOn with
  | nil => exact ⟨[], .nil _, by simp⟩
  | append_singleton front m ih =>
    obtain ⟨calls, hsteps, harrived⟩ := ih
    have ht' : Obedient L E (S.run c front) := ht.run S hbody front
    have hi' : inv (S.run c front).world := h.preserves.run hbody ht hi front
    rw [S.run_append]
    show ∃ calls, Steps may _ calls (view (S.step (S.run c front) m).world.state) ∧
      ∀ call ∈ calls, ∃ pid, .arrived pid call ∈ (S.step (S.run c front) m).world.log
    obtain ⟨new, hlog⟩ := S.step_log (S.run c front) m
    have hstays : ∀ {call}, (∃ pid, .arrived pid call ∈ (S.run c front).world.log) →
        ∃ pid, .arrived pid call ∈ (S.step (S.run c front) m).world.log := by
      intro call hmem
      obtain ⟨pid, hmem⟩ := hmem
      exact ⟨pid, hlog ▸ List.mem_append_right new hmem⟩
    rcases h.step ht' hi' m with hsame | ⟨pid, call, task, -, he, htaken⟩
    · rw [hsame]
      exact ⟨calls, hsteps, fun call hmem => hstays (harrived call hmem)⟩
    · refine ⟨calls ++ [call], hsteps.snoc htaken, fun call' hmem => hstays ?_⟩
      rcases List.mem_append.mp hmem with hmem | hmem
      · exact harrived call' hmem
      · rw [List.mem_singleton.mp hmem]
        exact ⟨pid, ht'.arrived pid _ he⟩

/-- What has arrived in a run is what has been let in. -/
theorem run_arrived {s : σ} {moves : List (Move κ)} {pid : Nat} {call : κ}
    (h : .arrived pid call ∈ (S.run (Config.start s) moves).world.log) : .arrive call ∈ moves := by
  induction moves using List.reverseRecOn with
  | nil => cases h
  | append_singleton front m ih =>
    rw [S.run_append] at h
    rcases S.step_arrived h with hold | rfl
    · exact List.mem_append_left _ (ih hold)
    · exact List.mem_append_right _ (.head _)

end System

/-! ### Laws -/

namespace Program
variable {I : Interface} {ε α : Type} {L L' : Law I ε} {E E' : List (Deed I ε) → Except ε α → Prop}
  {before : List (Deed I ε)}

/-- A law that allows more, after what the other allows. -/
theorem Obeys.weaken {p : Program I ε α} (h : p.Obeys L E before)
    (hlaw : ∀ before d, L before d → L' before d) : p.Obeys L' E before := by
  induction p generalizing before with
  | ret v => exact h
  | raise e => exact h
  | act a next ih => exact fun r => ⟨hlaw _ _ (h r).1, ih r (h r).2⟩
  | await q next ih => exact fun r => ⟨hlaw _ _ (h r).1, ih r (h r).2⟩

/-- Two laws at once. -/
theorem Obeys.and {p : Program I ε α} (h : p.Obeys L E before) (h' : p.Obeys L' E' before) :
    p.Obeys (fun before d => L before d ∧ L' before d) (fun before r => E before r ∧ E' before r)
      before := by
  induction p generalizing before with
  | ret v => exact ⟨h, h'⟩
  | raise e => exact ⟨h, h'⟩
  | act a next ih => exact fun r => ⟨⟨(h r).1, (h' r).1⟩, ih r (h r).2 (h' r).2⟩
  | await q next ih => exact fun r => ⟨⟨(h r).1, (h' r).1⟩, ih r (h r).2 (h' r).2⟩

end Program

namespace System
variable {I : Interface} {σ ε κ α : Type} {S : System I σ ε κ α} {L L' : κ → Law I ε}
  {inv inv' : World I σ ε κ → Prop}

/-- What is kept under a law is kept under a stricter one. -/
theorem Preserves.strict (h : S.Preserves L inv)
    (hlaw : ∀ {call before d}, L' call before d → L call before d) : S.Preserves L' inv where
  acts hi harrived hl := h.acts hi harrived (hlaw hl)
  answers hi harrived hl := h.answers hi harrived (hlaw hl)
  rejects hi harrived hl := h.rejects hi harrived (hlaw hl)
  arrives := h.arrives
  passes := h.passes

theorem Preserves.and (h : S.Preserves L inv) (h' : S.Preserves L inv') :
    S.Preserves L fun w => inv w ∧ inv' w where
  acts hi harrived hl := ⟨h.acts hi.1 harrived hl, h'.acts hi.2 harrived hl⟩
  answers hi harrived hl := ⟨h.answers hi.1 harrived hl, h'.answers hi.2 harrived hl⟩
  rejects hi harrived hl := ⟨h.rejects hi.1 harrived hl, h'.rejects hi.2 harrived hl⟩
  arrives hi hfresh ha := ⟨h.arrives hi.1 hfresh ha, h'.arrives hi.2 hfresh ha⟩
  passes hi := ⟨h.passes hi.1, h'.passes hi.2⟩

end System

end Async
