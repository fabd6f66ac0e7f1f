import RealtimeChat.Async.Schedule

/-! Reasoning about one task at a time.

A `Discipline` is what every step of every task is bound to: an invariant of the
world and a relation between the world before a step and the world after it. A
program is `Safe` when each of its own steps keeps the discipline although, at
every `await`, others may have moved the world in any way the discipline allows.
The actions between two awaits are one step.
`Safe` is checked program by program, by recursion on the program; if the body of
every call is safe, every run of the system keeps the discipline
(`Upholds.run`), whatever the order of the steps.

A discipline may assume something of the log. Then only runs whose log meets the
assumption are bound, which is how a result is stated for the runs all of whose
steps meet a condition. -/
namespace Async
variable {I : Interface} {σ ε κ α β : Type}

structure Discipline (I : Interface) (σ ε κ : Type) where
  inv : World I σ ε κ → Prop
  rel : World I σ ε κ → World I σ ε κ → Prop
  assume : List (Event I ε κ) → Prop
  refl : ∀ w, rel w w
  trans : ∀ {a b c}, rel a b → rel b c → rel a c
  earlier : ∀ {e log}, assume (e :: log) → assume log

namespace Discipline
variable (D : Discipline I σ ε κ)

/-- What a step from `w` to `w'` owes. -/
structure Keeps (w w' : World I σ ε κ) : Prop where
  rel : D.rel w w'
  inv : D.inv w'

/-- What may have happened while the task `pid` was waiting: any number of steps
of others. -/
structure Meanwhile (pid : Nat) (w w' : World I σ ε κ) : Prop where
  rel : D.rel w w'
  inv : D.inv w'
  assume : D.assume w'.log
  others : ∃ new, w'.log = new ++ w.log ∧ ∀ e ∈ new, e.pid ≠ pid

/-- How a program that is not part of another ends: it owes its last block too. -/
def Ended (Q : Except ε β → World I σ ε κ → Prop) (r : Except ε β)
    (b w : World I σ ε κ) : Prop :=
  D.assume w.log → D.Keeps b w ∧ Q r w

variable {D}

theorem earlier_append {new old : List (Event I ε κ)} (h : D.assume (new ++ old)) :
    D.assume old := by
  induction new with
  | nil => exact h
  | cons e rest ih => exact ih (D.earlier h)

theorem Keeps.trans {a b c : World I σ ε κ} (h : D.Keeps a b) (h' : D.Keeps b c) :
    D.Keeps a c :=
  ⟨D.trans h.rel h'.rel, h'.inv⟩

theorem Meanwhile.keeps {pid : Nat} {w w' : World I σ ε κ} (h : D.Meanwhile pid w w') :
    D.Keeps w w' :=
  ⟨h.rel, h.inv⟩

theorem Keeps.refl {w : World I σ ε κ} (hi : D.inv w) : D.Keeps w w := ⟨D.refl w, hi⟩

theorem Meanwhile.refl (pid : Nat) {w : World I σ ε κ} (hi : D.inv w) (ha : D.assume w.log) :
    D.Meanwhile pid w w :=
  ⟨D.refl w, hi, ha, [], rfl, by simp⟩

theorem Meanwhile.trans {pid : Nat} {a b c : World I σ ε κ} (h : D.Meanwhile pid a b)
    (h' : D.Meanwhile pid b c) : D.Meanwhile pid a c := by
  obtain ⟨new, hlog, hpid⟩ := h.others
  obtain ⟨new', hlog', hpid'⟩ := h'.others
  refine ⟨D.trans h.rel h'.rel, h'.inv, h'.assume, new' ++ new, ?_, ?_⟩
  · rw [hlog', hlog, List.append_assoc]
  · intro e he
    rcases List.mem_append.mp he with he | he
    · exact hpid' e he
    · exact hpid e he

/-- A property that every step of the discipline keeps outlasts any wait. -/
theorem Meanwhile.mem {pid : Nat} {w w' : World I σ ε κ} (h : D.Meanwhile pid w w')
    {e : Event I ε κ} (he : e ∈ w.log) : e ∈ w'.log := by
  obtain ⟨new, hlog, _⟩ := h.others
  rw [hlog]
  exact List.mem_append_right new he

/-- Others log nothing under the task's own number. -/
theorem Meanwhile.mem_own {pid : Nat} {w w' : World I σ ε κ} (h : D.Meanwhile pid w w')
    {e : Event I ε κ} (hp : e.pid = pid) : e ∈ w'.log ↔ e ∈ w.log := by
  obtain ⟨new, hlog, hpid⟩ := h.others
  rw [hlog, List.mem_append]
  exact ⟨fun he => he.resolve_left fun hn => hpid e hn hp, .inr⟩

end Discipline

namespace System
variable (S : System I σ ε κ α) (D : Discipline I σ ε κ)

/-- Between two awaits nobody else runs, so a program owes the discipline only for
the block of actions from one `await` to the next. `Safe pid Q p b w`: in a block
that began at `b` and has come to `w`, the rest `p` of the program keeps the
discipline, block by block and query by query, whatever others do while it waits,
and ends only as `Q` says of its result, its last block and its last world. -/
def Safe (pid : Nat) (Q : Except ε β → World I σ ε κ → World I σ ε κ → Prop) :
    Program I ε β → World I σ ε κ → World I σ ε κ → Prop
  | .ret v, b, w => Q (.ok v) b w
  | .raise e, b, w => Q (.error e) b w
  | .act a next, b, w => Safe pid Q (next (S.act a w.state).1) b (S.perform pid a w)
  | .await q next, b, w =>
    D.assume w.log → D.Keeps b w ∧ ∀ w₁, D.Meanwhile pid w w₁ →
      (D.assume (S.respond pid q w₁).log → D.Keeps w₁ (S.respond pid q w₁) ∧
        ∀ w₂, D.Meanwhile pid (S.respond pid q w₁) w₂ →
          Safe pid Q (next (S.answer q w₁.state).1) w₂ w₂) ∧
      (S.fallible q = true → D.assume (S.reject pid q w₁).log →
        D.Keeps w₁ (S.reject pid q w₁) ∧
        ∀ w₂, D.Meanwhile pid (S.reject pid q w₁) w₂ →
          Safe pid Q (next (.error S.fault)) w₂ w₂)

/-- Both ways in which an awaited query may come back. -/
structure Awaits (pid : Nat) (q : I.Query)
    (Q : Except ε (I.Answer q) → World I σ ε κ → Prop) (w : World I σ ε κ) : Prop where
  answered : ∀ w₁, D.Meanwhile pid w w₁ → D.assume (S.respond pid q w₁).log →
    D.Keeps w₁ (S.respond pid q w₁) ∧
      ∀ w₂, D.Meanwhile pid (S.respond pid q w₁) w₂ → Q (S.answer q w₁.state).1 w₂
  rejected : S.fallible q = true → ∀ w₁, D.Meanwhile pid w w₁ →
    D.assume (S.reject pid q w₁).log → D.Keeps w₁ (S.reject pid q w₁) ∧
      ∀ w₂, D.Meanwhile pid (S.reject pid q w₁) w₂ → Q (.error S.fault) w₂

variable {S D} {pid : Nat}

theorem safe_await (Q : Except ε β → World I σ ε κ → World I σ ε κ → Prop) (q : I.Query)
    (next : Except ε (I.Answer q) → Program I ε β) (b w : World I σ ε κ) :
    S.Safe D pid Q (.await q next) b w ↔ (D.assume w.log → D.Keeps b w ∧
      S.Awaits D pid q (fun r w => S.Safe D pid Q (next r) w w) w) :=
  ⟨fun h ha => ⟨(h ha).1, fun w₁ hw => ((h ha).2 w₁ hw).1,
      fun hf w₁ hw => ((h ha).2 w₁ hw).2 hf⟩,
    fun h ha => ⟨(h ha).1, fun w₁ hw => ⟨(h ha).2.answered w₁ hw,
      fun hf => (h ha).2.rejected hf w₁ hw⟩⟩⟩

theorem Safe.mono {Q Q' : Except ε β → World I σ ε κ → World I σ ε κ → Prop}
    {p : Program I ε β} {b w : World I σ ε κ} (h : S.Safe D pid Q p b w)
    (hQ : ∀ r b w, Q r b w → Q' r b w) : S.Safe D pid Q' p b w := by
  induction p generalizing b w with
  | ret v => exact hQ _ _ _ h
  | raise e => exact hQ _ _ _ h
  | act a next ih => exact ih _ h
  | await q next ih =>
    intro ha
    refine ⟨(h ha).1, fun w₁ hw => ?_⟩
    obtain ⟨hr, hf⟩ := (h ha).2 w₁ hw
    exact ⟨fun ha => ⟨(hr ha).1, fun w₂ hw₂ => ih _ ((hr ha).2 w₂ hw₂)⟩,
      fun hfail ha => ⟨(hf hfail ha).1, fun w₂ hw₂ => ih _ ((hf hfail ha).2 w₂ hw₂)⟩⟩

/-- **The sequence rule**: `p` first, then `f` from wherever `p` ends, in the same block. -/
theorem safe_bind (Q : Except ε β → World I σ ε κ → World I σ ε κ → Prop) {γ : Type}
    (p : Program I ε γ) (f : γ → Program I ε β) (b w : World I σ ε κ) :
    S.Safe D pid Q (p.bind f) b w ↔
      S.Safe D pid (fun r b w => match r with
        | .ok v => S.Safe D pid Q (f v) b w
        | .error e => Q (.error e) b w) p b w := by
  induction p generalizing b w with
  | ret v => exact Iff.rfl
  | raise e => exact Iff.rfl
  | act a next ih => exact ih _ _ _
  | await q next ih => simp only [Program.bind, Safe, ih]

/-- **The rule for `try`**: the handler runs from wherever the error was raised. -/
theorem safe_tryCatch (Q : Except ε β → World I σ ε κ → World I σ ε κ → Prop)
    (p : Program I ε β) (f : ε → Program I ε β) (b w : World I σ ε κ) :
    S.Safe D pid Q (p.tryCatch f) b w ↔
      S.Safe D pid (fun r b w => match r with
        | .ok v => Q (.ok v) b w
        | .error e => S.Safe D pid Q (f e) b w) p b w := by
  induction p generalizing b w with
  | ret v => exact Iff.rfl
  | raise e => exact Iff.rfl
  | act a next ih => exact ih _ _ _
  | await q next ih => simp only [Program.tryCatch, Safe, ih]

theorem safe_ofExcept (r : Except ε β)
    (Q : Except ε β → World I σ ε κ → World I σ ε κ → Prop) (b w : World I σ ε κ) :
    S.Safe D pid Q (Program.ofExcept r) b w ↔ Q r b w := by
  cases r <;> exact Iff.rfl

theorem safe_query (q : I.Query)
    (Q : Except ε (I.Answer q) → World I σ ε κ → World I σ ε κ → Prop) (b w : World I σ ε κ) :
    S.Safe D pid Q (Program.query q) b w ↔
      (D.assume w.log → D.Keeps b w ∧ S.Awaits D pid q (fun r w => Q r w w) w) := by
  simp only [Program.query, safe_await, safe_ofExcept]

/-- The query `q` of the task `pid`, asked at `w`, has come back with an error; others
may have run since. -/
structure Failed (D : Discipline I σ ε κ) (pid : Nat) (q : I.Query) (e : ε)
    (w w' : World I σ ε κ) : Prop where
  keeps : D.Keeps w w'
  assume : D.assume w'.log
  logged : ∃ new, w'.log = new ++ .answered pid q (.error e) :: w.log

theorem Failed.condition {q : I.Query} {e : ε} {w w' : World I σ ε κ} (h : Failed D pid q e w w') :
    D.assume (.answered pid q (.error e) :: w.log) := by
  obtain ⟨new, hlog⟩ := h.logged
  exact Discipline.earlier_append (hlog ▸ h.assume)

/-- **The rule for a query**: its own two steps keep the discipline, and what follows
may rely on the value it was answered with when it was answered. -/
theorem Safe.of_query {q : I.Query}
    {Q : Except ε (I.Answer q) → World I σ ε κ → World I σ ε κ → Prop} {b w : World I σ ε κ}
    (hk : D.Keeps b w)
    (hanswer : ∀ w₁, D.Meanwhile pid w w₁ → D.assume (S.respond pid q w₁).log →
      D.Keeps w₁ (S.respond pid q w₁))
    (hreject : ∀ w₁, D.Meanwhile pid w w₁ → D.assume (S.reject pid q w₁).log →
      D.Keeps w₁ (S.reject pid q w₁))
    (hvalue : ∀ v w₁ w₂, D.Meanwhile pid w w₁ → (S.answer q w₁.state).1 = .ok v →
      D.Keeps w₁ (S.respond pid q w₁) → D.Meanwhile pid (S.respond pid q w₁) w₂ → Q (.ok v) w₂ w₂)
    (herror : ∀ e w₁ w₂, D.Meanwhile pid w w₁ → Failed D pid q e w₁ w₂ → Q (.error e) w₂ w₂) :
    S.Safe D pid Q (Program.query q) b w := by
  refine (safe_query q Q b w).mpr fun _ => ⟨hk, fun w₁ hw₁ ha => ?_, fun _ w₁ hw₁ ha => ?_⟩
  · have hstep := hanswer w₁ hw₁ ha
    refine ⟨hstep, fun w₂ hw₂ => ?_⟩
    cases hv : (S.answer q w₁.state).1 with
    | ok v => exact hvalue v w₁ w₂ hw₁ hv hstep hw₂
    | error e =>
      obtain ⟨new, hlog, _⟩ := hw₂.others
      refine herror e w₁ w₂ hw₁ ⟨hstep.trans hw₂.keeps, hw₂.assume, new, ?_⟩
      rw [hlog, respond, hv]
  · have hstep := hreject w₁ hw₁ ha
    refine ⟨hstep, fun w₂ hw₂ => ?_⟩
    obtain ⟨new, hlog, _⟩ := hw₂.others
    exact herror _ w₁ w₂ hw₁ ⟨hstep.trans hw₂.keeps, hw₂.assume, new, hlog⟩

/-- What held when the last block began and outlasts every step that keeps the
discipline holds at the beginning of each later block. -/
theorem Safe.carry {Q : Except ε β → World I σ ε κ → World I σ ε κ → Prop}
    {P : World I σ ε κ → Prop} (hP : ∀ w w', P w → D.rel w w' → P w') {p : Program I ε β}
    {b w : World I σ ε κ} (h : S.Safe D pid Q p b w) (hb : P b) :
    S.Safe D pid (fun r b w => Q r b w ∧ P b) p b w := by
  induction p generalizing b w with
  | ret v => exact ⟨h, hb⟩
  | raise e => exact ⟨h, hb⟩
  | act a next ih => exact ih _ h hb
  | await q next ih =>
    intro ha
    obtain ⟨hk, hback⟩ := h ha
    refine ⟨hk, fun w₁ hw₁ => ?_⟩
    have hw : P w₁ := hP _ _ (hP _ _ hb hk.rel) hw₁.rel
    obtain ⟨hr, hf⟩ := hback w₁ hw₁
    refine ⟨fun ha => ⟨(hr ha).1, fun w₂ hw₂ => ?_⟩, fun hfail ha => ⟨(hf hfail ha).1, fun w₂ hw₂ => ?_⟩⟩
    · exact ih _ ((hr ha).2 w₂ hw₂) (hP _ _ (hP _ _ hw (hr ha).1.rel) hw₂.rel)
    · exact ih _ ((hf hfail ha).2 w₂ hw₂) (hP _ _ (hP _ _ hw (hf hfail ha).1.rel) hw₂.rel)

/-! ### Programs that need no care -/

variable (S D)

/-- A program that may run at any point and leaves the discipline kept. -/
def Steady (p : Program I ε β) : Prop :=
  ∀ pid b w, D.Keeps b w → S.Safe D pid (fun _ b w => D.Keeps b w) p b w

variable {S D}

theorem Steady.ret (v : β) : S.Steady D (.ret v : Program I ε β) := fun _ _ _ hk => hk

theorem Steady.bind {γ : Type} {p : Program I ε γ} {f : γ → Program I ε β} (hp : S.Steady D p)
    (hf : ∀ v, S.Steady D (f v)) : S.Steady D (p.bind f) := by
  intro pid b w hk
  rw [safe_bind]
  apply (hp pid b w hk).mono
  intro r b w hk
  cases r with
  | ok v => exact hf v pid b w hk
  | error e => exact hk

theorem Steady.tryCatch {p : Program I ε β} {f : ε → Program I ε β} (hp : S.Steady D p)
    (hf : ∀ e, S.Steady D (f e)) : S.Steady D (p.tryCatch f) := by
  intro pid b w hk
  rw [safe_tryCatch]
  apply (hp pid b w hk).mono
  intro r b w hk
  cases r with
  | ok v => exact hk
  | error e => exact hf e pid b w hk

/-- A program all of whose actions and queries keep the discipline and `P`, where `P` also
outlasts what others do meanwhile. -/
theorem Safe.of_within_own {A : I.Action → Prop} {B : I.Query → Prop} {p : Program I ε β}
    {P : World I σ ε κ → Prop} (hwait : ∀ {w w'}, P w → D.Meanwhile pid w w' → P w')
    (hact : ∀ a w, A a → D.inv w → P w → D.Keeps w (S.perform pid a w) ∧ P (S.perform pid a w))
    (hanswer : ∀ q w, B q → D.inv w → P w → D.Keeps w (S.respond pid q w) ∧ P (S.respond pid q w))
    (hreject : ∀ q w, B q → D.inv w → P w → D.Keeps w (S.reject pid q w) ∧ P (S.reject pid q w))
    (hp : p.Within A B) {b w : World I σ ε κ} (hk : D.Keeps b w) (hw : P w) :
    S.Safe D pid (fun _ b w => D.Keeps b w ∧ P w) p b w := by
  induction p generalizing b w with
  | ret v => exact ⟨hk, hw⟩
  | raise e => exact ⟨hk, hw⟩
  | act a next ih =>
    obtain ⟨hstep, hw'⟩ := hact a w hp.1 hk.inv hw
    exact ih _ (hp.2 _) (hk.trans hstep) hw'
  | await q next ih =>
    intro _
    refine ⟨hk, fun w₁ hw₁ => ⟨fun _ => ?_, fun _ _ => ?_⟩⟩
    · obtain ⟨hstep, hP⟩ := hanswer q w₁ hp.1 hw₁.inv (hwait hw hw₁)
      exact ⟨hstep, fun w₂ hw₂ => ih _ (hp.2 _) (.refl hw₂.inv) (hwait hP hw₂)⟩
    · obtain ⟨hstep, hP⟩ := hreject q w₁ hp.1 hw₁.inv (hwait hw hw₁)
      exact ⟨hstep, fun w₂ hw₂ => ih _ (hp.2 _) (.refl hw₂.inv) (hwait hP hw₂)⟩

/-- What outlasts every step that keeps the discipline outlasts such a program. -/
theorem Safe.of_within {A : I.Action → Prop} {B : I.Query → Prop} {p : Program I ε β}
    (hact : ∀ pid a w, A a → D.inv w → D.Keeps w (S.perform pid a w))
    (hanswer : ∀ pid q w, B q → D.inv w → D.Keeps w (S.respond pid q w))
    (hreject : ∀ pid q w, D.inv w → D.Keeps w (S.reject pid q w)) (hp : p.Within A B)
    {P : World I σ ε κ → Prop} (hP : ∀ w w', P w → D.rel w w' → P w') {b w : World I σ ε κ}
    (hk : D.Keeps b w) (hw : P w) :
    S.Safe D pid (fun _ b w => D.Keeps b w ∧ P w) p b w := by
  have hkeep : ∀ {w w'}, P w → D.Keeps w w' → D.Keeps w w' ∧ P w' :=
    fun hw hk => ⟨hk, hP _ _ hw hk.rel⟩
  refine Safe.of_within_own (fun hw h => hP _ _ hw h.rel) ?_ ?_ ?_ hp hk hw
  · exact fun a w ha hi hw => hkeep hw (hact pid a w ha hi)
  · exact fun q w hq hi hw => hkeep hw (hanswer pid q w hq hi)
  · exact fun q w _ hi hw => hkeep hw (hreject pid q w hi)

theorem Steady.of_within {A : I.Action → Prop} {B : I.Query → Prop} {p : Program I ε β}
    (hact : ∀ pid a w, A a → D.inv w → D.Keeps w (S.perform pid a w))
    (hanswer : ∀ pid q w, B q → D.inv w → D.Keeps w (S.respond pid q w))
    (hreject : ∀ pid q w, D.inv w → D.Keeps w (S.reject pid q w)) (hp : p.Within A B) :
    S.Steady D p := fun _ _ _ hk =>
  (Safe.of_within hact hanswer hreject hp (P := fun _ => True) (fun _ _ _ _ => trivial) hk
    trivial).mono fun _ _ _ h => h.1

/-- What is owed only under the assumption may be proved under it. -/
theorem Safe.of_assume {Q : Except ε β → World I σ ε κ → World I σ ε κ → Prop}
    (hQ : ∀ r b w, (D.assume w.log → Q r b w) → Q r b w) {p : Program I ε β}
    {b w : World I σ ε κ} (h : D.assume w.log → S.Safe D pid Q p b w) : S.Safe D pid Q p b w := by
  induction p generalizing b w with
  | ret v => exact hQ _ _ _ h
  | raise e => exact hQ _ _ _ h
  | act a next ih => exact ih _ fun ha => h (D.earlier ha)
  | await q next ih => exact fun ha => h ha ha

/-! ### Results alone -/

/-- No obligations: the discipline for facts about how calls end. -/
def free : Discipline I σ ε κ where
  inv _ := True
  rel _ _ := True
  assume _ := True
  refl _ := trivial
  trans _ _ := trivial
  earlier _ := trivial

theorem free_keeps (b w : World I σ ε κ) : (free : Discipline I σ ε κ).Keeps b w :=
  ⟨trivial, trivial⟩

theorem free_safe (p : Program I ε β) (b w : World I σ ε κ) :
    S.Safe free pid (fun _ _ _ => True) p b w := by
  induction p generalizing b w with
  | ret v => trivial
  | raise e => trivial
  | act a next ih => exact ih _ _ _
  | await q next ih =>
    exact fun _ => ⟨free_keeps b w, fun w₁ _ => ⟨fun _ => ⟨free_keeps _ _, fun w₂ _ => ih _ w₂ w₂⟩,
      fun _ _ => ⟨free_keeps _ _, fun w₂ _ => ih _ w₂ w₂⟩⟩⟩

/-- An answer that the system may give. -/
def Gives (S : System I σ ε κ α) (q : I.Query) (r : Except ε (I.Answer q)) : Prop :=
  r = .error S.fault ∨ ∃ s, r = (S.answer q s).1

/-- What holds of every result that the answers of the system can lead to. -/
theorem Safe.and_ends {Q : Except ε β → World I σ ε κ → World I σ ε κ → Prop}
    {P : Except ε β → Prop} {p : Program I ε β} {b w : World I σ ε κ}
    (h : S.Safe D pid Q p b w) (he : p.Ends S.Gives P) :
    S.Safe D pid (fun r b w => Q r b w ∧ P r) p b w := by
  induction p generalizing b w with
  | ret v => exact ⟨h, he⟩
  | raise e => exact ⟨h, he⟩
  | act a next ih => exact ih _ h (he _)
  | await q next ih =>
    intro ha
    refine ⟨(h ha).1, fun w₁ hw => ?_⟩
    obtain ⟨hr, hf⟩ := (h ha).2 w₁ hw
    refine ⟨fun ha => ⟨(hr ha).1, fun w₂ hw₂ => ?_⟩, fun hfail ha => ⟨(hf hfail ha).1, fun w₂ hw₂ => ?_⟩⟩
    · exact ih _ ((hr ha).2 w₂ hw₂) (he _ (.inr ⟨w₁.state, rfl⟩))
    · exact ih _ ((hf hfail ha).2 w₂ hw₂) (he _ (.inl rfl))

theorem Safe.of_ends {P : Except ε β → Prop} {p : Program I ε β} (h : p.Ends S.Gives P)
    (b w : World I σ ε κ) : S.Safe free pid (fun r _ _ => P r) p b w :=
  ((free_safe p b w).and_ends h).mono fun _ _ _ h => h.2

/-- A steady program, and one that is steady after each of its results. -/
theorem Steady.bind_ends {γ : Type} {P : Except ε γ → Prop} {p : Program I ε γ}
    {f : γ → Program I ε β} (hp : S.Steady D p) (he : p.Ends S.Gives P)
    (hf : ∀ v, P (.ok v) → S.Steady D (f v)) : S.Steady D (p.bind f) := by
  intro pid b w hk
  rw [safe_bind]
  apply ((hp pid b w hk).and_ends he).mono
  intro r b w h
  obtain ⟨hk, hv⟩ := h
  rcases r with e | v
  · exact hk
  · exact hf v hv pid b w hk

/-! ### From safe bodies to every run -/

variable (S D)

/-- A task in the middle of a run, from which on it is safe. -/
def TaskSafe (pid : Nat) (Q : Except ε α → World I σ ε κ → Prop) :
    Task I ε α → World I σ ε κ → Prop
  | .blocked q next, w => S.Awaits D pid q (fun r w => S.Safe D pid (D.Ended Q) (next r) w w) w
  | .ready p, w => ∀ w', D.Meanwhile pid w w' → S.Safe D pid (D.Ended Q) p w' w'
  | .done r, w => Q r w

/-- What a system owes for all its runs to keep the discipline, and for a finished
task `pid` of the call `call` to satisfy `Q pid call`. -/
structure Upholds (Q : Nat → κ → Except ε α → World I σ ε κ → Prop) : Prop where
  arrives : ∀ pid call w s, D.inv w → (∀ e ∈ w.log, e.pid ≠ pid) →
    S.accept call w.state = some s →
    S.Safe D pid (D.Ended (Q pid call)) (S.body call) w (arrival pid call s w)
  passes : ∀ n w, D.inv w → D.Keeps w ⟨S.pass n w.state, w.log⟩
  stable : ∀ pid call r w w', Q pid call r w → D.Meanwhile pid w w' → Q pid call r w'

/-- A configuration from which on every run keeps the discipline. -/
structure Sound (Q : Nat → κ → Except ε α → World I σ ε κ → Prop)
    (c : Config I σ ε κ α) : Prop where
  inv : D.inv c.world
  numbered : ∀ e ∈ c.world.log, e.pid < c.tasks.length
  tasks : ∀ (pid : Nat) entry, c.tasks[pid]? = some entry →
    S.TaskSafe D pid (Q pid entry.call) entry.task c.world

variable {S D} {Q : Nat → κ → Except ε α → World I σ ε κ → Prop}

/-- Steady bodies, and arrivals that keep the discipline, are all it takes. -/
theorem Upholds.of_steady (harrive : ∀ pid call w s, D.inv w → S.accept call w.state = some s →
      D.Keeps w (arrival pid call s w)) (hbody : ∀ call, S.Steady D (S.body call))
    (hpass : ∀ n w, D.inv w → D.Keeps w ⟨S.pass n w.state, w.log⟩) :
    S.Upholds D fun _ _ _ _ => True :=
  ⟨fun pid call w s hi _ ha => (hbody call pid _ _ (harrive pid call w s hi ha)).mono
      fun _ _ _ hk _ => ⟨hk, trivial⟩,
    hpass, fun _ _ _ _ _ _ _ => trivial⟩

theorem Awaits.meanwhile {q : I.Query} {Q : Except ε (I.Answer q) → World I σ ε κ → Prop}
    {w w' : World I σ ε κ} (h : S.Awaits D pid q Q w) (hw : D.Meanwhile pid w w') :
    S.Awaits D pid q Q w' :=
  ⟨fun w₁ hw₁ => h.answered w₁ (hw.trans hw₁), fun hf w₁ hw₁ => h.rejected hf w₁ (hw.trans hw₁)⟩

theorem TaskSafe.meanwhile (h : S.Upholds D Q) {call : κ} {t : Task I ε α}
    {w w' : World I σ ε κ} (ht : S.TaskSafe D pid (Q pid call) t w)
    (hw : D.Meanwhile pid w w') : S.TaskSafe D pid (Q pid call) t w' := by
  cases t with
  | blocked q next => exact Awaits.meanwhile ht hw
  | ready p => exact fun w'' hw'' => ht w'' (hw.trans hw'')
  | done r => exact h.stable pid call r w w' ht hw

/-- Running a safe program up to its next `await`. -/
theorem Safe.settle {Q : Except ε α → World I σ ε κ → Prop} {p : Program I ε α}
    {b w : World I σ ε κ} (h : S.Safe D pid (D.Ended Q) p b w)
    (ha : D.assume (S.settle pid p w).2.log) :
    D.Keeps b (S.settle pid p w).2 ∧
      S.TaskSafe D pid Q (S.settle pid p w).1 (S.settle pid p w).2 := by
  induction p generalizing w with
  | ret v => exact h ha
  | raise e => exact h ha
  | await q next => exact (safe_await _ q next b w).mp h ha
  | act a next ih => exact ih _ h ha

/-- The tasks other than `pid`, after a step in which only `pid` logged something. -/
theorem Sound.others (h : S.Upholds D Q) {c : Config I σ ε κ α} (hc : S.Sound D Q c)
    {w : World I σ ε κ} {pid : Nat} (hk : D.Keeps c.world w) (ha : D.assume w.log)
    (hlog : ∃ new, w.log = new ++ c.world.log ∧ ∀ e ∈ new, e.pid = pid)
    {other : Nat} (hne : other ≠ pid) {entry : Entry I ε κ α}
    (he : c.tasks[other]? = some entry) :
    S.TaskSafe D other (Q other entry.call) entry.task w := by
  obtain ⟨new, hnew, hpid⟩ := hlog
  refine (hc.tasks other entry he).meanwhile h ⟨hk.rel, hk.inv, ha, new, hnew, fun e hmem => ?_⟩
  rw [hpid e hmem]
  exact hne.symm

/-- A step that moves the task `pid` to `t` in the world `w`. -/
theorem Sound.move (h : S.Upholds D Q) {c : Config I σ ε κ α} (hc : S.Sound D Q c)
    {w : World I σ ε κ} {pid : Nat} {entry : Entry I ε κ α} {t : Task I ε α}
    (he : c.tasks[pid]? = some entry) (hk : D.Keeps c.world w) (ha : D.assume w.log)
    (hlog : ∃ new, w.log = new ++ c.world.log ∧ ∀ e ∈ new, e.pid = pid)
    (ht : S.TaskSafe D pid (Q pid entry.call) t w) :
    S.Sound D Q ⟨w, c.tasks.set pid ⟨entry.call, t⟩⟩ := by
  have hlt : pid < c.tasks.length := (List.getElem?_eq_some_iff.mp he).1
  refine ⟨hk.inv, fun e hmem => ?_, fun other entry' he' => ?_⟩
  · obtain ⟨new, hnew, hpid⟩ := hlog
    rw [List.length_set]
    rw [hnew, List.mem_append] at hmem
    rcases hmem with hmem | hmem
    · rw [hpid e hmem]
      exact hlt
    · exact hc.numbered e hmem
  · by_cases hpid : other = pid
    · subst hpid
      rw [List.getElem?_set_self hlt] at he'
      obtain rfl := Option.some.inj he'
      exact ht
    · rw [List.getElem?_set_ne (Ne.symm hpid)] at he'
      exact hc.others h hk ha hlog hpid he'

/-- A call arrives and runs up to its first `await`. -/
theorem Sound.arrive (h : S.Upholds D Q) {c : Config I σ ε κ α} (hc : S.Sound D Q c) {call : κ}
    {s : σ} (haccept : S.accept call c.world.state = some s) {settled : Task I ε α × World I σ ε κ}
    (hs : settled = S.settle c.tasks.length (S.body call)
      (arrival c.tasks.length call s c.world)) (ha : D.assume settled.2.log) :
    D.Keeps c.world settled.2 ∧ S.Sound D Q ⟨settled.2, c.tasks ++ [⟨call, settled.1⟩]⟩ := by
  obtain ⟨new, hlog, hnew⟩ := S.settle_log c.tasks.length (S.body call)
    (arrival c.tasks.length call s c.world)
  rw [← hs] at hlog
  have hfresh : ∀ e ∈ c.world.log, e.pid ≠ c.tasks.length :=
    fun e he => Nat.ne_of_lt (hc.numbered e he)
  have hsafe := h.arrives c.tasks.length call c.world s hc.inv hfresh haccept
  obtain ⟨hk, ht⟩ := hsafe.settle (hs ▸ ha)
  rw [← hs] at hk ht
  have hgrown : ∃ new, settled.2.log = new ++ c.world.log ∧ ∀ e ∈ new, e.pid = c.tasks.length := by
    refine ⟨new ++ [.arrived c.tasks.length call], by rw [hlog, List.append_assoc]; rfl, ?_⟩
    intro e he
    rcases List.mem_append.mp he with he | he
    · exact hnew e he
    · rw [List.mem_singleton.mp he]
      rfl
  refine ⟨hk, hk.inv, fun e he => ?_, fun other entry he => ?_⟩
  · obtain ⟨grown, hgrown, hpid⟩ := hgrown
    rw [List.length_append, List.length_singleton]
    rw [hgrown, List.mem_append] at he
    rcases he with he | he
    · rw [hpid e he]
      exact Nat.lt_succ_self _
    · exact Nat.lt_succ_of_lt (hc.numbered e he)
  · rcases Nat.lt_trichotomy other c.tasks.length with hlt | rfl | hgt
    · rw [List.getElem?_append_left hlt] at he
      exact hc.others h hk ha hgrown (Nat.ne_of_lt hlt) he
    · rw [List.getElem?_concat_length] at he
      obtain rfl := Option.some.inj he
      exact ht
    · rw [List.getElem?_eq_none (by simp; omega)] at he
      cases he

/-- One move keeps the discipline. -/
theorem Sound.step (h : S.Upholds D Q) {c : Config I σ ε κ α} (hc : S.Sound D Q c) (m : Move κ)
    (ha : D.assume (S.step c m).world.log) :
    D.Keeps c.world (S.step c m).world ∧ S.Sound D Q (S.step c m) := by
  have hstep := S.step_stepped c m
  generalize S.step c m = c' at hstep ha ⊢
  cases hstep with
  | idle => exact ⟨⟨D.refl _, hc.inv⟩, hc⟩
  | arrive haccept => exact hc.arrive h haccept rfl ha
  | answer he =>
    obtain ⟨hk, hnext⟩ := (hc.tasks _ _ he).answered c.world (.refl _ hc.inv (D.earlier ha)) ha
    exact ⟨hk, hc.move h he hk ha ⟨[_], rfl, by simp [Event.pid]⟩ hnext⟩
  | fail he hf =>
    obtain ⟨hk, hnext⟩ := (hc.tasks _ _ he).rejected hf c.world (.refl _ hc.inv (D.earlier ha)) ha
    exact ⟨hk, hc.move h he hk ha ⟨[_], rfl, by simp [Event.pid]⟩ hnext⟩
  | @resume pid call p he =>
    obtain ⟨new, hlog, hpid⟩ := S.settle_log pid p c.world
    have ha' : D.assume c.world.log := Discipline.earlier_append (hlog ▸ ha)
    obtain ⟨hk, ht⟩ := (hc.tasks pid _ he c.world (.refl pid hc.inv ha')).settle ha
    exact ⟨hk, hc.move h he hk ha ⟨new, hlog, hpid⟩ ht⟩
  | pass n =>
    have hk := h.passes n c.world hc.inv
    refine ⟨hk, hk.inv, hc.numbered, fun pid entry he => ?_⟩
    exact (hc.tasks pid entry he).meanwhile h ⟨hk.rel, hk.inv, ha, [], rfl, by simp⟩

/-- **Every run keeps the discipline**, if its log meets the assumption. -/
theorem Sound.run (h : S.Upholds D Q) {c : Config I σ ε κ α} (hc : S.Sound D Q c)
    (moves : List (Move κ)) (ha : D.assume (S.run c moves).world.log) :
    D.Keeps c.world (S.run c moves).world ∧ S.Sound D Q (S.run c moves) := by
  induction moves generalizing c with
  | nil => exact ⟨⟨D.refl _, hc.inv⟩, hc⟩
  | cons m rest ih =>
    obtain ⟨new, hlog⟩ := S.run_log (S.step c m) rest
    obtain ⟨hk, hs⟩ := hc.step h m (Discipline.earlier_append (hlog ▸ ha))
    obtain ⟨hk', hs'⟩ := ih hs ha
    exact ⟨hk.trans hk', hs'⟩

theorem Sound.start {s : σ} (hi : D.inv ⟨s, []⟩) : S.Sound D Q (Config.start s) :=
  ⟨hi, by simp [Config.start], by simp [Config.start]⟩

/-- What every body ends with, whatever it is answered, every finished task has ended with. -/
theorem ended_run {P : κ → Except ε α → Prop} (h : ∀ call, (S.body call).Ends S.Gives (P call))
    (s : σ) (moves : List (Move κ)) {pid : Nat} {call : κ} {r : Except ε α}
    (hdone : (S.run (Config.start s) moves).tasks[pid]? = some ⟨call, .done r⟩) : P call r := by
  have hupholds : S.Upholds free fun _ call r _ => P call r := by
    refine ⟨fun pid call w s _ _ _ => ?_, fun _ _ _ => free_keeps _ _, fun _ _ _ _ _ h _ => h⟩
    exact (Safe.of_ends (h call) _ _).mono fun r b w h _ => ⟨free_keeps b w, h⟩
  have hstart : S.Sound free (fun _ call r _ => P call r) (Config.start s) := .start trivial
  exact (hstart.run hupholds moves trivial).2.tasks pid _ hdone

end System

end Async
