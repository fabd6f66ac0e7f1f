import Mathlib.Tactic.Common

/-! Programs of an event loop.

A program runs alone until it awaits an answer; while it waits, others run. What
it may do in between are *actions*, which take effect at once; what it awaits are
*queries*, answered later with a value or with an error. An error raised by a
program, or brought by an answer, goes to the nearest enclosing handler
(`tryCatch`). Nothing here says what an action or a query does: that is the
`System` of `Async/Schedule.lean`. -/
namespace Async

/-- The actions and queries a program is written with, and what each yields. -/
structure Interface where
  Action : Type
  Reply : Action → Type
  Query : Type
  Answer : Query → Type

/-- A program over the interface `I` that ends with an `α` or with an error. -/
inductive Program (I : Interface) (ε α : Type) where
  | ret (value : α)
  | raise (error : ε)
  | act (a : I.Action) (next : I.Reply a → Program I ε α)
  | await (q : I.Query) (next : Except ε (I.Answer q) → Program I ε α)

namespace Program
variable {I : Interface} {ε α β γ : Type}

def bind : Program I ε α → (α → Program I ε β) → Program I ε β
  | .ret v, f => f v
  | .raise e, _ => .raise e
  | .act a next, f => .act a fun r => (next r).bind f
  | .await q next, f => .await q fun r => (next r).bind f

/-- `try p catch e => h e`: errors of `p`, its failed answers included, go to `h`. -/
def tryCatch : Program I ε α → (ε → Program I ε α) → Program I ε α
  | .ret v, _ => .ret v
  | .raise e, h => h e
  | .act a next, h => .act a fun r => (next r).tryCatch h
  | .await q next, h => .await q fun r => (next r).tryCatch h

instance : Monad (Program I ε) where
  pure := .ret
  bind := .bind

instance : MonadExceptOf ε (Program I ε) where
  throw := .raise
  tryCatch := .tryCatch

/-- Carry out an action and go on with its reply. -/
def perform (a : I.Action) : Program I ε (I.Reply a) := .act a .ret

/-- Go on with a value, or raise an error. -/
def ofExcept : Except ε α → Program I ε α
  | .ok v => .ret v
  | .error e => .raise e

/-- `await q`: go on with the answer, or raise the error it brings. -/
def query (q : I.Query) : Program I ε (I.Answer q) := .await q ofExcept

theorem bind_eq (p : Program I ε α) (f : α → Program I ε β) : p >>= f = p.bind f := rfl

theorem bind_assoc (p : Program I ε α) (f : α → Program I ε β) (g : β → Program I ε γ) :
    (p.bind f).bind g = p.bind fun v => (f v).bind g := by
  induction p with
  | ret v => rfl
  | raise e => rfl
  | act a next ih => exact congrArg (Program.act a) (funext fun r => ih r)
  | await q next ih => exact congrArg (Program.await q) (funext fun r => ih r)

/-- Every action and every query of the program, whatever the replies and the
answers, is among those allowed. -/
def Within (A : I.Action → Prop) (B : I.Query → Prop) : Program I ε α → Prop
  | .ret _ => True
  | .raise _ => True
  | .act a next => A a ∧ ∀ r, (next r).Within A B
  | .await q next => B q ∧ ∀ r, (next r).Within A B

section Within
variable {A A' : I.Action → Prop} {B B' : I.Query → Prop}

@[simp] theorem within_ret (v : α) : (ret v : Program I ε α).Within A B ↔ True := Iff.rfl

@[simp] theorem within_raise (e : ε) : (raise e : Program I ε α).Within A B ↔ True := Iff.rfl

@[simp] theorem within_perform (a : I.Action) :
    (perform a : Program I ε _).Within A B ↔ A a := by
  simp [perform, Within]

@[simp] theorem within_query (q : I.Query) : (query q : Program I ε _).Within A B ↔ B q := by
  refine ⟨fun h => h.1, fun h => ⟨h, fun r => ?_⟩⟩
  cases r <;> trivial

theorem Within.trivial (p : Program I ε α) : p.Within (fun _ => True) fun _ => True := by
  induction p with
  | ret v => exact True.intro
  | raise e => exact True.intro
  | act a next ih => exact ⟨True.intro, ih⟩
  | await q next ih => exact ⟨True.intro, ih⟩

theorem Within.mono {p : Program I ε α} (h : p.Within A B) (hA : ∀ a, A a → A' a)
    (hB : ∀ q, B q → B' q) : p.Within A' B' := by
  induction p with
  | ret v => trivial
  | raise e => trivial
  | act a next ih => exact ⟨hA a h.1, fun r => ih r (h.2 r)⟩
  | await q next ih => exact ⟨hB q h.1, fun r => ih r (h.2 r)⟩

/-- What follows need only be checked for a value, whatever that value is. -/
theorem Within.bind {p : Program I ε α} {f : α → Program I ε β} (h : p.Within A B)
    (hf : ∀ v, (f v).Within A B) : (p.bind f).Within A B := by
  induction p with
  | ret v => exact hf v
  | raise e => trivial
  | act a next ih => exact ⟨h.1, fun r => ih r (h.2 r)⟩
  | await q next ih => exact ⟨h.1, fun r => ih r (h.2 r)⟩

theorem Within.tryCatch {p : Program I ε α} {f : ε → Program I ε α} (h : p.Within A B)
    (hf : ∀ e, (f e).Within A B) : (p.tryCatch f).Within A B := by
  induction p with
  | ret v => trivial
  | raise e => exact hf e
  | act a next ih => exact ⟨h.1, fun r => ih r (h.2 r)⟩
  | await q next ih => exact ⟨h.1, fun r => ih r (h.2 r)⟩

end Within

/-- However the program is replied to, and however it is answered within what `Can`
be an answer, it ends as `P` says. -/
def Ends (Can : (q : I.Query) → Except ε (I.Answer q) → Prop) (P : Except ε α → Prop) :
    Program I ε α → Prop
  | .ret v => P (.ok v)
  | .raise e => P (.error e)
  | .act _ next => ∀ r, (next r).Ends Can P
  | .await q next => ∀ r, Can q r → (next r).Ends Can P

section Ends
variable {Can : (q : I.Query) → Except ε (I.Answer q) → Prop} {P P' : Except ε α → Prop}

theorem Ends.mono {p : Program I ε α} (h : p.Ends Can P) (hP : ∀ r, P r → P' r) :
    p.Ends Can P' := by
  induction p with
  | ret v => exact hP _ h
  | raise e => exact hP _ h
  | act a next ih => exact fun r => ih r (h r)
  | await q next ih => exact fun r hr => ih r (h r hr)

theorem Ends.trivial (p : Program I ε α) : p.Ends Can fun _ => True := by
  induction p with
  | ret v => exact True.intro
  | raise e => exact True.intro
  | act a next ih => exact ih
  | await q next ih => exact fun r _ => ih r

theorem ends_bind (p : Program I ε β) (f : β → Program I ε α) :
    (p.bind f).Ends Can P ↔ p.Ends Can fun r => match r with
      | .ok v => (f v).Ends Can P
      | .error e => P (.error e) := by
  induction p with
  | ret v => exact Iff.rfl
  | raise e => exact Iff.rfl
  | act a next ih => exact forall_congr' ih
  | await q next ih => exact forall_congr' fun r => imp_congr_right fun _ => ih r

theorem ends_tryCatch (p : Program I ε α) (f : ε → Program I ε α) :
    (p.tryCatch f).Ends Can P ↔ p.Ends Can fun r => match r with
      | .ok v => P (.ok v)
      | .error e => (f e).Ends Can P := by
  induction p with
  | ret v => exact Iff.rfl
  | raise e => exact Iff.rfl
  | act a next ih => exact forall_congr' ih
  | await q next ih => exact forall_congr' fun r => imp_congr_right fun _ => ih r

theorem ends_query (q : I.Query) (P : Except ε (I.Answer q) → Prop) :
    (query q : Program I ε _).Ends Can P ↔ ∀ r, Can q r → P r := by
  refine forall_congr' fun r => imp_congr_right fun _ => ?_
  cases r <;> exact Iff.rfl

/-- A program whose errors all end well, and whose last part does. -/
theorem Ends.bind_of {p : Program I ε β} {f : β → Program I ε α} (hf : ∀ v, (f v).Ends Can P)
    (herror : ∀ e, P (.error e)) : (p.bind f).Ends Can P :=
  (ends_bind p f).mpr ((Ends.trivial p).mono fun r _ => match r with
    | .ok v => hf v
    | .error e => herror e)

/-- A handler that ends well makes the whole end well, if values are well. -/
theorem Ends.tryCatch_of {p : Program I ε α} {f : ε → Program I ε α} (hvalue : ∀ v, P (.ok v))
    (hf : ∀ e, (f e).Ends Can P) : (p.tryCatch f).Ends Can P :=
  (ends_tryCatch p f).mpr ((Ends.trivial p).mono fun r _ => match r with
    | .ok v => hvalue v
    | .error e => hf e)

end Ends

end Program

end Async
