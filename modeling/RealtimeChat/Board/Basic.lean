import Mathlib.Data.Set.Basic
import Mathlib.Logic.Function.Basic
import RealtimeChat.Async.Refinement

/-! What a chat is for.

A board has rooms, and in the rooms there are posts. A room is opened by one of its
members, and its members stay; a post is made by a member of its room, and stays as it
was made. What does change is how far a post has come, which post of a room is the
latest, and whether a user is there, and each of these changes by somebody who may
(`Step`). The results here are about any run of such steps (`Steps`). -/
namespace Board

structure Room (U A : Type) where
  about : A
  members : Set U

structure Post (U R C : Type) where
  room : R
  author : U
  content : C

/-- How far a post has come. -/
inductive Mark where
  | sent
  | delivered
  | read
deriving DecidableEq

/-- What can be done to a board. -/
inductive Act where
  | opens
  | posts
  | points
  | delivers
  | reads
  | attends
deriving DecidableEq

end Board

/-- `U`, `R` and `M` name users, rooms and posts. What is known of a user besides `P`, whether he
is there, is `W`. Marks and latest posts come with the time of the last change. -/
@[ext] structure Board (U R M W A C P : Type) where
  who : U → Option W
  presence : U → Option P
  room : R → Option (Board.Room U A)
  latest : R → Option (Option M × Nat)
  post : M → Option (Board.Post U R C)
  mark : M → Option (Board.Mark × Nat)

namespace Board
open Async (Steps)

variable {U R M W A C P : Type}

/-- The user is a member of the room. -/
def Member (b : Board U R M W A C P) (u : U) (r : R) : Prop :=
  ∃ room, b.room r = some room ∧ u ∈ room.members

/-! ### What may stay as it is -/

/-- Everybody is who he was, and rooms and posts are there as they were. -/
structure Grown (b b' : Board U R M W A C P) : Prop where
  who : b'.who = b.who
  room : ∀ {r room}, b.room r = some room → b'.room r = some room
  post : ∀ {m p}, b.post m = some p → b'.post m = some p

theorem Grown.refl (b : Board U R M W A C P) : b.Grown b := ⟨rfl, id, id⟩

theorem Grown.trans {a b c : Board U R M W A C P} (h : a.Grown b) (h' : b.Grown c) : a.Grown c :=
  ⟨h'.who.trans h.who, fun hr => h'.room (h.room hr), fun hm => h'.post (h.post hm)⟩

theorem Member.grown {b b' : Board U R M W A C P} {u : U} {r : R} (h : b.Member u r) (hgrown : b.Grown b') : b'.Member u r := by
  obtain ⟨room, hroom, hin⟩ := h
  exact ⟨room, hgrown.room hroom, hin⟩

/-- All that a room is, and all that has been said in it, is as it was. -/
structure SameRoom (r : R) (b b' : Board U R M W A C P) : Prop where
  room : b'.room r = b.room r
  latest : b'.latest r = b.latest r
  post : ∀ {m p}, b.post m = some p → p.room = r → b'.post m = some p ∧ b'.mark m = b.mark m
  nothing : ∀ {m p}, b'.post m = some p → p.room = r → b.post m = some p

theorem SameRoom.refl (r : R) (b : Board U R M W A C P) : b.SameRoom r b :=
  ⟨rfl, rfl, fun hm _ => ⟨hm, rfl⟩, fun hm _ => hm⟩

theorem SameRoom.trans {r : R} {a b c : Board U R M W A C P} (h : a.SameRoom r b)
    (h' : b.SameRoom r c) : a.SameRoom r c where
  room := h'.room.trans h.room
  latest := h'.latest.trans h.latest
  post hm hp := ⟨(h'.post (h.post hm hp).1 hp).1, (h'.post (h.post hm hp).1 hp).2.trans (h.post hm hp).2⟩
  nothing hm hp := h.nothing (h'.nothing hm hp) hp

section
variable [DecidableEq U] [DecidableEq R] [DecidableEq M]

/-- What a user may do. -/
inductive Step (u : U) (b : Board U R M W A C P) : Act → Board U R M W A C P → Prop where
  | opens {r : R} {room : Room U A} (t : Nat) (hnew : b.room r = none) (hself : u ∈ room.members) :
    Step u b .opens {b with
      room := Function.update b.room r (some room)
      latest := Function.update b.latest r (some (none, t))}
  | posts {r : R} {m : M} (content : C) (t : Nat) (hnew : b.post m = none) (hmember : b.Member u r) :
    Step u b .posts {b with
      post := Function.update b.post m (some ⟨r, u, content⟩)
      mark := Function.update b.mark m (some (.sent, t))}
  | points {m : M} {p : Post U R C} (t : Nat) (hpost : b.post m = some p) (hauthor : p.author = u)
    (hmember : b.Member u p.room) :
    Step u b .points {b with latest := Function.update b.latest p.room (some (some m, t))}
  | delivers {m : M} {p : Post U R C} (t : Nat) (hpost : b.post m = some p)
    (hmember : b.Member u p.room) :
    Step u b .delivers {b with mark := Function.update b.mark m (some (.delivered, t))}
  | reads {r : R} {ms : List M} (t : Nat) (hmember : b.Member u r)
    (hposts : ∀ m ∈ ms, ∃ p, b.post m = some p ∧ p.room = r ∧ p.author ≠ u) :
    Step u b .reads {b with mark := fun m => if m ∈ ms then some (.read, t) else b.mark m}
  | attends {p : P} : Step u b .attends {b with presence := Function.update b.presence u (some p)}

/-! ### What a step leaves alone -/

theorem update_of_fresh {K V : Type} [DecidableEq K] {f : K → Option V} {k k' : K} {v : V}
    (hnew : f k' = none) (new : Option V) (h : f k = some v) : Function.update f k' new k = some v := by
  rw [Function.update_of_ne, h]
  rintro rfl
  cases hnew.symm.trans h

variable {b b' : Board U R M W A C P} {u : U} {a : Act}

theorem Step.grown (h : Step u b a b') : b.Grown b' := by
  cases h with
  | opens t hnew hself => exact ⟨rfl, update_of_fresh hnew _, id⟩
  | posts content t hnew hmember => exact ⟨rfl, id, update_of_fresh hnew _⟩
  | _ => exact ⟨rfl, id, id⟩

/-- Who is no member of a room leaves it as it is. -/
theorem Step.sameRoom (h : Step u b a b') {r : R} {room : Room U A} (hroom : b.room r = some room)
    (hout : u ∉ room.members) : b.SameRoom r b' := by
  have hother : ∀ {r'}, b.Member u r' → r' ≠ r := by
    intro r' hmember heq
    obtain ⟨room', hroom', hin⟩ := hmember
    rw [heq, hroom] at hroom'
    exact hout (Option.some.inj hroom' ▸ hin)
  cases h with
  | @opens r' room' t hnew hself =>
    have hne : r ≠ r' := by
      rintro rfl
      cases hnew.symm.trans hroom
    exact ⟨Function.update_of_ne hne _ _, Function.update_of_ne hne _ _, fun hm _ => ⟨hm, rfl⟩, fun hm _ => hm⟩
  | @posts r' m content t hnew hmember =>
    refine ⟨rfl, rfl, fun {m' p} hm hp => ?_, fun {m' p} hm hp => ?_⟩
    · have hne : m' ≠ m := by
        rintro rfl
        cases hnew.symm.trans hm
      exact ⟨(Function.update_of_ne hne _ _).trans hm, Function.update_of_ne hne _ _⟩
    · by_cases hne : m' = m
      · subst hne
        dsimp only at hm
        rw [Function.update_self] at hm
        obtain rfl := Option.some.inj hm
        exact absurd hp (hother hmember)
      · exact (Function.update_of_ne hne _ _).symm.trans hm
  | points t hpost hauthor hmember =>
    exact ⟨rfl, Function.update_of_ne (hother hmember).symm _ _, fun hm _ => ⟨hm, rfl⟩, fun hm _ => hm⟩
  | @delivers m p t hpost hmember =>
    refine ⟨rfl, rfl, fun {m' p'} hm hp => ⟨hm, ?_⟩, fun hm _ => hm⟩
    refine Function.update_of_ne ?_ _ _
    rintro rfl
    rw [hpost] at hm
    obtain rfl := Option.some.inj hm
    exact hother hmember hp
  | @reads r' ms t hmember hposts =>
    refine ⟨rfl, rfl, fun {m' p'} hm hp => ⟨hm, ?_⟩, fun hm _ => hm⟩
    refine if_neg fun hmem => ?_
    obtain ⟨p, hpost, hroom', -⟩ := hposts m' hmem
    rw [hpost] at hm
    obtain rfl := Option.some.inj hm
    exact hother hmember (hroom'.symm.trans hp)
  | attends => exact ⟨rfl, rfl, fun hm _ => ⟨hm, rfl⟩, fun hm _ => hm⟩

/-- Nobody says of another that he is there, or is gone. -/
theorem Step.presence (h : Step u b a b') {other : U} (hne : other ≠ u) :
    b'.presence other = b.presence other := by
  cases h with
  | attends => exact Function.update_of_ne hne _ _
  | _ => rfl

/-- A post is read because it was read before, or because a member other than its author reads it. -/
theorem Step.read (h : Step u b a b') {m : M} {p : Post U R C} {t : Nat} (hpost : b'.post m = some p)
    (hread : b'.mark m = some (.read, t)) : (b.post m = some p ∧ b.mark m = some (.read, t)) ∨
      a = .reads ∧ b.Member u p.room ∧ p.author ≠ u := by
  cases h with
  | @posts r m' content t' hnew hmember =>
    dsimp only at hpost hread
    by_cases hne : m = m'
    · subst hne
      rw [Function.update_self] at hread
      cases hread
    · rw [Function.update_of_ne hne] at hpost hread
      exact .inl ⟨hpost, hread⟩
  | @delivers m' p' t' hpost' hmember =>
    dsimp only at hread
    by_cases hne : m = m'
    · subst hne
      rw [Function.update_self] at hread
      cases hread
    · rw [Function.update_of_ne hne] at hread
      exact .inl ⟨hpost, hread⟩
  | @reads r ms t' hmember hposts =>
    by_cases hmem : m ∈ ms
    · obtain ⟨p', hpost', rfl, hauthor⟩ := hposts m hmem
      cases hpost.symm.trans hpost'
      exact .inr ⟨rfl, hmember, hauthor⟩
    · exact .inl ⟨hpost, (if_neg hmem).symm.trans hread⟩
  | _ => exact .inl ⟨hpost, hread⟩

/-! ### Runs -/

/-- What a call does in the name of its user. -/
def May {K : Type} (user : K → U) (does : K → Act → Prop) (k : K) (b b' : Board U R M W A C P) : Prop :=
  ∃ a, does k a ∧ Step (user k) b a b'

variable {K : Type} {user : K → U} {does : K → Act → Prop} {calls : List K}

theorem grown_steps (h : Steps (May user does) b calls b') : b.Grown b' := by
  refine h.keeps (P := fun _ => True) (fun _ hgood hstep => ?_) (fun _ _ => trivial) (.refl b)
  obtain ⟨a, -, hstep⟩ := hstep
  exact hgood.trans hstep.grown

/-- What outsiders do, in whatever order, leaves a room as it is. -/
theorem sameRoom_steps (h : Steps (May user does) b calls b') {r : R} {room : Room U A}
    (hroom : b.room r = some room) (hout : ∀ k ∈ calls, user k ∉ room.members) : b.SameRoom r b' := by
  refine h.keeps (P := fun k => user k ∉ room.members) (fun hk hgood hstep => ?_) hout (.refl r b)
  obtain ⟨a, -, hstep⟩ := hstep
  exact hgood.trans (hstep.sameRoom (hgood.room.trans hroom) hk)

theorem presence_steps (h : Steps (May user does) b calls b') {other : U}
    (hother : ∀ k ∈ calls, user k ≠ other) : b'.presence other = b.presence other := by
  refine h.keeps (P := fun k => user k ≠ other) (G := fun c => c.presence other = b.presence other)
    (fun hk hgood hstep => ?_) hother rfl
  obtain ⟨a, -, hstep⟩ := hstep
  exact (hstep.presence hk.symm).trans hgood

/-- A post that has come to be read has been read by a member other than its author. -/
theorem read_steps (h : Steps (May user does) b calls b') {m : M} {p : Post U R C} {t : Nat}
    (hpost : b'.post m = some p) (hread : b'.mark m = some (.read, t)) :
    (b.post m = some p ∧ ∃ t, b.mark m = some (.read, t)) ∨
      ∃ k ∈ calls, does k .reads ∧ b'.Member (user k) p.room ∧ p.author ≠ user k := by
  induction h generalizing t with
  | nil => exact .inl ⟨hpost, t, hread⟩
  | @snoc _ _ calls call _ hstep ih =>
    obtain ⟨a, hdoes, hstep⟩ := hstep
    rcases hstep.read hpost hread with ⟨hpost', hread'⟩ | ⟨rfl, hmember, hauthor⟩
    · refine (ih hpost' hread').imp_right fun hk => ?_
      obtain ⟨k, hmem, hdoes', hmember, hauthor⟩ := hk
      exact ⟨k, List.mem_append_left _ hmem, hdoes', hmember.grown hstep.grown, hauthor⟩
    · exact .inr ⟨call, List.mem_append_right _ (.head _), hdoes, hmember.grown hstep.grown, hauthor⟩

end

end Board
