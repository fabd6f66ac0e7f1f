import RealtimeChat.Data.Text

/-! Regular expressions as they are written, and what they match.

A text given where an expression is expected is read by the characters that are special in
expressions. `occurs_iff_contains` says when that makes no difference: an expression occurs in
the same texts as its own spelling, taken literally, exactly if no special character is in it.

Characters are compared up to `fold`, which maps those to one that differ only in case. -/
namespace Data

/-- The characters that are not matched by themselves. -/
def specialChars : Text := ['\\', '^', '$', '.', '|', '?', '*', '+', '(', ')', '[', '{']

def isSpecial (c : Char) : Bool := specialChars.contains c

/-- An expression may hold no null character. -/
def isOrdinary (c : Char) : Bool := !isSpecial c && c != Char.ofNat 0

/-- No character of the text is special. -/
def Plain (s : Text) : Prop := ∀ c ∈ s, isOrdinary c = true

instance : DecidablePred Plain := fun s => inferInstanceAs (Decidable (∀ c ∈ s, isOrdinary c = true))

inductive RegexLevel where
  | atom
  | piece
  | branch
  | choice

/-- Expressions, by what they may stand in. -/
inductive Regex : RegexLevel → Type where
  | char (c : Char) (h : isOrdinary c = true) : Regex .atom
  | escaped (c : Char) (h : isSpecial c = true) : Regex .atom
  | any : Regex .atom
  | oneOf (cs : Text) (h : cs ≠ [] ∧ cs.all Char.isAlphanum = true) : Regex .atom
  | group (r : Regex .choice) : Regex .atom
  | start : Regex .piece
  | stop : Regex .piece
  | once (a : Regex .atom) : Regex .piece
  | optional (a : Regex .atom) : Regex .piece
  | star (a : Regex .atom) : Regex .piece
  | plus (a : Regex .atom) : Regex .piece
  | empty : Regex .branch
  | followed (p : Regex .piece) (b : Regex .branch) : Regex .branch
  | only (b : Regex .branch) : Regex .choice
  | or (b : Regex .branch) (r : Regex .choice) : Regex .choice

/-- `M pre w post`: with `pre` before it and `post` after it, `w` is matched. -/
abbrev Matching := (pre w post : Text) → Prop

/-- Any number of matches, one after the other. -/
inductive Repeated (M : Matching) : Matching where
  | nil (pre post : Text) : Repeated M pre [] post
  | cons {pre u v post : Text} (h : M pre u (v ++ post)) (hrest : Repeated M (pre ++ u) v post) :
    Repeated M pre (u ++ v) post

/-- One match, and another after it. -/
def Matching.followed (M N : Matching) : Matching := fun pre w post =>
  ∃ u v, w = u ++ v ∧ M pre u (v ++ post) ∧ N (pre ++ u) v post

namespace Regex

def print : {l : RegexLevel} → Regex l → Text
  | _, .char c _ => [c]
  | _, .escaped c _ => ['\\', c]
  | _, .any => ['.']
  | _, .oneOf cs _ => '[' :: (cs ++ [']'])
  | _, .group r => '(' :: (r.print ++ [')'])
  | _, .start => ['^']
  | _, .stop => ['$']
  | _, .once a => a.print
  | _, .optional a => a.print ++ ['?']
  | _, .star a => a.print ++ ['*']
  | _, .plus a => a.print ++ ['+']
  | _, .empty => []
  | _, .followed p b => p.print ++ b.print
  | _, .only b => b.print
  | _, .or b r => b.print ++ '|' :: r.print

variable (fold : Char → Char)

/-- `.` matches all but a line break, and `$` also before one that ends the text. -/
def Matches : {l : RegexLevel} → Regex l → Matching
  | _, .char c _, _, w, _ => ∃ d, w = [d] ∧ fold d = fold c
  | _, .escaped c _, _, w, _ => ∃ d, w = [d] ∧ fold d = fold c
  | _, .any, _, w, _ => ∃ d, w = [d] ∧ d ≠ '\n'
  | _, .oneOf cs _, _, w, _ => ∃ d, w = [d] ∧ ∃ c ∈ cs, fold d = fold c
  | _, .group r, pre, w, post => r.Matches pre w post
  | _, .start, pre, w, _ => w = [] ∧ pre = []
  | _, .stop, _, w, post => w = [] ∧ (post = [] ∨ post = ['\n'])
  | _, .once a, pre, w, post => a.Matches pre w post
  | _, .optional a, pre, w, post => w = [] ∨ a.Matches pre w post
  | _, .star a, pre, w, post => Repeated a.Matches pre w post
  | _, .plus a, pre, w, post => Matching.followed a.Matches (Repeated a.Matches) pre w post
  | _, .empty, _, w, _ => w = []
  | _, .followed p b, pre, w, post => Matching.followed p.Matches b.Matches pre w post
  | _, .only b, pre, w, post => b.Matches pre w post
  | _, .or b r, pre, w, post => b.Matches pre w post ∨ r.Matches pre w post

/-- The text has a part that is matched. -/
def Occurs {l : RegexLevel} (r : Regex l) (text : Text) : Prop :=
  ∃ pre w post, text = pre ++ (w ++ post) ∧ r.Matches fold pre w post

end Regex

/-- The text has a part that is spelled so, but for its case. -/
def Contains (fold : Char → Char) (part text : Text) : Prop :=
  ∃ pre w post, text = pre ++ (w ++ post) ∧ w.map fold = part.map fold

instance (fold : Char → Char) (part text : Text) : Decidable (Contains fold part text) :=
  decidable_of_iff (∃ i < text.length + 1, ((text.drop i).take part.length).map fold = part.map fold) <| by
    constructor
    · intro h
      obtain ⟨i, -, h⟩ := h
      refine ⟨text.take i, _, (text.drop i).drop part.length, ?_, h⟩
      rw [List.take_append_drop, List.take_append_drop]
    · intro h
      obtain ⟨pre, w, post, rfl, h⟩ := h
      have hlength : w.length = part.length := by simpa using congrArg List.length h
      refine ⟨pre.length, by simp only [List.length_append]; omega, ?_⟩
      rwa [List.drop_left, ← hlength, List.take_left]

/-! ### Plain expressions -/

theorem Plain.append {s t : Text} (h : Plain (s ++ t)) : Plain s ∧ Plain t :=
  ⟨fun c hc => h c (List.mem_append_left t hc), fun c hc => h c (List.mem_append_right s hc)⟩

/-- A special character is not ordinary. -/
theorem not_plain {s : Text} {c : Char} (hc : c ∈ s) (hspecial : isSpecial c = true) : ¬ Plain s := by
  intro h
  have hordinary := h c hc
  rw [isOrdinary, hspecial] at hordinary
  cases hordinary

namespace Regex
variable {fold : Char → Char} {l : RegexLevel}

/-- An expression without special characters matches what is spelled like it. -/
theorem matches_iff_of_plain (r : Regex l) (h : Plain r.print) (pre w post : Text) :
    r.Matches fold pre w post ↔ w.map fold = r.print.map fold := by
  induction r generalizing pre w post with
  | char c _ =>
    constructor
    · intro hmatch
      obtain ⟨d, rfl, hsame⟩ := hmatch
      exact congrArg (fun x => [x]) hsame
    · intro hsame
      obtain ⟨d, rfl, hd⟩ := List.map_eq_singleton_iff.mp hsame
      exact ⟨d, rfl, hd⟩
  | escaped c _ => exact absurd h (not_plain (.head _) rfl)
  | any => exact absurd h (not_plain (.head _) rfl)
  | oneOf cs _ => exact absurd h (not_plain (.head _) rfl)
  | group r _ => exact absurd h (not_plain (.head _) rfl)
  | start => exact absurd h (not_plain (.head _) rfl)
  | stop => exact absurd h (not_plain (.head _) rfl)
  | once a ih => exact ih h pre w post
  | optional a _ => exact absurd h.append.2 (not_plain (.head _) rfl)
  | star a _ => exact absurd h.append.2 (not_plain (.head _) rfl)
  | plus a _ => exact absurd h.append.2 (not_plain (.head _) rfl)
  | empty => exact List.map_eq_nil_iff.symm
  | followed p b ihp ihb =>
    obtain ⟨hp, hb⟩ := h.append
    rw [print, List.map_append, List.map_eq_append_iff]
    constructor
    · intro hmatch
      obtain ⟨u, v, rfl, hu, hv⟩ := hmatch
      exact ⟨u, v, rfl, (ihp hp _ _ _).mp hu, (ihb hb _ _ _).mp hv⟩
    · intro hsame
      obtain ⟨u, v, rfl, hu, hv⟩ := hsame
      exact ⟨u, v, rfl, (ihp hp _ _ _).mpr hu, (ihb hb _ _ _).mpr hv⟩
  | only b ih => exact ih h pre w post
  | or b r _ _ => exact absurd h.append.2 (not_plain (.head _) rfl)

theorem occurs_iff_of_plain (r : Regex l) (h : Plain r.print) (text : Text) :
    r.Occurs fold text ↔ Contains fold r.print text := by
  unfold Occurs Contains
  simp only [r.matches_iff_of_plain h]

/-- A text without special characters, as an expression. -/
def literal : (s : Text) → Plain s → Regex .branch
  | [], _ => .empty
  | c :: s, h =>
    .followed (.once (.char c (h c (.head s)))) (literal s fun d hd => h d (.tail c hd))

@[simp] theorem print_literal (s : Text) (h : Plain s) : (literal s h).print = s := by
  induction s with
  | nil => rfl
  | cons c s ih => exact congrArg (c :: ·) (ih _)

/-! ### Expressions with special characters -/

end Regex

/-- What is matched is matched too with less around it. -/
structure Matching.Monotone (M : Matching) : Prop where
  less : ∀ {pre pre' w post post' : Text}, M pre w post → pre'.Sublist pre → post'.Sublist post →
    M pre' w post'

theorem Matching.Monotone.repeated {M : Matching} (hM : M.Monotone) :
    Matching.Monotone (Repeated M) where
  less := by
    intro pre pre' w post post' h hpre hpost
    induction h generalizing pre' with
    | nil => exact .nil pre' post'
    | cons h _ ih =>
      exact .cons (hM.less h hpre ((List.Sublist.refl _).append hpost))
        (ih (hpre.append (List.Sublist.refl _)) hpost)

theorem Matching.Monotone.followed {M N : Matching} (hM : M.Monotone) (hN : N.Monotone) :
    (M.followed N).Monotone where
  less := by
    intro pre pre' w post post' h hpre hpost
    obtain ⟨u, v, rfl, hu, hv⟩ := h
    exact ⟨u, v, rfl, hM.less hu hpre ((List.Sublist.refl _).append hpost),
      hN.less hv (hpre.append (List.Sublist.refl _)) hpost⟩

theorem Matching.Monotone.or {M N : Matching} (hM : M.Monotone) (hN : N.Monotone) :
    Matching.Monotone (fun pre w post => M pre w post ∨ N pre w post) where
  less h hpre hpost := h.imp (fun h => hM.less h hpre hpost) fun h => hN.less h hpre hpost

/-- What does not look at what is around. -/
theorem Matching.Monotone.const (P : Text → Prop) : Matching.Monotone (fun _ w _ => P w) where
  less h _ _ := h

namespace Regex
variable {fold : Char → Char} {l : RegexLevel}

theorem matches_monotone (r : Regex l) : Matching.Monotone (r.Matches fold) := by
  induction r with
  | char c _ => exact .const _
  | escaped c _ => exact .const _
  | any => exact .const _
  | oneOf cs _ => exact .const _
  | group r ih => exact ih
  | start =>
    refine ⟨fun h hpre _ => ⟨h.1, ?_⟩⟩
    rw [h.2] at hpre
    exact List.sublist_nil.mp hpre
  | stop =>
    refine ⟨fun h _ hpost => ⟨h.1, ?_⟩⟩
    rcases h.2 with rfl | rfl
    · exact .inl (List.sublist_nil.mp hpost)
    · exact List.sublist_singleton.mp hpost
  | once a ih => exact ih
  | optional a ih => exact (Matching.Monotone.const (· = [])).or ih
  | star a ih => exact ih.repeated
  | plus a ih => exact ih.followed ih.repeated
  | empty => exact .const _
  | followed p b ihp ihb => exact ihp.followed ihb
  | only b ih => exact ih
  | or b r ihb ihr => exact ihb.or ihr

end Regex

/-- No special character but dots. -/
def Dotted (s : Text) : Prop := ∀ c ∈ s, isOrdinary c = true ∨ c = '.'

theorem dotted_append {s t : Text} : Dotted (s ++ t) ↔ Dotted s ∧ Dotted t := by
  simp only [Dotted, List.mem_append, or_imp, forall_and]

theorem not_dotted {s : Text} {c : Char} (hc : c ∈ s) (hspecial : isSpecial c = true) (hdot : c ≠ '.') :
    ¬ Dotted s := by
  intro h
  rcases h c hc with hordinary | heq
  · rw [isOrdinary, hspecial] at hordinary
    cases hordinary
  · exact hdot heq

/-- A part of a match that is one itself, and no longer than the expression is written. As long it is
only without special characters other than dots. -/
structure ShortMatch (fold : Char → Char) {l : RegexLevel} (r : Regex l) (pre w post short : Text) :
    Prop where
  sublist : short.Sublist w
  isMatch : r.Matches fold pre short post
  length : short.length ≤ r.print.length
  dotted : short.length = r.print.length → Dotted r.print

theorem ShortMatch.of_lt {fold : Char → Char} {l : RegexLevel} {r : Regex l} {pre w post short : Text}
    (hsub : short.Sublist w) (hmatch : r.Matches fold pre short post)
    (hlt : short.length < r.print.length) : ShortMatch fold r pre w post short :=
  ⟨hsub, hmatch, Nat.le_of_lt hlt, fun heq => absurd heq (Nat.ne_of_lt hlt)⟩

/-- It is one of a longer expression too. -/
theorem ShortMatch.longer {fold : Char → Char} {l l' : RegexLevel} {r : Regex l} {r' : Regex l'}
    {pre post w w' post' short : Text} (h : ShortMatch fold r pre w post short) (hw : w.Sublist w')
    (hmatch : r'.Matches fold pre short post') (hlt : r.print.length < r'.print.length) :
    ShortMatch fold r' pre w' post' short :=
  .of_lt (h.sublist.trans hw) hmatch (Nat.lt_of_le_of_lt h.length hlt)

namespace Regex
variable {fold : Char → Char} {l : RegexLevel}

theorem exists_short (r : Regex l) {pre w post : Text} (h : r.Matches fold pre w post) :
    ∃ short, ShortMatch fold r pre w post short := by
  induction r generalizing pre w post with
  | char c hc =>
    obtain ⟨d, rfl, hsame⟩ := h
    exact ⟨[d], .refl _, ⟨d, rfl, hsame⟩, Nat.le_refl _, fun _ => by simp [Dotted, print, hc]⟩
  | escaped c hc =>
    obtain ⟨d, rfl, hsame⟩ := h
    exact ⟨[d], .of_lt (.refl _) ⟨d, rfl, hsame⟩ (by simp [print])⟩
  | any =>
    obtain ⟨d, rfl, hd⟩ := h
    exact ⟨[d], .refl _, ⟨d, rfl, hd⟩, Nat.le_refl _, fun _ => by simp [Dotted, print]⟩
  | oneOf cs hcs =>
    obtain ⟨d, rfl, hsame⟩ := h
    exact ⟨[d], .of_lt (.refl _) ⟨d, rfl, hsame⟩ (by simp [print])⟩
  | group r ih =>
    obtain ⟨short, hshort⟩ := ih h
    refine ⟨short, hshort.longer (.refl _) hshort.isMatch ?_⟩
    simp only [print, List.length_cons, List.length_append]
    omega
  | start => exact ⟨[], .of_lt (List.nil_sublist _) ⟨rfl, h.2⟩ (by simp [print])⟩
  | stop => exact ⟨[], .of_lt (List.nil_sublist _) ⟨rfl, h.2⟩ (by simp [print])⟩
  | once a ih =>
    obtain ⟨short, hshort⟩ := ih h
    exact ⟨short, hshort.sublist, hshort.isMatch, hshort.length, hshort.dotted⟩
  | optional a _ => exact ⟨[], .of_lt (List.nil_sublist _) (.inl rfl) (by simp [print])⟩
  | star a _ => exact ⟨[], .of_lt (List.nil_sublist _) (.nil pre post) (by simp [print])⟩
  | plus a ih =>
    -- Once is enough.
    obtain ⟨u, v, rfl, hu, -⟩ := h
    obtain ⟨short, hshort⟩ := ih hu
    have hless : a.Matches fold pre short ([] ++ post) :=
      a.matches_monotone.less hshort.isMatch (.refl _) (List.sublist_append_right v post)
    refine ⟨short, hshort.longer (List.sublist_append_left u v) ?_ (by simp [print])⟩
    exact ⟨short, [], (List.append_nil _).symm, hless, .nil _ _⟩
  | empty => exact ⟨[], List.nil_sublist _, rfl, Nat.le_refl _, fun _ => by simp [Dotted, print]⟩
  | followed p b ihp ihb =>
    obtain ⟨u, v, rfl, hu, hv⟩ := h
    obtain ⟨short, hshort⟩ := ihp hu
    obtain ⟨short', hshort'⟩ := ihb hv
    have hlength := hshort.length
    have hlength' := hshort'.length
    refine ⟨short ++ short', hshort.sublist.append hshort'.sublist,
      ⟨short, short', rfl, ?_, ?_⟩, ?_, ?_⟩
    · exact p.matches_monotone.less hshort.isMatch (.refl _) (hshort'.sublist.append (.refl _))
    · exact b.matches_monotone.less hshort'.isMatch ((List.Sublist.refl _).append hshort.sublist) (.refl _)
    · simp only [print, List.length_append]
      omega
    · intro heq
      simp only [print, List.length_append] at heq
      exact dotted_append.mpr ⟨hshort.dotted (by omega), hshort'.dotted (by omega)⟩
  | only b ih =>
    obtain ⟨short, hshort⟩ := ih h
    exact ⟨short, hshort.sublist, hshort.isMatch, hshort.length, hshort.dotted⟩
  | or b r ihb ihr =>
    rcases h with h | h
    · obtain ⟨short, hshort⟩ := ihb h
      exact ⟨short, hshort.longer (.refl _) (.inl hshort.isMatch) (by simp [print])⟩
    · obtain ⟨short, hshort⟩ := ihr h
      refine ⟨short, hshort.longer (.refl _) (.inr hshort.isMatch) ?_⟩
      simp only [print, List.length_append, List.length_cons]
      omega

/-- What dots match may be spelled in another way. -/
theorem matches_undotted (r : Regex l) (h : Dotted r.print) {d : Char} (hd : d ≠ '\n')
    (pre post : Text) : r.Matches fold pre (r.print.map fun c => if c = '.' then d else c) post := by
  induction r generalizing pre post with
  | char c hc =>
    have hne : c ≠ '.' := by
      rintro rfl
      cases hc
    exact ⟨c, by simp [print, hne], rfl⟩
  | escaped c _ => exact absurd h (not_dotted (.head _) rfl (by decide))
  | any => exact ⟨d, rfl, hd⟩
  | oneOf cs _ => exact absurd h (not_dotted (.head _) rfl (by decide))
  | group r _ => exact absurd h (not_dotted (.head _) rfl (by decide))
  | start => exact absurd h (not_dotted (.head _) rfl (by decide))
  | stop => exact absurd h (not_dotted (.head _) rfl (by decide))
  | once a ih => exact ih h pre post
  | optional a _ => exact absurd (dotted_append.mp h).2 (not_dotted (.head _) rfl (by decide))
  | star a _ => exact absurd (dotted_append.mp h).2 (not_dotted (.head _) rfl (by decide))
  | plus a _ => exact absurd (dotted_append.mp h).2 (not_dotted (.head _) rfl (by decide))
  | empty => exact rfl
  | followed p b ihp ihb =>
    obtain ⟨hp, hb⟩ := dotted_append.mp h
    exact ⟨_, _, List.map_append, ihp hp _ _, ihb hb _ _⟩
  | only b ih => exact ih h pre post
  | or b r _ _ => exact absurd (dotted_append.mp h).2 (not_dotted (.head _) rfl (by decide))

end Regex

/-- A text that is no longer than the part it contains is spelled like it. -/
theorem Contains.map_eq {fold : Char → Char} {part text : Text} (h : Contains fold part text)
    (hlength : text.length ≤ part.length) : text.map fold = part.map fold := by
  obtain ⟨pre, w, post, rfl, hsame⟩ := h
  have hw : w.length = part.length := by simpa using congrArg List.length hsame
  simp only [List.length_append] at hlength
  obtain rfl := List.length_eq_zero_iff.mp (by omega : pre.length = 0)
  obtain rfl := List.length_eq_zero_iff.mp (by omega : post.length = 0)
  rw [List.nil_append, List.append_nil, hsame]

theorem Contains.refl (fold : Char → Char) (s : Text) : Contains fold s s :=
  ⟨[], s, [], (List.append_nil s).symm, rfl⟩

namespace Regex
variable {fold : Char → Char} {l : RegexLevel}

theorem Occurs.of_matches {r : Regex l} {pre w post : Text} (h : r.Matches fold pre w post) :
    r.Occurs fold w :=
  ⟨[], w, [], (List.append_nil w).symm,
    r.matches_monotone.less h (List.nil_sublist pre) (List.nil_sublist post)⟩

/-- **When an expression may be taken by the letter**: in all texts it occurs where its spelling
does, but for the case, exactly if no character in it is special. -/
theorem occurs_iff_contains (r : Regex l) {d : Char} (hd : d ≠ '\n') (hfold : fold d ≠ fold '.') :
    (∀ text, r.Occurs fold text ↔ Contains fold r.print text) ↔ Plain r.print := by
  refine ⟨fun h => ?_, fun h => r.occurs_iff_of_plain h⟩
  -- Some part of the spelling itself is matched, and a short part of that; yet this contains all.
  obtain ⟨pre, w, post, -, hmatch⟩ := (h r.print).mpr (.refl fold r.print)
  obtain ⟨short, hshort⟩ := r.exists_short hmatch
  have hspelled := ((h short).mp (.of_matches hshort.isMatch)).map_eq hshort.length
  have hdotted : Dotted r.print := hshort.dotted (by simpa using congrArg List.length hspelled)
  -- With a dot in it, it also occurs where another character stands for the dot.
  have hother := ((h _).mp (.of_matches (r.matches_undotted hdotted hd [] []))).map_eq (by simp)
  intro c hc
  refine (hdotted c hc).resolve_right ?_
  rintro rfl
  rw [List.map_map, List.map_inj_left] at hother
  exact hfold (by simpa using hother _ hc)

end Regex

end Data
