import RealtimeChat.Data.Regex

/-! Regular expressions, read from how they are written, and matched.

`read` gives back every expression from its spelling (`read_print`), so that no two are spelled
alike; it reads nothing else. `occursIn` decides whether an expression occurs in a text. -/
namespace Data

/-! ### Reading -/

/-- What may follow an expression that has been written. -/
def RegexLevel.Ends : RegexLevel → Text → Prop
  | .atom, _ => True
  | .piece, rest => ∀ c ∈ rest.head?, c ≠ '?' ∧ c ≠ '*' ∧ c ≠ '+'
  | .branch, rest => ∀ c ∈ rest.head?, c = '|' ∨ c = ')'
  | .choice, rest => ∀ c ∈ rest.head?, c = ')'

namespace Regex

def quantified (a : Regex .atom) : Text → Regex .piece × Text
  | [] => (.once a, [])
  | c :: rest =>
    if c = '?' then (.optional a, rest)
    else if c = '*' then (.star a, rest)
    else if c = '+' then (.plus a, rest)
    else (.once a, c :: rest)

def closed (r : Regex .choice) : Text → Option (Regex .atom × Text)
  | ')' :: rest => some (.group r, rest)
  | _ => none

def readClass (s : Text) : Option (Regex .atom × Text) :=
  match s.dropWhile Char.isAlphanum with
  | ']' :: rest =>
    if h : s.takeWhile Char.isAlphanum ≠ [] ∧ (s.takeWhile Char.isAlphanum).all Char.isAlphanum = true
    then some (.oneOf (s.takeWhile Char.isAlphanum) h, rest)
    else none
  | _ => none

def readEscaped : Text → Option (Regex .atom × Text)
  | c :: rest => if h : isSpecial c = true then some (.escaped c h, rest) else none
  | [] => none

/-- The expression at the beginning of a text, as far as it goes, and what comes after it. -/
def readAt : (l : RegexLevel) → Nat → Text → Option (Regex l × Text)
  | _, 0, _ => none
  | .atom, _ + 1, [] => none
  | .atom, n + 1, c :: s =>
    if c = '(' then (readAt .choice n s).bind fun (r, rest) => r.closed rest
    else if c = '.' then some (.any, s)
    else if c = '[' then readClass s
    else if c = '\\' then readEscaped s
    else if h : isOrdinary c = true then some (.char c h, s)
    else none
  | .piece, _ + 1, [] => none
  | .piece, n + 1, c :: s =>
    if c = '^' then some (.start, s)
    else if c = '$' then some (.stop, s)
    else (readAt .atom n (c :: s)).map fun (a, rest) => a.quantified rest
  | .branch, _ + 1, [] => some (.empty, [])
  | .branch, n + 1, c :: s =>
    if c = '|' ∨ c = ')' then some (.empty, c :: s)
    else (readAt .piece n (c :: s)).bind fun (p, rest) =>
      (readAt .branch n rest).map fun (b, rest) => (.followed p b, rest)
  | .choice, n + 1, s =>
    (readAt .branch n s).bind fun
      | (b, '|' :: rest) => (readAt .choice n rest).map fun (r, rest) => (.or b r, rest)
      | (b, rest) => some (.only b, rest)

/-- How deep the reading of the expression goes. -/
def depth : {l : RegexLevel} → Regex l → Nat
  | _, .char _ _ => 1
  | _, .escaped _ _ => 1
  | _, .any => 1
  | _, .oneOf _ _ => 1
  | _, .group r => r.depth + 1
  | _, .start => 1
  | _, .stop => 1
  | _, .once a => a.depth + 1
  | _, .optional a => a.depth + 1
  | _, .star a => a.depth + 1
  | _, .plus a => a.depth + 1
  | _, .empty => 1
  | _, .followed p b => max p.depth b.depth + 1
  | _, .only b => b.depth + 1
  | _, .or b r => max b.depth r.depth + 1

def read (s : Text) : Option (Regex .choice) :=
  match readAt .choice (4 * s.length + 2) s with
  | some (r, []) => some r
  | _ => none

end Regex

theorem ordinary_ne {c d : Char} (h : isOrdinary c = true) (hd : isSpecial d = true) : c ≠ d := by
  rintro rfl
  rw [isOrdinary, hd] at h
  cases h

namespace Regex

/-- An atom does not begin like something else. -/
theorem print_atom (a : Regex .atom) :
    ∃ c s, a.print = c :: s ∧ c ∉ ['^', '$', '|', ')', '?', '*', '+'] := by
  cases a with
  | char c h =>
    refine ⟨c, [], rfl, fun hmem => ?_⟩
    exact ordinary_ne h (List.all_eq_true.mp (by decide : List.all _ isSpecial = true) c hmem) rfl
  | escaped c h => exact ⟨'\\', [c], rfl, by decide⟩
  | any => exact ⟨'.', [], rfl, by decide⟩
  | oneOf cs h => exact ⟨'[', _, rfl, by decide⟩
  | group r => exact ⟨'(', _, rfl, by decide⟩

theorem print_piece (p : Regex .piece) :
    ∃ c s, p.print = c :: s ∧ c ∉ ['|', ')', '?', '*', '+'] := by
  have hatom : ∀ (a : Regex .atom) (s : Text), ∃ c s', a.print ++ s = c :: s' ∧
      c ∉ ['|', ')', '?', '*', '+'] := by
    intro a s
    obtain ⟨c, s', h, hc⟩ := a.print_atom
    refine ⟨c, s' ++ s, ?_, fun hmem => hc (List.mem_cons_of_mem _ (List.mem_cons_of_mem _ hmem))⟩
    rw [h]
    rfl
  cases p with
  | start => exact ⟨'^', [], rfl, by decide⟩
  | stop => exact ⟨'$', [], rfl, by decide⟩
  | once a => exact List.append_nil a.print ▸ hatom a []
  | optional a => exact hatom a _
  | star a => exact hatom a _
  | plus a => exact hatom a _

/-- What follows a piece in a branch is no quantifier. -/
theorem ends_branch (b : Regex .branch) {rest : Text} (h : RegexLevel.branch.Ends rest) :
    RegexLevel.piece.Ends (b.print ++ rest) := by
  intro d hd
  cases b with
  | empty =>
    rcases h d hd with rfl | rfl <;> decide
  | followed p b =>
    obtain ⟨c, s, hprint, hc⟩ := p.print_piece
    rw [print, hprint] at hd
    obtain rfl : c = d := by simpa using hd
    simp at hc
    exact ⟨hc.2.2.1, hc.2.2.2.1, hc.2.2.2.2⟩

theorem quantified_of_ends (a : Regex .atom) {rest : Text} (h : RegexLevel.piece.Ends rest) :
    a.quantified rest = (.once a, rest) := by
  cases rest with
  | nil => rfl
  | cons c s =>
    obtain ⟨h₁, h₂, h₃⟩ := h c rfl
    rw [quantified, if_neg h₁, if_neg h₂, if_neg h₃]

theorem readAt_piece {a : Regex .atom} {n : Nat} {rest : Text}
    (h : readAt .atom n (a.print ++ rest) = some (a, rest)) :
    readAt .piece (n + 1) (a.print ++ rest) = some (a.quantified rest) := by
  obtain ⟨c, s, hprint, hc⟩ := a.print_atom
  rw [hprint] at h ⊢
  simp at hc
  rw [List.cons_append, readAt, if_neg hc.1, if_neg hc.2.1, ← List.cons_append, h]
  rfl

theorem readClass_print {cs : Text} (h : cs ≠ [] ∧ cs.all Char.isAlphanum = true) (rest : Text) :
    readClass (cs ++ ']' :: rest) = some (.oneOf cs h, rest) := by
  have hall : ∀ c ∈ cs, Char.isAlphanum c = true := List.all_eq_true.mp h.2
  have htake : (cs ++ ']' :: rest).takeWhile Char.isAlphanum = cs := by
    rw [List.takeWhile_append_of_pos hall]
    simp
  have hdrop : (cs ++ ']' :: rest).dropWhile Char.isAlphanum = ']' :: rest := by
    rw [List.dropWhile_append_of_pos hall]
    rfl
  simp only [readClass, hdrop, htake]
  rw [dif_pos h]

theorem depth_pos {l : RegexLevel} (r : Regex l) : 0 < r.depth := by
  cases r <;> exact Nat.succ_pos _

theorem ends_cons {c : Char} {rest : Text} (h : c = '|' ∨ c = ')') :
    RegexLevel.branch.Ends (c :: rest) := by
  intro d hd
  cases hd
  exact h

/-- **Every expression is read back**, with what comes after it left. -/
theorem readAt_print {l : RegexLevel} (r : Regex l) {n : Nat} {rest : Text} (hn : r.depth ≤ n)
    (hrest : l.Ends rest) : readAt l n (r.print ++ rest) = some (r, rest) := by
  induction n generalizing l rest with
  | zero => exact absurd hn (Nat.not_le.mpr r.depth_pos)
  | succ n ih =>
    cases r with
    | char c h =>
      have hne : ∀ d, isSpecial d = true → c ≠ d := fun d hd => ordinary_ne h hd
      rw [print, List.singleton_append, readAt, if_neg (hne _ rfl), if_neg (hne _ rfl),
        if_neg (hne _ rfl), if_neg (hne _ rfl), dif_pos h]
    | escaped c h =>
      show readEscaped (c :: rest) = _
      rw [readEscaped, dif_pos h]
    | any => rfl
    | oneOf cs h =>
      show readClass ((cs ++ [']']) ++ rest) = _
      rw [List.append_assoc]
      exact readClass_print h rest
    | group r =>
      have hread : readAt .choice n (r.print ++ ')' :: rest) = some (r, ')' :: rest) :=
        ih r (Nat.le_of_succ_le_succ hn) fun c hc => (Option.some.inj hc).symm
      show (readAt .choice n ((r.print ++ [')']) ++ rest)).bind _ = _
      rw [List.append_assoc]
      exact (congrArg (Option.bind · _) hread).trans rfl
    | start => rfl
    | stop => rfl
    | once a =>
      have hread := @readAt_piece a n rest (ih a (Nat.le_of_succ_le_succ hn) trivial)
      rwa [a.quantified_of_ends hrest] at hread
    | optional a =>
      rw [print, List.append_assoc]
      exact readAt_piece (ih a (Nat.le_of_succ_le_succ hn) trivial)
    | star a =>
      rw [print, List.append_assoc]
      exact readAt_piece (ih a (Nat.le_of_succ_le_succ hn) trivial)
    | plus a =>
      rw [print, List.append_assoc]
      exact readAt_piece (ih a (Nat.le_of_succ_le_succ hn) trivial)
    | empty =>
      cases rest with
      | nil => rfl
      | cons c s =>
        show readAt .branch (n + 1) (c :: s) = _
        rw [readAt, if_pos (hrest c rfl)]
    | followed p b =>
      obtain ⟨hp, hb⟩ := Nat.max_le.mp (Nat.le_of_succ_le_succ hn)
      have hreadp := ih p hp (b.ends_branch hrest)
      have hreadb := ih b hb hrest
      obtain ⟨c, s, hprint, hc⟩ := p.print_piece
      simp at hc
      rw [print, List.append_assoc]
      rw [hprint] at hreadp ⊢
      rw [List.cons_append, readAt, if_neg (not_or.mpr ⟨hc.1, hc.2.1⟩), ← List.cons_append, hreadp]
      exact (congrArg (Option.map _) hreadb).trans rfl
    | only b =>
      have hread := ih b (Nat.le_of_succ_le_succ hn) fun c hc => .inr (hrest c hc)
      show (readAt .branch n (b.print ++ rest)).bind _ = _
      rw [hread]
      cases rest with
      | nil => rfl
      | cons c s =>
        obtain rfl : c = ')' := hrest c rfl
        rfl
    | or b r =>
      obtain ⟨hb, hr⟩ := Nat.max_le.mp (Nat.le_of_succ_le_succ hn)
      have hreadb : readAt .branch n (b.print ++ '|' :: (r.print ++ rest)) =
          some (b, '|' :: (r.print ++ rest)) := ih b hb (ends_cons (.inl rfl))
      have hreadr := ih r hr hrest
      show (readAt .branch n ((b.print ++ '|' :: r.print) ++ rest)).bind _ = _
      rw [List.append_assoc, List.cons_append, hreadb]
      exact (congrArg (Option.map _) hreadr).trans rfl

/-- What the depth is less than the spelling allows, by the level. -/
def slack : RegexLevel → Nat
  | .atom => 6
  | .piece => 5
  | .branch => 2
  | .choice => 1

theorem depth_le {l : RegexLevel} (r : Regex l) : r.depth + slack l ≤ 4 * r.print.length + 3 := by
  induction r with
  | char c h => simp [depth, slack, print]
  | escaped c h => simp [depth, slack, print]
  | any => simp [depth, slack, print]
  | oneOf cs h =>
    simp only [depth, slack, print, List.length_cons, List.length_append]
    omega
  | group r ih =>
    simp only [depth, slack, print, List.length_cons, List.length_append] at ih ⊢
    omega
  | start => simp [depth, slack, print]
  | stop => simp [depth, slack, print]
  | once a ih =>
    simp only [depth, slack, print] at ih ⊢
    omega
  | optional a ih =>
    simp only [depth, slack, print, List.length_append] at ih ⊢
    omega
  | star a ih =>
    simp only [depth, slack, print, List.length_append] at ih ⊢
    omega
  | plus a ih =>
    simp only [depth, slack, print, List.length_append] at ih ⊢
    omega
  | empty => simp [depth, slack, print]
  | followed p b ihp ihb =>
    have hpos := p.depth_pos
    simp only [depth, slack, print, List.length_append] at ihp ihb ⊢
    omega
  | only b ih =>
    simp only [depth, slack, print] at ih ⊢
    omega
  | or b r ihb ihr =>
    simp only [depth, slack, print, List.length_append, List.length_cons] at ihb ihr ⊢
    omega

theorem read_print (r : Regex .choice) : read r.print = some r := by
  have hdepth : r.depth + slack .choice ≤ 4 * r.print.length + 3 := r.depth_le
  have hread : readAt .choice (4 * r.print.length + 2) (r.print ++ []) = some (r, []) :=
    r.readAt_print (Nat.le_of_succ_le_succ hdepth) (by simp [RegexLevel.Ends])
  rw [List.append_nil] at hread
  simp only [read, hread]

end Regex

/-! ### Matching -/

/-- A decision of a `Matching`. -/
abbrev Matcher := (pre w post : Text) → Bool

namespace Matcher

def single (p : Char → Bool) : Matcher
  | _, [c], _ => p c
  | _, _, _ => false

def followed (m n : Matcher) : Matcher := fun pre w post =>
  (List.range (w.length + 1)).any fun i =>
    m pre (w.take i) (w.drop i ++ post) && n (pre ++ w.take i) (w.drop i) post

/-- Up to so many matches, one after the other. -/
def repeated (m : Matcher) : Nat → Matcher
  | 0 => fun _ w _ => w.isEmpty
  | n + 1 => fun pre w post => w.isEmpty || m.followed (m.repeated n) pre w post

structure Decides (m : Matcher) (M : Matching) : Prop where
  iff : ∀ {pre w post : Text}, m pre w post = true ↔ M pre w post

variable {m n : Matcher} {M N : Matching}

theorem Decides.single {p : Char → Bool} {P : Char → Prop} (h : ∀ c, p c = true ↔ P c) :
    (single p).Decides (fun _ w _ => ∃ c, w = [c] ∧ P c) where
  iff := by
    intro pre w post
    rcases w with _ | ⟨c, _ | ⟨c', rest⟩⟩
    · simp [Matcher.single]
    · simp [Matcher.single, h]
    · simp [Matcher.single]

theorem Decides.followed (hm : m.Decides M) (hn : n.Decides N) : (m.followed n).Decides (M.followed N) where
  iff := by
    intro pre w post
    simp only [Matcher.followed, Matching.followed, List.any_eq_true, List.mem_range, Bool.and_eq_true]
    constructor
    · intro h
      obtain ⟨i, -, hfirst, hrest⟩ := h
      exact ⟨w.take i, w.drop i, (List.take_append_drop i w).symm, hm.iff.mp hfirst, hn.iff.mp hrest⟩
    · intro h
      obtain ⟨u, v, rfl, hfirst, hrest⟩ := h
      refine ⟨u.length, by simp only [List.length_append]; omega, ?_, ?_⟩
      · simpa using hm.iff.mpr hfirst
      · simpa using hn.iff.mpr hrest

theorem Decides.or (hm : m.Decides M) (hn : n.Decides N) :
    Decides (fun pre w post => m pre w post || n pre w post)
      (fun pre w post => M pre w post ∨ N pre w post) where
  iff := by
    intro pre w post
    rw [Bool.or_eq_true, hm.iff, hn.iff]

theorem Decides.isEmpty : Decides (fun _ w _ => w.isEmpty) (fun _ w _ => w = []) where
  iff := List.isEmpty_iff

theorem repeated_sound (hm : m.Decides M) {k : Nat} {pre w post : Text}
    (h : m.repeated k pre w post = true) : Repeated M pre w post := by
  induction k generalizing pre w with
  | zero =>
    obtain rfl := List.isEmpty_iff.mp h
    exact .nil pre post
  | succ k ih =>
    rcases (Bool.or_eq_true _ _).mp h with hnil | h
    · obtain rfl := List.isEmpty_iff.mp hnil
      exact .nil pre post
    · simp only [Matcher.followed, List.any_eq_true, Bool.and_eq_true] at h
      obtain ⟨i, -, hfirst, hrest⟩ := h
      have hmatch := Repeated.cons (hm.iff.mp hfirst) (ih hrest)
      rwa [List.take_append_drop] at hmatch

/-- As many matches as there are characters are enough: empty ones need not be counted. -/
theorem repeated_complete (hm : m.Decides M) {k : Nat} {pre w post : Text}
    (h : Repeated M pre w post) (hk : w.length ≤ k) : m.repeated k pre w post = true := by
  induction h generalizing k with
  | nil pre post => cases k <;> rfl
  | @cons pre u v post hfirst hrest ih =>
    by_cases hu : u = []
    · subst hu
      rw [List.append_nil] at ih
      exact ih hk
    · have hpos := List.length_pos_iff.mpr hu
      rw [List.length_append] at hk
      obtain _ | k := k
      · omega
      · refine (Bool.or_eq_true _ _).mpr (.inr ?_)
        simp only [Matcher.followed, List.any_eq_true, List.mem_range, Bool.and_eq_true]
        refine ⟨u.length, by simp only [List.length_append]; omega, ?_, ?_⟩
        · simpa using hm.iff.mpr hfirst
        · simpa using ih (by omega)

theorem Decides.repeated (hm : m.Decides M) :
    Decides (fun pre w post => m.repeated w.length pre w post) (Repeated M) where
  iff := ⟨repeated_sound hm, fun h => repeated_complete hm h (Nat.le_refl _)⟩

end Matcher

namespace Regex
variable (fold : Char → Char)

def matcher : {l : RegexLevel} → Regex l → Matcher
  | _, .char c _ => .single fun d => fold d == fold c
  | _, .escaped c _ => .single fun d => fold d == fold c
  | _, .any => .single fun d => d != '\n'
  | _, .oneOf cs _ => .single fun d => cs.any fun c => fold d == fold c
  | _, .group r => r.matcher
  | _, .start => fun pre w _ => w.isEmpty && pre.isEmpty
  | _, .stop => fun _ w post => w.isEmpty && (post.isEmpty || post == ['\n'])
  | _, .once a => a.matcher
  | _, .optional a => fun pre w post => w.isEmpty || a.matcher pre w post
  | _, .star a => fun pre w post => a.matcher.repeated w.length pre w post
  | _, .plus a => a.matcher.followed fun pre w post => a.matcher.repeated w.length pre w post
  | _, .empty => fun _ w _ => w.isEmpty
  | _, .followed p b => p.matcher.followed b.matcher
  | _, .only b => b.matcher
  | _, .or b r => fun pre w post => b.matcher pre w post || r.matcher pre w post

def occursIn {l : RegexLevel} (r : Regex l) (text : Text) : Bool :=
  (List.range (text.length + 1)).any fun i =>
    (List.range ((text.drop i).length + 1)).any fun j =>
      r.matcher fold (text.take i) ((text.drop i).take j) ((text.drop i).drop j)

variable {fold : Char → Char} {l : RegexLevel}

theorem matcher_decides (r : Regex l) : (r.matcher fold).Decides (r.Matches fold) := by
  induction r with
  | char c _ => exact .single fun d => beq_iff_eq
  | escaped c _ => exact .single fun d => beq_iff_eq
  | any => exact .single fun d => bne_iff_ne
  | oneOf cs _ => exact .single fun d => by simp
  | group r ih => exact ih
  | start => exact ⟨by simp [matcher, Matches]⟩
  | stop => exact ⟨by simp [matcher, Matches]⟩
  | once a ih => exact ih
  | optional a ih => exact Matcher.Decides.isEmpty.or ih
  | star a ih => exact ih.repeated
  | plus a ih => exact ih.followed ih.repeated
  | empty => exact .isEmpty
  | followed p b ihp ihb => exact ihp.followed ihb
  | only b ih => exact ih
  | or b r ihb ihr => exact ihb.or ihr

theorem occursIn_iff (r : Regex l) (text : Text) : r.occursIn fold text = true ↔ r.Occurs fold text := by
  simp only [occursIn, Occurs, List.any_eq_true, List.mem_range, r.matcher_decides.iff]
  constructor
  · intro h
    obtain ⟨i, -, j, -, h⟩ := h
    refine ⟨_, _, _, ?_, h⟩
    rw [List.take_append_drop, List.take_append_drop]
  · intro h
    obtain ⟨pre, w, post, rfl, h⟩ := h
    exact ⟨pre.length, by simp only [List.length_append]; omega, w.length,
      by rw [List.drop_left, List.length_append]; omega, by simpa using h⟩

end Regex

end Data
