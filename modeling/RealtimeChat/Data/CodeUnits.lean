import RealtimeChat.Data.Text

/-! Strings as JavaScript holds them: UTF-16 code units, with or without lone surrogates.

A `Text` is one without; `encode` writes it out. -/
namespace Data

abbrev CodeUnits := List UInt16

def codeUnits (c : Char) : CodeUnits :=
  if c.toNat < 0x10000 then [.ofNat c.toNat]
  else [.ofNat (0xD800 + (c.toNat - 0x10000) / 0x400), .ofNat (0xDC00 + (c.toNat - 0x10000) % 0x400)]

def encode (s : Text) : CodeUnits := s.flatMap codeUnits

/-- White space and line terminators. -/
def isSpaceUnit (u : UInt16) : Bool :=
  [0x9, 0xA, 0xB, 0xC, 0xD, 0x20, 0xA0, 0x1680, 0x2000, 0x2001, 0x2002, 0x2003, 0x2004, 0x2005,
    0x2006, 0x2007, 0x2008, 0x2009, 0x200A, 0x2028, 0x2029, 0x202F, 0x205F, 0x3000,
    0xFEFF].contains u.toNat

theorem codeUnits_ne_nil (c : Char) : codeUnits c ≠ [] := by
  unfold codeUnits
  split
  · exact List.cons_ne_nil _ _
  · exact List.cons_ne_nil _ _

/-- A unit is the character itself, or one of a pair of surrogates. -/
theorem mem_codeUnits {c : Char} {u : UInt16} (h : u ∈ codeUnits c) :
    u.toNat = c.toNat ∨ 0x10000 ≤ c.toNat ∧ 0xD800 ≤ u.toNat ∧ u.toNat < 0xE000 := by
  have hc : c.toNat < 0x110000 := by
    rcases c.valid with h | h
    · exact Nat.lt_trans h (by decide)
    · exact h.2
  unfold codeUnits at h
  split at h
  · rename_i hlt
    rw [List.mem_singleton.mp h, UInt16.toNat_ofNat']
    exact .inl (Nat.mod_eq_of_lt hlt)
  · rename_i hge
    refine .inr ⟨Nat.le_of_not_lt hge, ?_⟩
    rcases List.mem_cons.mp h with rfl | h
    · rw [UInt16.toNat_ofNat']
      omega
    · rw [List.mem_singleton.mp h, UInt16.toNat_ofNat']
      omega

theorem isSpaceUnit_codeUnits (c : Char) (u : UInt16) (h : u ∈ codeUnits c) :
    isSpaceUnit u = isSpace c := by
  rcases mem_codeUnits h with heq | ⟨hc, hlow, hhigh⟩
  · rw [isSpaceUnit, isSpace, heq]
  · have hu : isSpaceUnit u = false := by
      simp only [isSpaceUnit, List.contains_cons, List.contains_nil, Bool.or_false, Bool.or_eq_false_iff,
        beq_eq_false_iff_ne]
      omega
    have hc' : isSpace c = false := by
      simp only [isSpace, List.contains_cons, List.contains_nil, Bool.or_false, Bool.or_eq_false_iff,
        beq_eq_false_iff_ne]
      omega
    rw [hu, hc']

theorem encode_trim (s : Text) : encode (trim s) = trimBy isSpaceUnit (encode s) :=
  (trimBy_flatMap isSpaceUnit_codeUnits codeUnits_ne_nil s).symm

theorem length_encode (s : Text) : (encode s).length = utf16Length s := by
  induction s with
  | nil => rfl
  | cons c rest ih =>
    have hlt : c.val < 0x10000 ↔ c.toNat < 0x10000 := UInt32.lt_iff_toNat_lt
    have hlength : (codeUnits c).length = if c.val < 0x10000 then 1 else 2 := by
      simp only [codeUnits, hlt]
      split
      · rfl
      · rfl
    show (codeUnits c ++ encode rest).length = utf16Length (c :: rest)
    rw [List.length_append, ih, hlength]
    rfl

end Data
