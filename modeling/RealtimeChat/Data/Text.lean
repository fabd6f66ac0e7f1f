import Mathlib.Algebra.GroupWithZero.Nat
import RealtimeChat.Data.Trim

/-! Text as JavaScript measures and trims it. Texts are without lone surrogates. -/
namespace Data

abbrev Text := List Char

/-- The length JavaScript gives a text: its UTF-16 code units. -/
def utf16Length (s : Text) : Nat := (s.map fun c => if c.val < 0x10000 then 1 else 2).sum

/-- White space and line terminators, which `trim` removes. -/
def isSpace (c : Char) : Bool :=
  [0x9, 0xA, 0xB, 0xC, 0xD, 0x20, 0xA0, 0x1680, 0x2000, 0x2001, 0x2002, 0x2003, 0x2004, 0x2005,
    0x2006, 0x2007, 0x2008, 0x2009, 0x200A, 0x2028, 0x2029, 0x202F, 0x205F, 0x3000,
    0xFEFF].contains c.toNat

/-- The encoding of a text as bytes. -/
def utf8 (s : Text) : List UInt8 := s.flatMap String.utf8EncodeChar

/-- `toLowerCase`, of an ASCII text. -/
def toLowerCase (s : Text) : Text := s.map Char.toLower

def trim (s : Text) : Text := ((s.dropWhile isSpace).reverse.dropWhile isSpace).reverse

section
variable {s t : Text}

theorem trim_eq_trimBy (s : Text) : trim s = trimBy isSpace s := rfl

theorem trim_sublist (s : Text) : (trim s).Sublist s := trimBy_sublist s

@[simp] theorem trim_trim (s : Text) : trim (trim s) = trim s := trimBy_trimBy s

theorem utf16Length_sublist (h : t.Sublist s) : utf16Length t ≤ utf16Length s := by
  unfold utf16Length
  induction h with
  | slnil => exact Nat.le_refl _
  | cons c _ ih =>
    rw [List.map_cons, List.sum_cons]
    exact Nat.le_add_left_of_le ih
  | cons_cons c _ ih =>
    rw [List.map_cons, List.map_cons, List.sum_cons, List.sum_cons]
    exact Nat.add_le_add_left ih _

theorem toLower_toLower (c : Char) : c.toLower.toLower = c.toLower := by
  have hfix : ∀ d : Char, ¬ (d.val ≥ 'A'.val ∧ d.val ≤ 'Z'.val) → d.toLower = d := by
    intro d hd
    exact dif_neg hd
  by_cases h : c.val ≥ 'A'.val ∧ c.val ≤ 'Z'.val
  · apply hfix
    have hval : c.toLower.val = c.val + ('a'.val - 'A'.val) := congrArg Char.val (dif_pos h)
    rw [hval]
    simp only [UInt32.le_iff_toNat_le, ge_iff_le] at h ⊢
    simp only [UInt32.toNat_add]
    have hA : ('A'.val).toNat = 65 := rfl
    have hZ : ('Z'.val).toNat = 90 := rfl
    have hshift : ('a'.val - 'A'.val).toNat = 32 := rfl
    omega
  · rw [hfix c h, hfix c h]

@[simp] theorem toLowerCase_toLowerCase (s : Text) : toLowerCase (toLowerCase s) = toLowerCase s := by
  rw [toLowerCase, toLowerCase, List.map_map]
  exact List.map_congr_left fun c _ => toLower_toLower c

end
end Data
